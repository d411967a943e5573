import DocDecl.Text.Basic

/-!
# Margins

The margin of a text is the run of spaces and tabs that all its lines begin with. Lines of nothing
but spaces and tabs do not count, and are empty afterwards.

## Main definitions

* `commonStart` : what two texts have in common at the beginning.
* `withoutMargin` : a text without its margin.

## Main results

* `commonStart_isPrefix` : what two texts have in common is a beginning of the first.
-/

namespace DocDecl

/-- The characters that make up a margin. -/
def isMarginChar (c : Char) : Bool := c == ' ' || c == '\t'

/-- What two texts have in common at the beginning. -/
def commonStart : Text → Text → Text
  | c :: t, d :: u => if c = d then c :: commonStart t u else []
  | _, _ => []

theorem commonStart_isPrefix (t u : Text) : commonStart t u <+: t := by
  induction t generalizing u with
  | nil => exact List.nil_prefix
  | cons c t ih =>
    cases u with
    | nil => exact List.nil_prefix
    | cons d u =>
      by_cases h : c = d
      · simpa [commonStart, h] using ih u
      · simp [commonStart, h]

/-- The margin of lines. -/
def marginOf (ls : List Text) : Text :=
  match (ls.filter fun l => !l.all isMarginChar).map (List.takeWhile isMarginChar) with
  | [] => []
  | m :: ms => ms.foldl commonStart m

/-- A text without its margin. -/
def withoutMargin (t : Text) : Text :=
  let ls := Text.lines t
  let width := (marginOf ls).length
  Text.unlines (ls.map fun l => if l.all isMarginChar then [] else l.drop width)

end DocDecl

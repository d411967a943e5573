import DocDecl.Text.Blank

/-!
# Overrides

A block may give its declaration word for word: a line with the override tag, followed by lines of
the declaration. The declaration is read from the block, and cut out of it together with the tag.

## Main definitions

* `overrideOf` : the declaration that a block gives.
* `withoutOverride` : the block without it.
-/

namespace DocDecl

/-- The text before the first at sign or closing mark. -/
def declarationLines : Text → Text
  | [] => []
  | c :: t =>
    if c = '@' ∨ ("*/" : Text).isPrefixOf (c :: t) then [] else c :: declarationLines t

/-- The text without the margins of its lines: a space, a star and the blanks behind it. -/
def dropMargins : Text → Text
  | [] => []
  | c :: t =>
    if c = ' ' ∧ t.head? = some '*' then dropMargins (t.tail.dropWhile isBlank)
    else c :: dropMargins t
termination_by t => t.length
decreasing_by
  · have h1 := (List.dropWhile_suffix (l := t.tail) isBlank).length_le
    have h2 := List.length_tail (l := t)
    simp only [List.length_cons]
    omega
  · simp

/-- The declaration that a block gives word for word, or the empty text. -/
def overrideOf (comment : Text) : Text :=
  match Text.cut? "@tsdeclaration\n * " comment with
  | some (_, t) => Text.trim (dropMargins (declarationLines t))
  | none => []

/-- The block without the override tag and its declaration, as far as the next tag line or the
closing mark. A declaration that neither follows stays. -/
def withoutOverride (comment : Text) : Text :=
  match Text.cut? " * @tsdeclaration\n * " comment with
  | some (before, t) =>
    match Text.findAny? [" */", " * @"] t with
    | some n => before ++ t.drop n
    | none => comment
  | none => comment

end DocDecl

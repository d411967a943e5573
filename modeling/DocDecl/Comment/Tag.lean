import DocDecl.Text.Blank
import DocDecl.Text.Word

/-!
# Tags and their blocks

A tag is an at sign and a name, and ends where no character of an identifier follows. A tag that a
line of a documentation block begins with opens a block of lines, which goes on to the next line
that begins with an at sign.

## Main definitions

* `Tag.afterAt?`, `Tag.afterFirst?` : the text behind a tag.
* `Tag.isIn` : whether a text holds a tag.
* `lineBody` : a line without the frame of the comment.
* `tagBlocks` : the texts of the blocks of a tag.

## Main results

* `Tag.isIn_iff` : a tag is held exactly where the text can be divided before and behind it.
-/

namespace DocDecl

namespace Tag

/-- The text behind the tag that the text begins with, if its name is one of `names`. -/
def afterAt? (names : List Text) (t : Text) : Option Text :=
  names.findSome? fun name => (Text.after? ('@' :: name) t).filter Text.endsWord

/-- The text behind the first tag whose name is one of `names`. -/
def afterFirst? (names : List Text) : Text → Option Text
  | [] => none
  | c :: t => (afterAt? names (c :: t)).or (afterFirst? names t)

/-- Whether the text holds the tag. -/
def isIn (name t : Text) : Bool := (afterFirst? [name] t).isSome

theorem afterAt?_singleton {name t r : Text} :
    afterAt? [name] t = some r ↔ t = '@' :: (name ++ r) ∧ Text.endsWord r = true := by
  have h : afterAt? [name] t = (Text.after? ('@' :: name) t).filter Text.endsWord := by
    simp only [afterAt?, List.findSome?]
    split <;> next h => exact h.symm
  rw [h, Option.filter_eq_some_iff, Text.after?_eq_some_iff]
  rfl

theorem isIn_iff {name t : Text} :
    isIn name t = true ↔
      ∃ before after, t = before ++ '@' :: (name ++ after) ∧ Text.endsWord after = true := by
  induction t with
  | nil =>
    simp [isIn, afterFirst?]
  | cons c t ih =>
    rw [isIn, Option.isSome_iff_exists] at ih ⊢
    constructor
    · rintro ⟨r, hr⟩
      rw [afterFirst?, Option.or_eq_some_iff] at hr
      rcases hr with hr | ⟨_, hr⟩
      · obtain ⟨ht, hw⟩ := afterAt?_singleton.1 hr
        exact ⟨[], r, ht, hw⟩
      · obtain ⟨before, after, ht, hw⟩ := ih.1 ⟨r, hr⟩
        exact ⟨c :: before, after, by rw [ht, List.cons_append], hw⟩
    · rintro ⟨before, after, ht, hw⟩
      cases before with
      | nil =>
        exact ⟨after, by rw [afterFirst?, afterAt?_singleton.2 ⟨ht, hw⟩, Option.some_or]⟩
      | cons d before =>
        obtain ⟨r, hr⟩ := ih.2 ⟨before, after, (List.cons.inj ht).2, hw⟩
        cases h : afterAt? [name] (c :: t) with
        | none => exact ⟨r, by rw [afterFirst?, h, Option.none_or, hr]⟩
        | some s => exact ⟨s, by rw [afterFirst?, h, Option.some_or]⟩

end Tag

/-! ### Blocks of lines -/

/-- A line of a documentation block without the opening mark, the margin star and the closing mark,
and without surrounding blanks. -/
def lineBody (line : Text) : Text :=
  let body := Text.trim line
  let body :=
    if ("/**" : Text).isPrefixOf body then body.drop 3
    else if ("*" : Text).isPrefixOf body ∧ ¬("*/" : Text).isPrefixOf body then body.drop 1
    else body
  Text.trim (if ("*/" : Text).isSuffixOf body then body.dropLast.dropLast else body)

/-- The lines of the blocks that a tag opens. Empty lines are left out. -/
def blocksOfLines (name : Text) : List Text → List (List Text)
  | [] => []
  | b :: bs =>
    if (Tag.afterAt? [name] b).isSome then
      (b :: (bs.takeWhile (·.head? ≠ some '@')).filter (fun l => !l.isEmpty)) ::
        blocksOfLines name bs
    else blocksOfLines name bs

/-- The texts of the blocks that a tag opens, in order. The lines of a block are joined so that they
keep the margin of a documentation block. -/
def tagBlocks (comment name : Text) : List Text :=
  (blocksOfLines name ((Text.lines comment).map lineBody)).map (Text.join "\n * ")

end DocDecl

import DocDecl.Declaration.Module
import DocDecl.Parameter.Documented
import DocDecl.Proofs.Comment.TypedTag
import DocDecl.Proofs.LineEnds.Code

/-!
# Documentation blocks and line ends

A block is read line by line, and every line is trimmed. So the tags, the cleaned comment and all
that is read off the tags are the same where the lines of the block end with carriage returns.

## Main results

* `afterFirst?_dosLines`, `isIn_dosLines` : tags.
* `tagBlocks_dosLines` : the blocks of a tag, and with them parameters, properties and values.
* `cleanComment_dosLines` : the comment as it is printed.
* `returnType_dosLines`, `fieldType_dosLines` : the types of tags.
-/

namespace DocDecl

open Text

variable {p t : Text} {c : Char} {names : List Text}

/-! ### Tags -/

theorem endsWord_dosLines (t : Text) : endsWord (dosLines t) = endsWord t := by
  have key (t : Text) : endsWord t = (t.head?.map fun c => !isNameChar c).getD true := by
    cases t <;> rfl
  rw [key, key, map_head?_dosLines (by decide)]

theorem afterAt?_dosLines (hn : ∀ name ∈ names, ∀ c ∈ name, isBreak c = false) (t : Text) :
    Tag.afterAt? names (dosLines t) = (Tag.afterAt? names t).map dosLines := by
  induction names with
  | nil => rfl
  | cons name names ih =>
    obtain ⟨hname, hn⟩ := List.forall_mem_cons.1 hn
    rw [afterAt?_cons, afterAt?_cons, ih hn,
      after?_dosLines (List.forall_mem_cons.2 ⟨by decide, hname⟩)]
    cases after? ('@' :: name) t with
    | none => rfl
    | some r =>
      simp only [Option.map_some, Option.filter_some, endsWord_dosLines]
      split_ifs <;> rfl

theorem afterFirst?_dosLines (hn : ∀ name ∈ names, ∀ c ∈ name, isBreak c = false) (t : Text) :
    Tag.afterFirst? names (dosLines t) = (Tag.afterFirst? names t).map dosLines := by
  have hbreak {c : Char} (hc : isBreak c = true) (t : Text) :
      Tag.afterAt? names (c :: t) = none := by
    refine afterAt?_cons_of_ne ?_ t
    rintro rfl
    simp [isBreak] at hc
  induction t using Text.feed_induction with
  | nil => rfl
  | feed t ih =>
    rw [dosLines_feed, Tag.afterFirst?, Tag.afterFirst?, Tag.afterFirst?, hbreak rfl, hbreak rfl,
      hbreak rfl, ih]
    rfl
  | cons c t hc ih =>
    have hat := afterAt?_dosLines hn (c :: t)
    rw [dosLines_cons hc] at hat ⊢
    rw [Tag.afterFirst?, Tag.afterFirst?, hat, ih]
    cases Tag.afterAt? names (c :: t) <;> rfl

theorem isIn_dosLines {name : Text} (hn : ∀ c ∈ name, isBreak c = false) (t : Text) :
    Tag.isIn name (dosLines t) = Tag.isIn name t := by
  rw [Tag.isIn, afterFirst?_dosLines (List.forall_mem_singleton.2 hn), Option.isSome_map, Tag.isIn]

/-! ### Lines -/

theorem trim_concat_return (l : Text) : trim (l ++ ['\r']) = trim l := trim_append_blanks rfl l

theorem lineBody_concat_return (l : Text) : lineBody (l ++ ['\r']) = lineBody l := by
  rw [lineBody, trim_concat_return, lineBody]

/-- The blocks of a tag are the same. -/
theorem tagBlocks_dosLines (comment name : Text) :
    tagBlocks (dosLines comment) name = tagBlocks comment name := by
  rw [tagBlocks, map_lines_dosLines lineBody_concat_return, tagBlocks]

theorem documentedFields_dosLines (comment tag : Text) :
    documentedFields (dosLines comment) tag = documentedFields comment tag := by
  rw [documentedFields, blockFields, tagBlocks_dosLines, documentedFields, blockFields]

theorem parameters_dosLines (comment : Text) :
    parameters (dosLines comment) = parameters comment := documentedFields_dosLines comment _

theorem properties_dosLines (comment : Text) :
    properties (dosLines comment) = properties comment := documentedFields_dosLines comment _

theorem tagValues_dosLines (comment tag : Text) :
    tagValues (dosLines comment) tag = tagValues comment tag := by
  rw [tagValues, tagBlocks_dosLines, tagValues]

theorem fieldType_dosLines (comment : Text) : fieldType (dosLines comment) = fieldType comment := by
  rw [fieldType, writtenFieldType?, tagBlocks_dosLines, fieldType, writtenFieldType?]

/-! ### Types on the rest of a line -/

theorem bracedType?_concat_return (l : Text) : bracedType? (l ++ ['\r']) = bracedType? l := by
  rw [bracedType?, bracedType?, List.dropWhile_append]
  split_ifs with h
  · rw [List.isEmpty_iff.1 h]
    rfl
  · rw [group?_concat (by decide), Option.map_map]
    rfl

theorem bracedType?_firstLine_dosLines (t : Text) :
    bracedType? ((dosLines t).takeWhile (· ≠ '\n')) = bracedType? (t.takeWhile (· ≠ '\n')) := by
  rw [takeWhile_ne_feed_dosLines]
  split_ifs
  · exact bracedType?_concat_return _
  · rw [List.append_nil]

theorem afterReturnTag_dosLines (comment : Text) :
    Tag.afterFirst? ["returns", "return"] (dosLines comment) =
      (Tag.afterFirst? ["returns", "return"] comment).map dosLines :=
  afterFirst?_dosLines (by simp [isBreak]) comment

theorem hasReturnTag_dosLines (comment : Text) :
    hasReturnTag (dosLines comment) = hasReturnTag comment := by
  rw [hasReturnTag, afterReturnTag_dosLines, Option.isSome_map, hasReturnTag]

theorem returnType_dosLines (comment : Text) :
    returnType (dosLines comment) = returnType comment := by
  rw [returnType, writtenReturn?, afterReturnTag_dosLines, returnType, writtenReturn?]
  cases Tag.afterFirst? ["returns", "return"] comment with
  | none => rfl
  | some r =>
    simp only [Option.map_some]
    rw [bracedType?_firstLine_dosLines]

/-! ### Cleaned comments -/

theorem trim_withoutTagType_concat_return (l : Text) :
    trim (withoutTagType (l ++ ['\r'])) = trim (withoutTagType l) := by
  rw [withoutTagType_eq, cutAtType?_concat_blank (by decide), withoutTagType_eq]
  cases cutAtType? l with
  | none => exact trim_concat_return l
  | some q =>
    simp only [Option.map_some, Option.getD_some]
    rw [← List.append_assoc, trim_concat_return]

theorem cleanLine?_concat_return (markers : List Text) (l : Text) :
    cleanLine? markers (l ++ ['\r']) = cleanLine? markers l := by
  have hright : trimRight (l ++ ['\r']) = trimRight l := trimRight_append_blanks rfl
  have hdesc : trim (replaceFirst " @desc" "" (l ++ ['\r'])) =
      trim (replaceFirst " @desc" "" l) := by
    rw [replaceFirst, cut?_concat (by decide) (by simp), replaceFirst]
    cases cut? " @desc" l with
    | none => exact trim_concat_return l
    | some q =>
      simp only [Option.map_some]
      rw [← List.append_assoc, trim_concat_return]
  have hmem {p : Text} (hne : p ≠ []) (hp : '\r' ∉ p) :
      Text.contains p (l ++ ['\r']) = Text.contains p l := contains_concat hne hp l
  rw [cleanLine?, trim_concat_return, hright, hdesc, trim_withoutTagType_concat_return,
    hmem (by decide) (by simp), hmem (by decide) (by simp),
    hmem (by decide) (by simp), cleanLine?]

/-- The comment as it is printed is the same. -/
theorem cleanComment_dosLines (markers : List Text) (comment : Text) :
    cleanComment markers (dosLines comment) = cleanComment markers comment := by
  rw [cleanComment, filterMap_lines_dosLines (cleanLine?_concat_return _), cleanComment]

end DocDecl

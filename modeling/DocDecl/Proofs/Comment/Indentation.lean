import DocDecl.Parameter.Documented
import DocDecl.Proofs.Comment.CleanedLine
import DocDecl.Proofs.Comment.LineBody
import DocDecl.Proofs.LineEnds.Text
import DocDecl.TypeExpr
import Mathlib.Data.List.Forall2

/-!
# Comments with another indentation

A comment is read and cleaned line by line. Most readers trim a line before they look at it, and
what is looked for in a raw line begins with a star or an at sign, so it does not stand in the
blanks in front of the line. Only the mark of a description begins with a blank: it could reach into
the indentation of a line that begins with an at sign, but not where lines begin with a star. So two
comments whose lines differ in their indentation only are read and cleaned alike.

## Main definitions

* `SameButIndent` : lines that differ in the blanks in front of them.
* `IsStarred` : lines that begin with a star or an opening mark, and blank lines.
* `ReadsAlike` : comments that are read and cleaned alike.

## Main results

* `Tag.firstLine_afterFirst?` : a tag is looked for line by line.
* `IsStarred.cleanLine?_trimLeft` : blanks in front of a line do not matter to cleaning.
* `readsAlike_of_sameButIndent` : comments with another indentation.
-/

namespace DocDecl

open Text

variable {markers names : List Text} {c c' gap gap' l l' t : Text}

/-! ### Indentation -/

/-- Two lines that are the same behind the blanks that they begin with. -/
def SameButIndent (l l' : Text) : Prop := trimLeft l = trimLeft l'

instance : DecidableRel SameButIndent := fun _ _ => inferInstanceAs (Decidable (_ = _))

/-- A line that begins, behind blanks, with a star or an opening mark, or that is blank. -/
def IsStarred (l : Text) : Prop :=
  trimLeft l = [] ∨ "*".toList <+: trimLeft l ∨ "/**".toList <+: trimLeft l

instance : DecidablePred IsStarred := fun _ => inferInstanceAs (Decidable (_ ∨ _ ∨ _))

theorem IsStarred.head?_ne (h : IsStarred l) : (trimLeft l).head? ≠ some '@' := by
  intro hat
  obtain ⟨r, hr⟩ := List.head?_eq_some_iff.1 hat
  rw [IsStarred, hr] at h
  rcases h with h | h | h
  · exact List.cons_ne_nil _ _ h
  · exact absurd (List.cons_prefix_cons.1 h).1 (by decide)
  · exact absurd (List.cons_prefix_cons.1 h).1 (by decide)

/-- What does not see the blanks in front of starred lines is the same for lines that differ in
them. -/
theorem map_eq_of_sameButIndent {α : Type} {f : Text → α} {ls ls' : List Text}
    (h : List.Forall₂ SameButIndent ls ls') (hstar : ∀ l ∈ ls, IsStarred l)
    (hf : ∀ l, IsStarred l → f (trimLeft l) = f l) : ls.map f = ls'.map f := by
  induction h with
  | nil => rfl
  | @cons l l' ls ls' hl _ ih =>
    obtain ⟨hhead, hrest⟩ := List.forall_mem_cons.1 hstar
    have hhead' : IsStarred l' := by rwa [IsStarred, ← hl]
    rw [List.map_cons, List.map_cons, ih hrest, ← hf l hhead, hl, hf l' hhead']

/-! ### Tags -/

theorem endsWord_append_feed (l t : Text) : endsWord (l ++ '\n' :: t) = endsWord l := by
  cases l with
  | nil => rw [List.nil_append, endsWord, endsWord]; decide
  | cons c l => rfl

namespace Tag

/-- The name of a tag does not go on in the next line. -/
theorem afterAt?_line (hn : ∀ name ∈ names, name.all isNameChar = true) (l t : Text) :
    afterAt? names (l ++ '\n' :: t) = (afterAt? names l).map (· ++ '\n' :: t) := by
  ext r
  simp only [Option.map_eq_some_iff, afterAt?_eq_some_iff hn]
  constructor
  · rintro ⟨name, hname, hl, hr⟩
    have hfeed : '\n' ∉ '@' :: name := by
      rw [List.mem_cons, not_or]
      exact ⟨by decide, fun h => absurd (List.all_eq_true.1 (hn name hname) _ h) (by decide)⟩
    rw [← List.cons_append] at hl
    obtain ⟨x, rfl⟩ := (prefix_append_cons_iff hfeed).1 (hl ▸ List.prefix_append _ r)
    rw [List.append_assoc, List.append_cancel_left_eq] at hl
    rw [← hl, endsWord_append_feed] at hr
    exact ⟨x, ⟨name, hname, rfl, hr⟩, hl⟩
  · rintro ⟨x, ⟨name, hname, rfl, hx⟩, rfl⟩
    exact ⟨name, hname, by simp, (endsWord_append_feed x t).trans hx⟩

theorem afterFirst?_line (hn : ∀ name ∈ names, name.all isNameChar = true) (l t : Text) :
    afterFirst? names (l ++ '\n' :: t) =
      ((afterFirst? names l).map (· ++ '\n' :: t)).or (afterFirst? names t) := by
  induction l with
  | nil =>
    have hfeed : '\n' ≠ '@' := by decide
    rw [List.nil_append, afterFirst?, afterFirst?, afterAt?_cons_of_ne hfeed]
    rfl
  | cons d l ih =>
    rw [List.cons_append, afterFirst?, ← List.cons_append, afterAt?_line hn, ih, afterFirst?]
    cases afterAt? names (d :: l) <;> rfl

theorem mem_of_mem_afterFirst? (hn : ∀ name ∈ names, name.all isNameChar = true) {r : Text}
    (h : afterFirst? names t = some r) {d : Char} (hd : d ∈ r) : d ∈ t := by
  induction t with
  | nil => simp [afterFirst?] at h
  | cons e t ih =>
    rw [afterFirst?, Option.or_eq_some_iff, afterAt?_eq_some_iff hn] at h
    rcases h with ⟨name, -, ht, -⟩ | ⟨-, h⟩
    · rw [ht]
      exact List.mem_cons_of_mem _ (List.mem_append_right name hd)
    · exact List.mem_cons_of_mem _ (ih h)

/-- A tag is looked for line by line, and what follows it in its line is the same. -/
theorem firstLine_afterFirst? (hn : ∀ name ∈ names, name.all isNameChar = true) (t : Text) :
    (afterFirst? names t).map (List.takeWhile (· ≠ '\n')) =
      (lines t).findSome? (afterFirst? names) := by
  have hone {l r : Text} (hl : '\n' ∉ l) (hr : afterFirst? names l = some r) :
      ∀ d ∈ r, decide (d ≠ '\n') = true := by
    intro d hd
    rw [decide_eq_true_iff]
    rintro rfl
    exact hl (mem_of_mem_afterFirst? hn hr hd)
  induction t using Text.line_induction with
  | last l hl =>
    rw [lines, splitOn_of_not_mem hl, List.findSome?_singleton]
    cases hr : afterFirst? names l with
    | none => rfl
    | some r => rw [Option.map_some, List.takeWhile_eq_self_iff.2 (hone hl hr)]
  | line l t hl ih =>
    rw [lines_line hl, List.findSome?_cons, afterFirst?_line hn]
    cases hr : afterFirst? names l with
    | none => rw [Option.map_none, Option.none_or, ih]
    | some r =>
      rw [Option.map_some, Option.some_or, Option.map_some,
        List.takeWhile_append_of_pos (hone hl hr)]
      simp

theorem afterFirst?_blanks_append (hgap : gap.all isBlank = true) (t : Text) :
    afterFirst? names (gap ++ t) = afterFirst? names t := by
  induction gap with
  | nil => rfl
  | cons d gap ih =>
    rw [List.all_cons, Bool.and_eq_true] at hgap
    have hd : d ≠ '@' := by
      rintro rfl
      exact absurd hgap.1 (by decide)
    rw [List.cons_append, afterFirst?, afterAt?_cons_of_ne hd, ih hgap.2, Option.none_or]

end Tag

/-! ### Types -/

/-- The return type is read from the first line with a return tag. -/
theorem returnType_congr
    (h : (lines c).findSome? (Tag.afterFirst? ["returns", "return"]) =
      (lines c').findSome? (Tag.afterFirst? ["returns", "return"])) :
    returnType c = returnType c' := by
  have hn : ∀ name ∈ (["returns", "return"] : List Text), name.all isNameChar = true := by
    decide +kernel
  rw [← Tag.firstLine_afterFirst? hn, ← Tag.firstLine_afterFirst? hn] at h
  rw [returnType, writtenReturn?, returnType, writtenReturn?]
  cases hc : Tag.afterFirst? ["returns", "return"] c with
  | none =>
    rw [hc, Option.map_none] at h
    rw [Option.map_eq_none_iff.1 h.symm]
  | some r =>
    rw [hc, Option.map_some] at h
    obtain ⟨r', hc', hr⟩ := Option.map_eq_some_iff.1 h.symm
    simp only [hc', hr]

/-! ### Cleaning -/

/-- The mark of a description does not stand in the blanks in front of a text that does not begin
with an at sign. -/
theorem replaceFirst_desc_blanks_append (hgap : gap.all isBlank = true)
    (ht : t.head? ≠ some '@') :
    replaceFirst " @desc" "" (gap ++ t) = gap ++ replaceFirst " @desc" "" t := by
  have hcut : cut? " @desc" (gap ++ t) =
      (cut? " @desc" t).map fun q => (gap ++ q.1, q.2) := by
    induction gap with
    | nil => simp
    | cons d gap ih =>
      rw [List.all_cons, Bool.and_eq_true] at hgap
      have hstands : ¬" @desc".toList <+: d :: (gap ++ t) := by
        intro h
        have hat := (List.cons_prefix_cons.1 h).2
        cases gap with
        | nil =>
          obtain ⟨r, hr⟩ := hat
          exact ht (by rw [← List.nil_append t, ← hr]; rfl)
        | cons e gap =>
          rw [List.all_cons, Bool.and_eq_true] at hgap
          rw [← (List.cons_prefix_cons.1 hat).1] at hgap
          exact absurd hgap.2.1 (by decide)
      rw [List.cons_append, cut?_cons_of_not_isPrefix hstands, ih hgap.2, Option.map_map]
      rfl
  rw [replaceFirst, hcut, replaceFirst]
  cases cut? " @desc" t with
  | none => rfl
  | some q => simp

/-- What is taken from a line is taken from behind the blanks in front of it. -/
theorem trim_lineContent_blanks_append (hgap : gap.all isBlank = true)
    (ht : t.head? ≠ some '@') : trim (lineContent (gap ++ t)) = trim (lineContent t) := by
  have hcontains {p : Text} (hp : ∀ d, p.head? = some d → isBlank d = false) :
      Text.contains p (gap ++ t) = Text.contains p t := by
    rw [Bool.eq_iff_iff, contains_iff_isInfix, contains_iff_isInfix,
      infix_blanks_append_iff hp hgap]
  have htype : trim (withoutTagType (gap ++ t)) = trim (withoutTagType t) := by
    rw [withoutTagType_eq, withoutTagType_eq, cutAtType?_blanks_append hgap]
    cases hcut : cutAtType? t with
    | none => exact trim_blanks_append hgap t
    | some q =>
      obtain ⟨-, -, -, a, w, hw, hright⟩ := exists_type_append hcut
      have hne : trimRight q.1 ≠ [] := by
        obtain ⟨u, rfl, -⟩ := exists_eq_cons_of_mem_typedTags hw
        simp [hright]
      simp only [Option.map_some, Option.getD_some]
      rw [trimRight_append, if_neg hne, List.append_assoc, trim_blanks_append hgap]
  rw [lineContent, lineContent, hcontains (by simp [isBlank]), hcontains (by simp [isBlank]),
    hcontains (by simp [isBlank])]
  split_ifs
  · exact htype
  · rw [replaceFirst_desc_blanks_append hgap ht, trim_blanks_append hgap]
  · exact trim_blanks_append hgap t

/-- Blanks in front of a starred line do not matter to cleaning, if the markers begin with none. -/
theorem IsStarred.cleanLine?_trimLeft
    (hm : ∀ m ∈ markers, ∀ d, m.head? = some d → isBlank d = false) (h : IsStarred l) :
    cleanLine? markers (trimLeft l) = cleanLine? markers l := by
  obtain ⟨gap, hgap, hl⟩ := exists_eq_append_trimLeft l
  obtain ⟨gap', hgap', hright⟩ := exists_trimRight_eq l
  have htrim : trim (trimLeft l) = trim l := by rw [trim, trimLeft_trimLeft, trim]
  have hcontent : trim (lineContent (trimLeft l)) = trim (lineContent l) := by
    conv_rhs => rw [hl]
    exact (trim_lineContent_blanks_append hgap h.head?_ne).symm
  have hdrop : (markers.any fun m => Text.contains m (trimRight (trimLeft l) ++ " ")) =
      markers.any fun m => Text.contains m (trimRight l ++ " ") := by
    rw [Bool.eq_iff_iff, List.any_eq_true, List.any_eq_true]
    refine exists_congr fun m => and_congr_right fun hmem => ?_
    rw [contains_iff_isInfix, contains_iff_isInfix, hright, List.append_assoc,
      infix_blanks_append_iff (hm m hmem) hgap', trim]
  rw [cleanLine?_eq, cleanLine?_eq, htrim, hcontent, hdrop]

/-! ### Comments -/

/-- Two comments that are read and cleaned alike. -/
structure ReadsAlike (c c' : Text) : Prop where
  /-- Every tag has the same blocks. -/
  tagBlocks_eq : ∀ tag, tagBlocks c tag = tagBlocks c' tag
  /-- The same parameters are documented. -/
  parameters_eq : parameters c = parameters c'
  /-- The same properties are documented. -/
  properties_eq : properties c = properties c'
  /-- The return tags give the same type. -/
  returnType_eq : returnType c = returnType c'
  /-- The type tags give the same type. -/
  fieldType_eq : fieldType c = fieldType c'
  /-- The comments are cleaned alike, whatever tags are dropped besides. -/
  cleanComment_eq : ∀ markers : List Text, (∀ m ∈ markers, "* @".toList <+: m) →
    cleanComment markers c = cleanComment markers c'

theorem head?_of_mem_markers (hm : ∀ m ∈ markers, "* @".toList <+: m) :
    ∀ m ∈ droppedMarkers ++ markers, ∀ d, m.head? = some d → isBlank d = false := by
  intro m hmem d hd
  have hstar : "* @".toList <+: m := by
    rcases List.mem_append.1 hmem with hmem | hmem
    · have hall : ∀ m ∈ droppedMarkers, "* @".toList <+: m := by decide
      exact hall m hmem
    · exact hm m hmem
  obtain ⟨r, rfl⟩ := hstar
  obtain rfl : '*' = d := Option.some.inj hd
  rfl

/-- Comments whose lines differ in their indentation only are read and cleaned alike, if every line
that is not blank begins with a star or an opening mark. -/
theorem readsAlike_of_sameButIndent (hsame : List.Forall₂ SameButIndent (lines c) (lines c'))
    (hstar : ∀ l ∈ lines c, IsStarred l) : ReadsAlike c c' := by
  have htags (tag : Text) : tagBlocks c tag = tagBlocks c' tag := by
    rw [tagBlocks, tagBlocks, map_eq_of_sameButIndent hsame hstar]
    intro l _
    rw [lineBody_eq, trim, trimLeft_trimLeft, ← trim, ← lineBody_eq]
  have hfields (tag : Text) : documentedFields c tag = documentedFields c' tag := by
    rw [documentedFields, blockFields, htags, documentedFields, blockFields]
  refine ⟨htags, hfields "param", hfields "property", ?_, ?_, ?_⟩
  · have hafter : (lines c).map (Tag.afterFirst? ["returns", "return"]) =
        (lines c').map (Tag.afterFirst? ["returns", "return"]) := by
      refine map_eq_of_sameButIndent hsame hstar fun l _ => ?_
      obtain ⟨gap, hgap, hl⟩ := exists_eq_append_trimLeft l
      conv_rhs => rw [hl, Tag.afterFirst?_blanks_append hgap]
    have hfirst (ls : List Text) : ls.findSome? (Tag.afterFirst? ["returns", "return"]) =
        (ls.map (Tag.afterFirst? ["returns", "return"])).findSome? id := by
      rw [List.findSome?_map, Function.id_comp]
    exact returnType_congr (by rw [hfirst, hfirst, hafter])
  · rw [fieldType, writtenFieldType?, htags, fieldType, writtenFieldType?]
  · intro markers hm
    have hlines := map_eq_of_sameButIndent hsame hstar
      fun l hl => hl.cleanLine?_trimLeft (head?_of_mem_markers hm)
    have hkept (ls : List Text) : ls.filterMap (cleanLine? (droppedMarkers ++ markers)) =
        (ls.map (cleanLine? (droppedMarkers ++ markers))).filterMap id := by
      rw [List.filterMap_map, Function.id_comp]
    rw [cleanComment, cleanComment, hkept, hkept, hlines]

/-- Tabs in front of the lines of a comment. -/
theorem readsAlike_tabs :
    ReadsAlike "/**\n * @desc Adds.\n * @param \x7bnumber\x7d x\n * @returns \x7bnumber\x7d\n */"
      "/**\n\t* @desc Adds.\n* @param \x7bnumber\x7d x\n \t * @returns \x7bnumber\x7d\n\t */" :=
  readsAlike_of_sameButIndent (by decide +kernel) (by decide +kernel)

/-- In front of an at sign a blank does matter: it may make the mark of a description. -/
example : SameButIndent " @desc * @desc x" "\t@desc * @desc x" ∧
    cleanLine? [] " @desc * @desc x" ≠ cleanLine? [] "\t@desc * @desc x" := by
  decide +kernel

end DocDecl

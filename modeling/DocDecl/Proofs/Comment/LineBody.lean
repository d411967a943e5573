import DocDecl.Comment.Tag
import DocDecl.Proofs.Text.Trim

/-!
# The body of a line

The frame of a comment stands around the body of a line: a margin in front of it, and perhaps the
closing mark behind it. What stands in front of a character that is no blank and in neither mark is
not seen by what is done behind it.

## Main definitions

* `IsMargin` : what may stand in front of a line.
* `withoutClose` : a body without the closing mark.

## Main results

* `exists_withoutClose` : the closing mark is taken off behind a given character.
* `lineBody_line`, `lineBody_margin` : the body of a line with a margin.
-/

namespace DocDecl

open Text

variable {c : Char} {m t w : Text}

/-! ### The closing mark -/

/-- A body without the closing mark and without surrounding blanks. -/
def withoutClose (body : Text) : Text :=
  trim (if ("*/" : Text).isSuffixOf body then body.dropLast.dropLast else body)

theorem withoutClose_of_not_isSuffix (h : ¬"*/".toList <:+ w) : withoutClose w = trim w := by
  rw [withoutClose, if_neg (by rwa [List.isSuffixOf_iff_suffix])]

theorem withoutClose_append (w : Text) : withoutClose (w ++ "*/") = trim w := by
  have hdrop : (w ++ "*/".toList).dropLast.dropLast = w := by
    have hcut : w ++ "*/".toList = (w ++ ['*']) ++ ['/'] := by simp
    rw [hcut, List.dropLast_concat, List.dropLast_concat]
  rw [withoutClose, if_pos (List.isSuffixOf_iff_suffix.2 (List.suffix_append w _)), hdrop]

/-- Without a closing mark nothing is taken off, whatever stands in front. -/
theorem withoutClose_append_cons (hc : isBlank c = false) (hmark : c ∉ "*/".toList)
    (h : ¬"*/".toList <:+ w) (p : Text) :
    withoutClose (p ++ c :: w) = trimLeft p ++ c :: trimRight w := by
  rw [withoutClose_of_not_isSuffix, trim_append_cons hc]
  intro hall
  rcases List.suffix_or_suffix_of_suffix hall (List.suffix_append p (c :: w)) with hw | hw
  · rcases List.suffix_cons_iff.1 hw with heq | hw
    · exact hmark (heq ▸ List.mem_cons_self)
    · exact h hw
  · exact hmark (hw.subset List.mem_cons_self)

/-- The closing mark is taken off behind a character that is in no mark. -/
theorem exists_withoutClose (hc : isBlank c = false) (hmark : c ∉ "*/".toList) (w : Text) :
    ∃ z, ∀ p, withoutClose (p ++ c :: w) = trimLeft p ++ c :: z := by
  by_cases hw : "*/".toList <:+ w
  · obtain ⟨w, rfl⟩ := hw
    refine ⟨trimRight w, fun p => ?_⟩
    have hcut : p ++ c :: (w ++ "*/") = (p ++ c :: w) ++ "*/" := by simp
    rw [hcut, withoutClose_append, trim_append_cons hc]
  · exact ⟨trimRight w, withoutClose_append_cons hc hmark hw⟩

/-! ### Margins -/

/-- What may stand in front of a line: an opening mark or a star, or neither, between blanks. -/
def IsMargin (m : Text) : Prop :=
  ∃ gap gap' : Text, ∃ mark ∈ ["", "*", "/**"].map String.toList,
    gap.all isBlank = true ∧ gap'.all isBlank = true ∧ m = gap ++ (mark ++ gap')

/-- A line without blanks in front, without its opening mark or star. -/
def withoutMark (line : Text) : Text :=
  if ("/**" : Text).isPrefixOf line then line.drop 3
  else if ("*" : Text).isPrefixOf line ∧ ¬("*/" : Text).isPrefixOf line then line.drop 1
  else line

theorem lineBody_eq (l : Text) : lineBody l = withoutClose (withoutMark (trim l)) := rfl

theorem withoutMark_star (h : ∀ c ∈ t.head?, c ≠ '/') : withoutMark ('*' :: t) = t := by
  have hclose : ("*/" : Text).isPrefixOf ('*' :: t) = false := by
    cases t with
    | nil => rfl
    | cons c t =>
      have hc : ('/' == c) = false := beq_false_of_ne (Ne.symm (h c rfl))
      simp [List.isPrefixOf, hc]
  rw [withoutMark, hclose]
  simp [List.isPrefixOf]

/-- A line that begins with a star. -/
theorem lineBody_star (t : Text) : lineBody (" * " ++ t) = withoutClose (trimRight (' ' :: t)) := by
  have htrim : trim (" * " ++ t) = '*' :: trimRight (' ' :: t) :=
    trim_append_cons (c := '*') (by decide) [' '] (' ' :: t)
  have hblank : isBlank ' ' = true := rfl
  rw [lineBody_eq, htrim, withoutMark_star]
  rw [trimRight]
  split
  · simp [hblank]
  · simp

/-- A line behind a star, in which the comment does not end. -/
theorem lineBody_line (h : ¬"*/".toList <:+: t) : lineBody (" * " ++ t) = trim t := by
  have hclose : ¬"*/".toList <:+: ' ' :: t := by
    rw [List.infix_cons_iff, not_or]
    exact ⟨fun hprefix => absurd (List.cons_prefix_cons.1 hprefix).1 (by decide), h⟩
  have hsuffix : ¬"*/".toList <:+ trimRight (' ' :: t) := fun h =>
    hclose (h.isInfix.trans (trimRight_isPrefix _).isInfix)
  rw [lineBody_star, withoutClose_of_not_isSuffix hsuffix, trim_trimRight]
  exact trim_blanks_append (s := [' ']) rfl t

/-- A line with a tag behind its margin. -/
theorem lineBody_margin (hm : IsMargin m) (t : Text) :
    ∃ gap : Text, gap.all isBlank = true ∧
      lineBody (m ++ '@' :: t) = withoutClose (gap ++ '@' :: trimRight t) := by
  obtain ⟨gap, gap', mark, hmark, hgap, hgap', rfl⟩ := hm
  have htrim : trim (gap ++ (mark ++ gap') ++ '@' :: t) =
      trimLeft (mark ++ gap') ++ '@' :: trimRight t := by
    rw [List.append_assoc, trim_blanks_append hgap, trim_append_cons (by decide)]
  rw [lineBody_eq, htrim]
  simp only [List.map_cons, List.map_nil, List.mem_cons, List.not_mem_nil, or_false] at hmark
  rcases hmark with rfl | rfl | rfl
  · have hnil : trimLeft gap' = [] := List.dropWhile_eq_nil_iff.2 (List.all_eq_true.1 hgap')
    refine ⟨[], rfl, ?_⟩
    have hempty : "".toList ++ gap' = gap' := rfl
    rw [hempty, hnil]
    rfl
  · refine ⟨gap', hgap', congrArg withoutClose (withoutMark_star ?_)⟩
    cases gap' with
    | nil => simp
    | cons d gap' =>
      rw [List.all_cons, Bool.and_eq_true] at hgap'
      have hd : d ≠ '/' := fun h => absurd (h ▸ hgap'.1) (by decide)
      simpa using hd
  · exact ⟨gap', hgap', rfl⟩

end DocDecl

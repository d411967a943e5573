import DocDecl.Proofs.Text.Search
import DocDecl.Text.Blank
import Mathlib.Data.List.DropRight

/-!
# What trimming leaves

A text is its trimmed text between blanks, and blanks around a text do not matter to trimming. So
what is trimmed once stays, and a pattern that neither begins nor ends with a blank stands in a text
if it stands in the trimmed one.

## Main results

* `Text.trim_trim` : what is trimmed stays.
* `Text.exists_eq_append_trim` : a text is its trimmed text between blanks.
* `Text.trim_append_of_eq`, `Text.getLast?_trim` : texts with no blank at an end.
* `Text.infix_trim_iff` : patterns in a trimmed text.
-/

namespace DocDecl

namespace Text

variable {p s t : Text} {c : Char}

/-! ### Blanks around a text -/

theorem trimLeft_append_blanks (h : s.all isBlank = true) (t : Text) :
    trimLeft (s ++ t) = trimLeft t :=
  List.dropWhile_append_of_pos (List.all_eq_true.1 h)

theorem mem_of_mem_trimLeft (h : c ∈ trimLeft t) : c ∈ t :=
  (List.dropWhile_sublist isBlank).subset h

theorem trimLeft_trimLeft (t : Text) : trimLeft (trimLeft t) = trimLeft t :=
  List.dropWhile_idempotent isBlank t

theorem trim_blanks_append (h : s.all isBlank = true) (t : Text) : trim (s ++ t) = trim t := by
  rw [trim, trim, trimLeft_append_blanks h]

theorem trim_append_blanks (h : s.all isBlank = true) (t : Text) : trim (t ++ s) = trim t := by
  rw [trim, trim, trimLeft, trimLeft, List.dropWhile_append]
  split_ifs with ht
  · rw [List.isEmpty_iff.1 ht, trimRight, trimRight_eq_nil_iff, List.all_eq_true]
    exact fun c hc => List.all_eq_true.1 h c ((List.dropWhile_sublist _).subset hc)
  · exact trimRight_append_blanks h

theorem trimLeft_concat_blank (h : isBlank c = true) (t : Text) :
    trimLeft (t ++ [c]) = if trimLeft t = [] then [] else trimLeft t ++ [c] := by
  rw [trimLeft, List.dropWhile_append, trimLeft]
  simp only [List.isEmpty_iff]
  split_ifs
  · exact List.dropWhile_cons_of_pos h
  · rfl

theorem trimRight_append (s t : Text) :
    trimRight (s ++ t) = if trimRight t = [] then trimRight s else s ++ trimRight t := by
  split_ifs with h
  · exact trimRight_append_blanks (trimRight_eq_nil_iff.1 h)
  · induction s with
    | nil => rfl
    | cons c s ih =>
      rw [List.cons_append, trimRight, ih, List.cons_append]
      split
      · next hnil => exact absurd (List.append_eq_nil_iff.1 hnil).2 h
      · rfl

theorem exists_eq_trimRight_append (t : Text) :
    ∃ gap : Text, gap.all isBlank = true ∧ t = trimRight t ++ gap := by
  induction t with
  | nil => exact ⟨[], rfl, rfl⟩
  | cons c t ih =>
    obtain ⟨gap, hgap, ht⟩ := ih
    rw [trimRight]
    cases hr : trimRight t with
    | nil =>
      rw [hr, List.nil_append] at ht
      by_cases hc : isBlank c = true
      · exact ⟨c :: t, by simp [hc, ht ▸ hgap], by simp [hc]⟩
      · exact ⟨t, ht ▸ hgap, by simp [hc]⟩
    | cons d r =>
      rw [hr] at ht
      exact ⟨gap, hgap, congrArg (c :: ·) ht⟩

theorem exists_eq_append_trimLeft (t : Text) :
    ∃ gap : Text, gap.all isBlank = true ∧ t = gap ++ trimLeft t :=
  ⟨t.takeWhile isBlank, List.all_takeWhile, List.takeWhile_append_dropWhile.symm⟩

/-- A text is its trimmed text between blanks. -/
theorem exists_eq_append_trim (t : Text) :
    ∃ gap gap' : Text, gap.all isBlank = true ∧ gap'.all isBlank = true ∧
      t = gap ++ (trim t ++ gap') := by
  obtain ⟨gap, hgap, ht⟩ := exists_eq_append_trimLeft t
  obtain ⟨gap', hgap', ht'⟩ := exists_eq_trimRight_append (trimLeft t)
  refine ⟨gap, gap', hgap, hgap', ?_⟩
  rw [trim, ← ht', ← ht]

theorem trim_isInfix (t : Text) : trim t <:+: t := by
  obtain ⟨gap, gap', -, -, ht⟩ := exists_eq_append_trim t
  exact ⟨gap, gap', by rw [List.append_assoc, ← ht]⟩

theorem mem_of_mem_trim (h : c ∈ trim t) : c ∈ t := (trim_isInfix t).subset h

theorem trimRight_trimRight (t : Text) : trimRight (trimRight t) = trimRight t := by
  obtain ⟨gap, hgap, ht⟩ := exists_eq_trimRight_append t
  conv_rhs => rw [ht, trimRight_append_blanks hgap]

theorem trim_trimRight (t : Text) : trim (trimRight t) = trim t := by
  obtain ⟨gap, hgap, ht⟩ := exists_eq_trimRight_append t
  conv_rhs => rw [ht, trim_append_blanks hgap]

theorem trimRight_isPrefix (t : Text) : trimRight t <+: t := by
  obtain ⟨gap, -, ht⟩ := exists_eq_trimRight_append t
  exact ⟨gap, ht.symm⟩

theorem trim_prefix_trimLeft (t : Text) : trim t <+: trimLeft t :=
  trimRight_isPrefix (trimLeft t)

/-- What is trimmed stays. -/
theorem trim_trim (t : Text) : trim (trim t) = trim t := by
  obtain ⟨gap, gap', hgap, hgap', ht⟩ := exists_eq_append_trim t
  have h := congrArg trim ht
  rw [trim_blanks_append hgap, trim_append_blanks hgap'] at h
  exact h.symm

/-- Trimmed at the right, a text is its trimmed text behind blanks. -/
theorem exists_trimRight_eq (t : Text) :
    ∃ gap : Text, gap.all isBlank = true ∧ trimRight t = gap ++ trim t := by
  obtain ⟨gap, hgap, ht⟩ := exists_eq_append_trimLeft t
  by_cases hnil : trimRight (trimLeft t) = []
  · refine ⟨[], rfl, ?_⟩
    have hblank : t.all isBlank = true := by
      rw [ht, List.all_append, hgap, trimRight_eq_nil_iff.1 hnil]
      rfl
    rw [trimRight_eq_nil_iff.2 hblank, trim, hnil]
    rfl
  · refine ⟨gap, hgap, ?_⟩
    conv_lhs => rw [ht]
    rw [trimRight_append, if_neg hnil, trim]

/-! ### Texts with no blank at an end -/

theorem trimLeft_append_cons (hc : isBlank c = false) (w r : Text) :
    trimLeft (w ++ c :: r) = trimLeft w ++ c :: r := by
  have hcons : trimLeft (c :: r) = c :: r := List.dropWhile_cons_of_neg (by simp [hc])
  rw [trimLeft, List.dropWhile_append, ← trimLeft, ← trimLeft, hcons]
  split_ifs with hw
  · rw [List.isEmpty_iff.1 hw, List.nil_append]
  · rfl

theorem trimRight_append_singleton (hc : isBlank c = false) (w : Text) :
    trimRight (w ++ [c]) = w ++ [c] := by
  have hsingle : trimRight [c] = [c] := by simp [trimRight, hc]
  rw [trimRight_append, hsingle, if_neg (List.cons_ne_nil c [])]

/-- What follows a text without blanks at its end is trimmed apart from it. -/
theorem trimRight_append_of_eq (hs : trimRight s = s) (t : Text) :
    trimRight (s ++ t) = s ++ trimRight t := by
  rw [trimRight_append]
  split_ifs with h
  · rw [h, hs, List.append_nil]
  · rfl

theorem trimRight_append_cons (hc : isBlank c = false) (w r : Text) :
    trimRight (w ++ c :: r) = w ++ c :: trimRight r := by
  rw [← List.singleton_append, ← List.append_assoc,
    trimRight_append_of_eq (trimRight_append_singleton hc w), List.append_assoc]
  rfl

/-- A character that is no blank parts the blanks in front of it from those behind it. -/
theorem trim_append_cons (hc : isBlank c = false) (w r : Text) :
    trim (w ++ c :: r) = trimLeft w ++ c :: trimRight r := by
  rw [trim, trimLeft_append_cons hc, trimRight_append_cons hc]

theorem getLast?_trim (hc : isBlank c = false) {gap : Text} (hgap : gap.all isBlank = true)
    (w : Text) : (trim (w ++ c :: gap)).getLast? = some c := by
  rw [trim_append_cons hc, trimRight_eq_nil_iff.2 hgap, List.getLast?_concat]

theorem trim_eq_self_iff : trim t = t ↔ trimLeft t = t ∧ trimRight t = t := by
  constructor
  · intro h
    have hleft : trimLeft t = t := by
      have hle := length_trimRight_le (trimLeft t)
      rw [← trim, h] at hle
      exact (List.dropWhile_suffix isBlank).eq_of_length
        (Nat.le_antisymm (length_trimLeft_le t) hle)
    exact ⟨hleft, by rw [← hleft, ← trim, h, hleft]⟩
  · rintro ⟨hleft, hright⟩
    rw [trim, hleft, hright]

theorem trim_append_of_eq (hs : trim s = s) (hne : s ≠ []) (t : Text) :
    trim (s ++ t) = s ++ trimRight t := by
  obtain ⟨hleft, hright⟩ := trim_eq_self_iff.1 hs
  rw [trim, trimLeft, List.dropWhile_append, ← trimLeft, hleft, if_neg (by simpa using hne),
    trimRight_append_of_eq hright]

/-- Behind a text that is not blank, only blanks at the end are left out. -/
theorem exists_trim_append (hs : trim s ≠ []) (t : Text) :
    ∃ gap : Text, gap.all isBlank = true ∧ trim (s ++ t) = trim s ++ trimRight (gap ++ t) := by
  obtain ⟨gap, gap', hgap, hgap', hs'⟩ := exists_eq_append_trim s
  refine ⟨gap', hgap', ?_⟩
  conv_lhs => rw [hs', List.append_assoc, List.append_assoc, trim_blanks_append hgap]
  exact trim_append_of_eq (trim_trim s) hs _

theorem trim_append_ne_nil (hs : trim s ≠ []) (t : Text) : trim (s ++ t) ≠ [] := by
  obtain ⟨gap, -, h⟩ := exists_trim_append hs t
  simp [h, hs]

theorem trim_of_no_blank (h : ∀ c ∈ t, isBlank c = false) : trim t = t := by
  refine trim_eq_self_iff.2 ⟨?_, ?_⟩
  · cases t with
    | nil => rfl
    | cons c t => exact List.dropWhile_cons_of_neg (by simp [h c List.mem_cons_self])
  · induction t using List.reverseRecOn with
    | nil => rfl
    | append_singleton t c =>
      exact trimRight_append_singleton (h c (List.mem_append_right t List.mem_cons_self)) t

/-! ### Patterns -/

/-- A pattern does not begin in a text without its first character. -/
theorem infix_append_iff_of_head? (hp : ∀ c, p.head? = some c → c ∉ s) :
    p <:+: s ++ t ↔ p <:+: t := by
  induction s with
  | nil => rfl
  | cons c s ih =>
    rw [List.cons_append, List.infix_cons_iff,
      ih fun d hd hmem => hp d hd (List.mem_cons_of_mem c hmem), or_iff_right_iff_imp]
    intro h
    cases p with
    | nil => exact List.nil_infix
    | cons d p =>
      have hdc : d = c := (List.cons_prefix_cons.1 h).1
      exact absurd (hdc ▸ List.mem_cons_self) (hp d rfl)

/-- A pattern that begins with no blank does not stand in the blanks in front of a text. -/
theorem infix_blanks_append_iff (hp : ∀ c, p.head? = some c → isBlank c = false)
    (hs : s.all isBlank = true) : p <:+: s ++ t ↔ p <:+: t := by
  refine infix_append_iff_of_head? fun c hc hmem => ?_
  have hblank := List.all_eq_true.1 hs c hmem
  rw [hp c hc] at hblank
  exact Bool.false_ne_true hblank

/-- A pattern that ends with no blank does not stand in the blanks behind a text. -/
theorem infix_append_blanks_iff (hp : ∀ c, p.getLast? = some c → isBlank c = false)
    (hs : s.all isBlank = true) : p <:+: t ++ s ↔ p <:+: t := by
  have hhead : ∀ c, p.reverse.head? = some c → isBlank c = false := by
    intro c hc
    rw [List.head?_reverse] at hc
    exact hp c hc
  rw [← List.reverse_infix, List.reverse_append,
    infix_blanks_append_iff hhead (by rwa [List.all_reverse]), List.reverse_infix]

/-- A pattern with no blank at its ends stands in a text if it stands in the trimmed one. -/
theorem infix_trim_iff (hhead : ∀ c, p.head? = some c → isBlank c = false)
    (hlast : ∀ c, p.getLast? = some c → isBlank c = false) : p <:+: trim t ↔ p <:+: t := by
  obtain ⟨gap, gap', hgap, hgap', ht⟩ := exists_eq_append_trim t
  conv_rhs => rw [ht]
  rw [infix_blanks_append_iff hhead hgap, infix_append_blanks_iff hlast hgap']

end Text

end DocDecl

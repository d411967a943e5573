import DocDecl.Proofs.Text.Lines
import DocDecl.Proofs.Text.Replacing
import DocDecl.Proofs.Text.Words

/-!
# Texts with carriage returns at their line ends

A text gets a carriage return in front of every line feed. Both are blanks, so trimming, words and
every scan that treats the two alike commute with this; a pattern on one line is found in the same
places, counted with the carriage returns in front of them; and the lines of the text get a carriage
return at their ends, except for the last.

## Main definitions

* `dosLines` : a text with a carriage return in front of every line feed.
* `dosOffset` : the offset there of an offset in the text.
* `isBreak` : the carriage return and the line feed.

## Main results

* `find?_dosLines`, `rfind?_dosLines` : searches for patterns on one line.
* `dropWhile_dosLines` : a scan that treats the two breaks alike.
* `trim_dosLines`, `words_dosLines` : trimming and words.
* `map_lines_dosLines` : what does not see a carriage return at the end of a line.
-/

namespace DocDecl

open Text

/-- The text with a carriage return in front of every line feed. -/
def dosLines (t : Text) : Text := Text.replace "\n" "\r\n" t

/-- The class of the two characters at line ends. -/
def isBreak (c : Char) : Bool := c == '\r' || c == '\n'

theorem isBreak_eq_false {c : Char} : isBreak c = false ↔ c ≠ '\r' ∧ c ≠ '\n' := by
  simp [isBreak]

variable {p s t : Text} {c : Char} {n : Nat}

@[simp]
theorem dosLines_nil : dosLines [] = [] := rfl

@[simp]
theorem dosLines_feed (t : Text) : dosLines ('\n' :: t) = '\r' :: '\n' :: dosLines t := rfl

theorem dosLines_cons (h : c ≠ '\n') (t : Text) : dosLines (c :: t) = c :: dosLines t :=
  replace_singleton_cons_of_ne h "\r\n" t

/-- Line feeds apart from the other characters. -/
@[elab_as_elim]
theorem Text.feed_induction {motive : Text → Prop} (nil : motive [])
    (feed : ∀ t, motive t → motive ('\n' :: t))
    (cons : ∀ c t, c ≠ '\n' → motive t → motive (c :: t)) (t : Text) : motive t := by
  induction t with
  | nil => exact nil
  | cons c t ih =>
    by_cases hc : c = '\n'
    · exact hc ▸ feed t ih
    · exact cons c t hc ih

@[simp]
theorem dosLines_append (s t : Text) : dosLines (s ++ t) = dosLines s ++ dosLines t :=
  replace_singleton_append '\n' "\r\n" s t

theorem dosLines_of_notMem (h : '\n' ∉ t) : dosLines t = t :=
  replace_singleton_of_notMem h "\r\n"

theorem dosLines_of_oneLine (h : ∀ c ∈ p, isBreak c = false) : dosLines p = p :=
  dosLines_of_notMem fun hc => (isBreak_eq_false.1 (h _ hc)).2 rfl

@[simp]
theorem dosLines_eq_nil_iff : dosLines t = [] ↔ t = [] := by
  induction t using Text.feed_induction with
  | nil => simp
  | feed t => simp
  | cons c t hc => simp [dosLines_cons hc]

@[simp]
theorem isEmpty_dosLines : (dosLines t).isEmpty = t.isEmpty := by
  rw [Bool.eq_iff_iff, List.isEmpty_iff, List.isEmpty_iff, dosLines_eq_nil_iff]

/-! ### Line feeds follow carriage returns -/

theorem head?_dosLines_ne_feed : (dosLines t).head? ≠ some '\n' := by
  induction t using Text.feed_induction with
  | nil => simp
  | feed t => simp
  | cons c t hc => simp [dosLines_cons hc, hc]

theorem head?_dosLines_eq_some_iff (hc : isBreak c = false) :
    (dosLines t).head? = some c ↔ t.head? = some c := by
  have hc' := isBreak_eq_false.1 hc
  induction t using Text.feed_induction with
  | nil => simp
  | feed t => simp [Ne.symm hc'.1, Ne.symm hc'.2]
  | cons d t hd => simp [dosLines_cons hd]

/-- What is the same for the two breaks is the same for the first characters. -/
theorem map_head?_dosLines {α : Type} {f : Char → α} (hf : f '\r' = f '\n') :
    (dosLines t).head?.map f = t.head?.map f := by
  induction t using Text.feed_induction with
  | nil => rfl
  | feed t => simp [hf]
  | cons c t hc => simp [dosLines_cons hc]

/-- No line feed follows another character than a carriage return. -/
theorem not_infix_dosLines (hc : c ≠ '\r') : ¬[c, '\n'] <:+: dosLines t := by
  have hfeed (t : Text) : ¬['\n'] <+: dosLines t := by
    rintro ⟨r, hr⟩
    exact head?_dosLines_ne_feed (by rw [← hr]; rfl)
  induction t using Text.feed_induction with
  | nil => simp
  | feed t ih =>
    simp only [dosLines_feed, List.infix_cons_iff, List.cons_prefix_cons, hc, false_and, false_or]
    rintro (⟨-, h⟩ | h)
    · exact hfeed t h
    · exact ih h
  | cons d t hd ih =>
    simp only [dosLines_cons hd, List.infix_cons_iff, List.cons_prefix_cons]
    rintro (⟨-, h⟩ | h)
    · exact hfeed t h
    · exact ih h

theorem dosLines_injective : Function.Injective dosLines := by
  intro s t h
  induction s using Text.feed_induction generalizing t with
  | nil => exact (dosLines_eq_nil_iff.1 h.symm).symm
  | feed s ih =>
    induction t using Text.feed_induction with
    | nil => simp at h
    | feed t =>
      simp only [dosLines_feed, List.cons.injEq, true_and] at h
      rw [ih h]
    | cons d t hd =>
      rw [dosLines_feed, dosLines_cons hd] at h
      exact absurd (by rw [← (List.cons.inj h).2]; rfl) (head?_dosLines_ne_feed (t := t))
  | cons c s hc ih =>
    rw [dosLines_cons hc] at h
    induction t using Text.feed_induction with
    | nil => simp at h
    | feed t =>
      rw [dosLines_feed] at h
      exact absurd (by rw [(List.cons.inj h).2]; rfl) (head?_dosLines_ne_feed (t := s))
    | cons d t hd =>
      rw [dosLines_cons hd] at h
      obtain ⟨hcd, hst⟩ := List.cons.inj h
      rw [hcd, ih hst]

/-! ### Beginnings -/

theorem after?_dosLines (hp : ∀ c ∈ p, isBreak c = false) (t : Text) :
    after? p (dosLines t) = (after? p t).map dosLines := by
  induction p generalizing t with
  | nil => rfl
  | cons a p ih =>
    obtain ⟨ha, hp⟩ := List.forall_mem_cons.1 hp
    have ha := isBreak_eq_false.1 ha
    induction t using Text.feed_induction with
    | nil => rfl
    | feed t => simp [after?, ha.1, ha.2]
    | cons c t hc =>
      rw [dosLines_cons hc, after?, after?, ih hp]
      split_ifs <;> rfl

theorem isPrefixOf_dosLines (hp : ∀ c ∈ p, isBreak c = false) (t : Text) :
    p.isPrefixOf (dosLines t) = p.isPrefixOf t := by
  have key (u : Text) : p.isPrefixOf u = (after? p u).isSome := by
    rw [Bool.eq_iff_iff, List.isPrefixOf_iff_prefix, Option.isSome_iff_exists]
    simp only [after?_eq_some_iff]
    exact ⟨fun ⟨r, hr⟩ => ⟨r, hr.symm⟩, fun ⟨r, hr⟩ => ⟨r, hr.symm⟩⟩
  rw [key, key, after?_dosLines hp, Option.isSome_map]

/-! ### Offsets -/

/-- The offset with carriage returns of an offset in the text. -/
def dosOffset (t : Text) (n : Nat) : Nat := (dosLines (t.take n)).length

@[simp]
theorem dosOffset_zero (t : Text) : dosOffset t 0 = 0 := rfl

theorem dosOffset_cons (h : c ≠ '\n') (t : Text) (n : Nat) :
    dosOffset (c :: t) (n + 1) = dosOffset t n + 1 := by
  rw [dosOffset, List.take_succ_cons, dosLines_cons h, List.length_cons, dosOffset]

theorem take_dosLines (t : Text) (n : Nat) :
    (dosLines t).take (dosOffset t n) = dosLines (t.take n) := by
  conv_lhs => rw [← List.take_append_drop n t, dosLines_append, List.take_append_drop]
  exact List.take_left

theorem drop_dosLines (t : Text) (n : Nat) :
    (dosLines t).drop (dosOffset t n) = dosLines (t.drop n) := by
  conv_lhs => rw [← List.take_append_drop n t, dosLines_append, List.take_append_drop]
  exact List.drop_left

theorem dosOffset_add (t : Text) (m n : Nat) :
    dosOffset t (m + n) = dosOffset t m + dosOffset (t.drop m) n := by
  rw [dosOffset, List.take_add, dosLines_append, List.length_append, dosOffset, dosOffset]

theorem dosOffset_take {m : Nat} (h : n ≤ m) : dosOffset (t.take m) n = dosOffset t n := by
  rw [dosOffset, List.take_take, Nat.min_eq_left h, dosOffset]

theorem dosOffset_succ {r : Text} (h : t.drop n = c :: r) :
    dosOffset t (n + 1) = dosOffset t n + (dosLines [c]).length := by
  rw [dosOffset_add, h]
  rfl

/-- Where a pattern on one line stands, there are no carriage returns in between. -/
theorem dosOffset_add_of_standsAt (hp : ∀ c ∈ p, isBreak c = false) (h : StandsAt p t n) {k : Nat}
    (hk : k ≤ p.length) : dosOffset t (n + k) = dosOffset t n + k := by
  obtain ⟨r, hr⟩ := h
  have htake : ∀ c ∈ p.take k, isBreak c = false := fun c hc => hp c (List.mem_of_mem_take hc)
  rw [dosOffset_add, ← hr, dosOffset, dosOffset, List.take_append_of_le_length hk,
    dosLines_of_oneLine htake, List.length_take_of_le hk]

/-- Before its end the offsets of a text keep their order. -/
theorem dosOffset_lt_dosOffset {m n : Nat} (h : m < n) (hn : n ≤ t.length) :
    dosOffset t m < dosOffset t n := by
  obtain ⟨k, rfl⟩ := Nat.exists_eq_add_of_lt h
  rw [Nat.add_assoc, dosOffset_add]
  refine Nat.lt_add_of_pos_right (List.length_pos_iff.2 ?_)
  rw [ne_eq, dosLines_eq_nil_iff, List.take_eq_nil_iff, List.drop_eq_nil_iff]
  omega

theorem dosOffset_le_dosOffset_iff {m n : Nat} (hm : m ≤ t.length) (hn : n ≤ t.length) :
    dosOffset t m ≤ dosOffset t n ↔ m ≤ n := by
  constructor
  · intro h
    refine Nat.le_of_not_lt fun hlt => ?_
    exact absurd h (Nat.not_le_of_lt (dosOffset_lt_dosOffset hlt hm))
  · intro h
    rcases Nat.lt_or_eq_of_le h with hlt | rfl
    · exact Nat.le_of_lt (dosOffset_lt_dosOffset hlt hn)
    · exact Nat.le_refl _

theorem dosOffset_inj {m n : Nat} (hm : m ≤ t.length) (hn : n ≤ t.length) :
    dosOffset t m = dosOffset t n ↔ m = n := by
  rw [Nat.le_antisymm_iff, dosOffset_le_dosOffset_iff hm hn, dosOffset_le_dosOffset_iff hn hm,
    ← Nat.le_antisymm_iff]

/-! ### Searching -/

/-- A pattern on one line begins at a line break only if it is empty. -/
theorem isPrefixOf_break (hp : ∀ c ∈ p, isBreak c = false) (hc : isBreak c = true) (t : Text) :
    p.isPrefixOf (c :: t) = p.isEmpty := by
  cases p with
  | nil => rfl
  | cons a p =>
    have ha : a ≠ c := by
      rintro rfl
      simp [hp a List.mem_cons_self] at hc
    simp [List.isPrefixOf, ha]

theorem find?_dosLines (hp : ∀ c ∈ p, isBreak c = false) (t : Text) :
    find? p (dosLines t) = (find? p t).map (dosOffset t) := by
  induction t using Text.feed_induction with
  | nil =>
    rw [dosLines_nil, find?]
    split_ifs <;> rfl
  | feed t ih =>
    rw [dosLines_feed, find?, find?, find?, ih]
    simp only [isPrefixOf_break hp (c := '\r') rfl, isPrefixOf_break hp (c := '\n') rfl]
    split_ifs
    · rfl
    · cases find? p t <;> rfl
  | cons c t hc ih =>
    have hpre := isPrefixOf_dosLines hp (c :: t)
    rw [dosLines_cons hc] at hpre ⊢
    rw [find?, find?, ih, hpre]
    split_ifs
    · rfl
    · cases find? p t <;> simp [dosOffset_cons hc]

theorem rfind?_dosLines (hp : ∀ c ∈ p, isBreak c = false) (hne : p ≠ []) (t : Text) :
    rfind? p (dosLines t) = (rfind? p t).map (dosOffset t) := by
  have hempty : p.isEmpty = false := by simp [hne]
  induction t using Text.feed_induction with
  | nil => simp [rfind?, hne]
  | feed t ih =>
    rw [dosLines_feed, rfind?, rfind?, rfind?, ih]
    simp only [isPrefixOf_break hp (c := '\r') rfl, isPrefixOf_break hp (c := '\n') rfl, hempty]
    cases rfind? p t <;> rfl
  | cons c t hc ih =>
    have hpre := isPrefixOf_dosLines hp (c :: t)
    rw [dosLines_cons hc] at hpre ⊢
    rw [rfind?, rfind?, ih, hpre]
    cases rfind? p t with
    | none => cases p.isPrefixOf (c :: t) <;> rfl
    | some n => simp [dosOffset_cons hc]

theorem contains_dosLines (hp : ∀ c ∈ p, isBreak c = false) (t : Text) :
    Text.contains p (dosLines t) = Text.contains p t := by
  rw [Text.contains, Text.contains, find?_dosLines hp, Option.isSome_map]

/-! ### Scans -/

/-- A scan that goes on behind both breaks or behind neither. -/
theorem dropWhile_dosLines {f : Char → Bool} (hf : f '\r' = f '\n') (t : Text) :
    (dosLines t).dropWhile f = dosLines (t.dropWhile f) := by
  induction t using Text.feed_induction with
  | nil => rfl
  | feed t ih =>
    rw [dosLines_feed, List.dropWhile_cons, List.dropWhile_cons, List.dropWhile_cons, hf, ih]
    split_ifs <;> rfl
  | cons c t hc ih =>
    rw [dosLines_cons hc, List.dropWhile_cons, List.dropWhile_cons, ih]
    split_ifs
    · rfl
    · exact (dosLines_cons hc t).symm

/-- The first line, with a carriage return if there is a second one. -/
theorem takeWhile_ne_feed_dosLines (t : Text) :
    (dosLines t).takeWhile (· ≠ '\n') =
      t.takeWhile (· ≠ '\n') ++ if '\n' ∈ t then ['\r'] else [] := by
  induction t using Text.feed_induction with
  | nil => rfl
  | feed t ih => simp
  | cons c t hc ih =>
    have hmem : '\n' ∈ c :: t ↔ '\n' ∈ t := by simp [Ne.symm hc]
    rw [dosLines_cons hc, List.takeWhile_cons_of_pos (by simp [hc]), ih,
      List.takeWhile_cons_of_pos (by simp [hc]), List.cons_append]
    simp only [hmem]

/-! ### Trimming and words -/

theorem trimLeft_dosLines (t : Text) : trimLeft (dosLines t) = dosLines (trimLeft t) :=
  dropWhile_dosLines (by decide) t

theorem trimRight_dosLines (t : Text) : trimRight (dosLines t) = dosLines (trimRight t) := by
  induction t using Text.feed_induction with
  | nil => rfl
  | feed t ih =>
    rw [dosLines_feed, trimRight, trimRight, trimRight, ih]
    cases h : trimRight t with
    | nil => rfl
    | cons d r =>
      cases h' : dosLines (d :: r) with
      | nil => simp at h'
      | cons e u => rw [dosLines_feed, h']
  | cons c t hc ih =>
    rw [dosLines_cons hc, trimRight, trimRight, ih]
    cases h : trimRight t with
    | nil =>
      simp only [dosLines_nil]
      split_ifs
      · rfl
      · exact (dosLines_cons hc []).symm
    | cons d r =>
      cases h' : dosLines (d :: r) with
      | nil => simp at h'
      | cons e u => rw [dosLines_cons hc, h']

theorem trim_dosLines (t : Text) : trim (dosLines t) = dosLines (trim t) := by
  rw [trim, trim, trimLeft_dosLines, trimRight_dosLines]

/-! ### Lines -/

/-- The first line apart from the others. -/
@[elab_as_elim]
theorem Text.line_induction {motive : Text → Prop} (last : ∀ l, '\n' ∉ l → motive l)
    (line : ∀ l t, '\n' ∉ l → motive t → motive (l ++ '\n' :: t)) (t : Text) : motive t := by
  suffices h : ∀ l, '\n' ∉ l → motive (l ++ t) from h [] List.not_mem_nil
  induction t using Text.feed_induction with
  | nil => exact fun l hl => by rw [List.append_nil]; exact last l hl
  | feed t ih => exact fun l hl => line l t hl (ih [] List.not_mem_nil)
  | cons c t hc ih =>
    intro l hl
    rw [← List.singleton_append, ← List.append_assoc]
    exact ih _ (by simp [hl, Ne.symm hc])

theorem dosLines_line {l : Text} (h : '\n' ∉ l) (t : Text) :
    dosLines (l ++ '\n' :: t) = (l ++ ['\r']) ++ '\n' :: dosLines t := by
  rw [dosLines_append, dosLines_of_notMem h, dosLines_feed, List.append_assoc]
  rfl

/-- What does not see a carriage return at the end of a line is the same for all lines. -/
theorem map_lines_dosLines {α : Type} {f : Text → α} (hf : ∀ l, f (l ++ ['\r']) = f l) (t : Text) :
    (lines (dosLines t)).map f = (lines t).map f := by
  induction t using Text.line_induction with
  | last l hl => rw [dosLines_of_notMem hl]
  | line l t hl ih =>
    have hl' : '\n' ∉ l ++ ['\r'] := by simp [hl]
    rw [dosLines_line hl, lines_line hl', lines_line hl, List.map_cons, List.map_cons, ih, hf]

theorem filterMap_lines_dosLines {α : Type} {f : Text → Option α}
    (hf : ∀ l, f (l ++ ['\r']) = f l) (t : Text) :
    (lines (dosLines t)).filterMap f = (lines t).filterMap f := by
  have key (ls : List Text) : ls.filterMap f = (ls.map f).filterMap id := by
    rw [List.filterMap_map, Function.id_comp]
  rw [key, key, map_lines_dosLines hf]

/-! ### Words -/

theorem words_dosLines (t : Text) : words (dosLines t) = words t := by
  induction t using Text.line_induction with
  | last l hl => rw [dosLines_of_notMem hl]
  | line l t hl ih =>
    have hnil : words [] = [] := rfl
    rw [dosLines_line hl, words_append_blank (by decide), words_append_blank (by decide),
      words_append_blank (by decide), ih, hnil, List.append_nil]

end DocDecl

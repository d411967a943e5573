import DocDecl.Comment.Extraction
import DocDecl.Proofs.Text.Search

/-!
# Every place of a tag is accounted for once

The search for the areas of a tag goes on behind the block that holds a place, and one character
further where no block does. Nothing is lost or counted twice: a block that is found later starts
behind the closing mark of the block before it, and a block that holds a later place starts behind
every place that no block holds. So the areas start one behind the other, and each place of the tag
lies in one block, or is the one loose place that is reported for it.

## Main definitions

* `Encloses` : the block that holds a place.
* `Occurrence.IsPlace` : what a place of a marker is.
* `Area.accounts` : an area that stands for a place.
* `Area.IsBlock` : what is known of an area that is a block.

## Main results

* `enclosing?_eq_some_iff` : the block that the search finds.
* `mem_occurrences` : what is found is a place.
* `lt_start_of_encloses`, `lt_start_of_loose` : what is found later starts later.
* `countP_accounts_occurrences`, `pairwise_start_occurrences` : the same for what is found from a
  place on.
* `areas_account` : every place is accounted for once, and the areas start one behind the other.
-/

namespace DocDecl

open Text

variable {source : Text}

/-! ### Blocks -/

section Blocks

variable {pos start n : Nat}

/-- The block from `start` to the closing mark `n` characters behind `pos` holds `pos`: it opens
with the last opening mark in front of `pos`, ends with the first closing mark behind, and no
closing mark lies between its opening mark and `pos`. -/
structure Encloses (source : Text) (pos start n : Nat) : Prop where
  opens : StandsAt "/**" source start
  start_le : start + 2 ≤ pos
  last : ∀ s, StandsAt "/**" source s → s + 2 ≤ pos → s ≤ start
  closes : StandsAt "*/" source (pos + n)
  first : ∀ q, StandsAt "*/" source q → pos ≤ q → pos + n ≤ q
  open_at : ∀ q, StandsAt "*/" source q → start + 2 ≤ q → pos < q + 2

theorem rfind?_open_eq_some_iff :
    rfind? "/**" (source.take (pos + 1)) = some start ↔
      StandsAt "/**" source start ∧ start + 2 ≤ pos ∧
        ∀ s, StandsAt "/**" source s → s + 2 ≤ pos → s ≤ start := by
  have hplace (s : Nat) : StandsAt "/**" (source.take (pos + 1)) s ↔
      StandsAt "/**" source s ∧ s + 2 ≤ pos := by
    rw [standsAt_take_iff (by decide)]
    exact and_congr_right fun _ => Nat.succ_le_succ_iff
  simp only [rfind?_eq_some_iff (p := "/**") (by decide), hplace, and_imp, and_assoc]

theorem find?_close_eq_some_iff :
    find? "*/" (source.drop pos) = some n ↔
      StandsAt "*/" source (pos + n) ∧ ∀ q, StandsAt "*/" source q → pos ≤ q → pos + n ≤ q := by
  simp only [find?_eq_some_iff, standsAt_drop_iff]
  refine and_congr_right fun _ => ⟨fun h q hq hle => ?_, fun h m hm => ?_⟩
  · have hqm : pos + (q - pos) = q := Nat.add_sub_cancel' hle
    have := h (q - pos) (by rw [hqm]; exact hq)
    omega
  · have := h (pos + m) hm (Nat.le_add_right pos m)
    omega

theorem contains_close_iff :
    contains "*/" ((source.take pos).drop (start + 2)) = true ↔
      ∃ q, StandsAt "*/" source q ∧ start + 2 ≤ q ∧ q + 2 ≤ pos := by
  simp only [contains_iff, standsAt_drop_iff, standsAt_take_iff (p := "*/") (by decide)]
  constructor
  · rintro ⟨m, hm, hle⟩
    exact ⟨start + 2 + m, hm, Nat.le_add_right _ m, hle⟩
  · rintro ⟨q, hq, hle, hlt⟩
    have hqm : start + 2 + (q - (start + 2)) = q := Nat.add_sub_cancel' hle
    exact ⟨q - (start + 2), by rw [hqm]; exact hq, by rw [hqm]; exact hlt⟩

/-- The block that the search finds is the one that holds the place. -/
theorem enclosing?_eq_some_iff :
    enclosing? source pos (source.drop pos) = some (start, n) ↔ Encloses source pos start n := by
  constructor
  · intro h
    rw [enclosing?] at h
    split at h
    · next s m hs hm =>
      split_ifs at h with hc
      cases Option.some.inj h
      obtain ⟨hopen, hle, hlast⟩ := rfind?_open_eq_some_iff.1 hs
      obtain ⟨hclose, hfirst⟩ := find?_close_eq_some_iff.1 hm
      refine ⟨hopen, hle, hlast, hclose, hfirst, fun q hq hqs => ?_⟩
      by_contra hlt
      exact hc (contains_close_iff.2 ⟨q, hq, hqs, Nat.not_lt.1 hlt⟩)
    · simp at h
  · rintro ⟨hopen, hle, hlast, hclose, hfirst, hopenat⟩
    rw [enclosing?, rfind?_open_eq_some_iff.2 ⟨hopen, hle, hlast⟩,
      find?_close_eq_some_iff.2 ⟨hclose, hfirst⟩]
    refine if_neg fun hc => ?_
    obtain ⟨q, hq, hqs, hlt⟩ := contains_close_iff.1 hc
    exact absurd (hopenat q hq hqs) (Nat.not_lt.2 hlt)

theorem enclosing?_eq_none_iff :
    enclosing? source pos (source.drop pos) = none ↔ ∀ s n, ¬Encloses source pos s n := by
  simp only [← enclosing?_eq_some_iff, Option.eq_none_iff_forall_ne_some, Prod.forall]

/-! ### Marks do not overlap -/

theorem chars_of_open (h : StandsAt "/**" source start) :
    source[start]? = some '/' ∧ source[start + 1]? = some '*' ∧ source[start + 2]? = some '*' :=
  ⟨h.getElem?_eq (i := 0) (by decide), h.getElem?_eq (i := 1) (by decide),
    h.getElem?_eq (i := 2) (by decide)⟩

theorem chars_of_close {q : Nat} (h : StandsAt "*/" source q) :
    source[q]? = some '*' ∧ source[q + 1]? = some '/' :=
  ⟨h.getElem?_eq (i := 0) (by decide), h.getElem?_eq (i := 1) (by decide)⟩

theorem chars_of_marker {w : Text} (h : StandsAt ("* @" ++ w) source pos) :
    source[pos]? = some '*' ∧ source[pos + 1]? = some ' ' :=
  ⟨h.getElem?_eq (i := 0) (Nat.succ_pos _),
    h.getElem?_eq (i := 1) (Nat.succ_lt_succ (Nat.succ_pos _))⟩

/-- A closing mark does not begin in a tag whose name has no star. -/
theorem add_length_le_of_close {w : Text} (hw : '*' ∉ w) {q : Nat}
    (h : StandsAt ("* @" ++ w) source pos) (hq : StandsAt "*/" source q) (hle : pos ≤ q) :
    pos + ("* @" ++ w : Text).length ≤ q := by
  obtain ⟨i, rfl⟩ := Nat.exists_eq_add_of_le hle
  by_contra hlt
  have hi : i < ("* @" ++ w : Text).length := by omega
  obtain ⟨hstar, hslash⟩ := chars_of_close hq
  have hstar' := (h.getElem?_eq hi).symm.trans hstar
  match i, hi with
  | 0, _ => simp [(chars_of_marker h).2] at hslash
  | 1, _ => simp at hstar'
  | 2, _ => simp at hstar'
  | j + 3, _ => exact hw (List.mem_of_getElem? hstar')

namespace Encloses

variable {pos' start' n' : Nat}

/-- Behind its opening mark a block has no closing mark before its own. -/
theorem add_le_of_close (h : Encloses source pos start n) (hpos : source[pos]? = some '*') {q : Nat}
    (hq : StandsAt "*/" source q) (hle : start + 2 ≤ q) : pos + n ≤ q := by
  have hlt := h.open_at q hq hle
  by_cases hpq : pos ≤ q
  · exact h.first q hq hpq
  · -- the closing mark would end where the place begins with a star
    obtain rfl : pos = q + 1 := by omega
    simp [(chars_of_close hq).2] at hpos

/-- A star in front of the end of a block is not behind the first character of its closing mark. -/
theorem le_of_lt (h : Encloses source pos start n) {q : Nat} (hq : source[q]? = some '*')
    (hlt : q < pos + n + 2) : q ≤ pos + n := by
  by_contra hno
  obtain rfl : q = pos + n + 1 := by omega
  simp [(chars_of_close h.closes).2] at hq

/-- A block that holds a place behind another block starts behind the closing mark of that one, or
with the last character of it. -/
theorem add_lt_start (h : Encloses source pos start n) (h' : Encloses source pos' start' n')
    (hle : pos + n + 2 ≤ pos') : pos + n < start' := by
  obtain ⟨hstar, hslash⟩ := chars_of_close h.closes
  obtain ⟨hopen, hopen', hopen''⟩ := chars_of_open h'.opens
  have hlt : pos + n < start' + 2 := by
    by_contra hno
    have := h'.open_at _ h.closes (Nat.not_lt.1 hno)
    omega
  by_contra hno
  have hcases : start' = pos + n ∨ start' + 1 = pos + n := by omega
  rcases hcases with heq | heq
  · rw [heq, hstar] at hopen
    simp at hopen
  · have heq' : start' + 2 = pos + n + 1 := by omega
    rw [heq', hslash] at hopen''
    simp at hopen''

/-- A block that holds a place also holds the places of a tag that it has before. -/
theorem of_lt (h : Encloses source pos' start n') (hlt : pos < pos') (hle : start + 2 ≤ pos) :
    ∃ n, Encloses source pos start n := by
  cases hn : find? "*/" (source.drop pos) with
  | none =>
    have hclose : StandsAt "*/" (source.drop pos) (pos' + n' - pos) := by
      rw [standsAt_drop_iff, Nat.add_sub_cancel' (by omega)]
      exact h.closes
    exact absurd hclose (find?_eq_none_iff.1 hn _)
  | some n =>
    obtain ⟨hclose, hfirst⟩ := find?_close_eq_some_iff.1 hn
    refine ⟨n, h.opens, hle, fun s hs hsp => h.last s hs (by omega), hclose, hfirst, ?_⟩
    intro q hq hqs
    have := h.open_at q hq hqs
    omega

/-- A block that holds a place starts behind every place of the tag that no block holds. -/
theorem lt_start_of_loose {w : Text} (h : Encloses source pos' start n')
    (hpos : StandsAt ("* @" ++ w) source pos) (hno : ∀ s n, ¬Encloses source pos s n)
    (hlt : pos < pos') : pos < start := by
  obtain ⟨hstar, hblank⟩ := chars_of_marker hpos
  obtain ⟨hopen, hopen', hopen''⟩ := chars_of_open h.opens
  by_contra hle
  have hcases : start = pos ∨ start + 1 = pos ∨ start + 2 ≤ pos := by omega
  rcases hcases with rfl | rfl | hle
  · simp [hstar] at hopen
  · simp [hblank] at hopen''
  · obtain ⟨n, hn⟩ := h.of_lt hlt hle
    exact hno _ _ hn

end Encloses

end Blocks

/-! ### Places -/

namespace Occurrence

/-- The place itself. -/
def place : Occurrence → Nat
  | loose pos => pos
  | inBlock pos _ _ => pos

/-- Where the area of a place starts. -/
def start : Occurrence → Nat
  | loose pos => pos
  | inBlock _ start _ => start

/-- Whether the area of a place stands for the place `q`. -/
def accounts (q : Nat) : Occurrence → Bool
  | loose pos => pos = q
  | inBlock _ start stop => start ≤ q ∧ q < stop

/-- What it is to be a place: the marker stands there, and the block is the one that holds it. -/
def IsPlace (source marker : Text) : Occurrence → Prop
  | loose pos => StandsAt marker source pos ∧ ∀ s n, ¬Encloses source pos s n
  | inBlock pos start stop =>
    StandsAt marker source pos ∧ ∃ n, Encloses source pos start n ∧ stop = pos + n + 2

theorem start_le_of_accounts {q : Nat} {o : Occurrence} (h : o.accounts q = true) :
    o.start ≤ q := by
  cases o with
  | loose pos => exact Nat.le_of_eq (of_decide_eq_true h)
  | inBlock pos start stop => exact (of_decide_eq_true h).1

end Occurrence

section Places

variable {marker : Text} {pos : Nat} {c : Char} {t : Text}

theorem drop_of_drop_eq_cons (h : source.drop pos = c :: t) (k : Nat) :
    source.drop (pos + k + 1) = t.drop k := by
  rw [Nat.add_assoc, ← List.drop_drop, h, List.drop_succ_cons]

theorem standsAt_iff_of_drop (h : source.drop pos = c :: t) :
    StandsAt marker source pos ↔ marker.isPrefixOf (c :: t) = true := by
  rw [StandsAt, h, List.isPrefixOf_iff_prefix]

theorem mem_occurrences (hm : marker ≠ []) {rest : Text} (hrest : source.drop pos = rest)
    {o : Occurrence} (ho : o ∈ occurrences source marker pos rest) :
    pos ≤ o.place ∧ o.IsPlace source marker := by
  fun_induction occurrences source marker pos rest with
  | case1 _ h => exact absurd h hm
  | case2 => simp at ho
  | case3 pos c t hp start n hblock ih =>
    rcases List.mem_cons.1 ho with rfl | ho
    · rw [← hrest, enclosing?_eq_some_iff] at hblock
      exact ⟨Nat.le_refl _, (standsAt_iff_of_drop hrest).2 hp, n, hblock, rfl⟩
    · obtain ⟨hle, hplace⟩ := ih (drop_of_drop_eq_cons hrest (n + 1)) ho
      exact ⟨by omega, hplace⟩
  | case4 pos c t hp hblock ih =>
    rcases List.mem_cons.1 ho with rfl | ho
    · rw [← hrest, enclosing?_eq_none_iff] at hblock
      exact ⟨Nat.le_refl _, (standsAt_iff_of_drop hrest).2 hp, hblock⟩
    · obtain ⟨hle, hplace⟩ := ih (drop_of_drop_eq_cons hrest 0) ho
      exact ⟨Nat.le_of_succ_le hle, hplace⟩
  | case5 pos c t _ ih =>
    obtain ⟨hle, hplace⟩ := ih (drop_of_drop_eq_cons hrest 0) ho
    exact ⟨Nat.le_of_succ_le hle, hplace⟩

/-- What is found behind a block starts behind it. -/
theorem lt_start_of_encloses (hm : marker ≠ []) {start n : Nat}
    (h : Encloses source pos start n) (hrest : source.drop (pos + n + 2) = t) {o : Occurrence}
    (ho : o ∈ occurrences source marker (pos + n + 2) t) : pos + n < o.start := by
  obtain ⟨hle, hplace⟩ := mem_occurrences hm hrest ho
  cases o with
  | loose p => exact Nat.lt_of_succ_lt hle
  | inBlock p s e =>
    obtain ⟨-, n', hn, -⟩ := hplace
    exact h.add_lt_start hn hle

/-- What is found behind a loose place starts behind it. -/
theorem lt_start_of_loose {w : Text} (hpos : StandsAt ("* @" ++ w) source pos)
    (hno : ∀ s n, ¬Encloses source pos s n) (hrest : source.drop (pos + 1) = t) {o : Occurrence}
    (ho : o ∈ occurrences source ("* @" ++ w) (pos + 1) t) : pos < o.start := by
  obtain ⟨hlt, hplace⟩ := mem_occurrences (List.cons_ne_nil _ _) hrest ho
  cases o with
  | loose p => exact hlt
  | inBlock p s e =>
    obtain ⟨-, n', hn, -⟩ := hplace
    exact hn.lt_start_of_loose hpos hno hlt

end Places

/-! ### Accounting -/

/-- What starts behind `q` does not account for it. -/
theorem countP_accounts_eq_zero {q : Nat} {os : List Occurrence} (h : ∀ o ∈ os, q < o.start) :
    os.countP (Occurrence.accounts q) = 0 := by
  rw [List.countP_eq_zero]
  intro o ho hacc
  exact absurd (Occurrence.start_le_of_accounts hacc) (Nat.not_le.2 (h o ho))

section Accounting

variable {w : Text} {pos : Nat} {rest : Text}

/-- Each place of the tag from `pos` on is accounted for once by what is found from `pos` on. -/
theorem countP_accounts_occurrences (hrest : source.drop pos = rest) {q : Nat}
    (hq : StandsAt ("* @" ++ w) source q) (hle : pos ≤ q) :
    (occurrences source ("* @" ++ w) pos rest).countP (Occurrence.accounts q) = 1 := by
  have hm : ("* @" ++ w : Text) ≠ [] := List.cons_ne_nil _ _
  generalize hmarker : ("* @" ++ w : Text) = marker at *
  fun_induction occurrences source marker pos rest with
  | case1 _ h => exact absurd h hm
  | case2 pos _ =>
    have := hq.add_length_le hm
    have := List.length_pos_iff.2 hm
    have := List.drop_eq_nil_iff.1 hrest
    omega
  | case3 pos c t hp start n hblock ih =>
    rw [← hrest, enclosing?_eq_some_iff] at hblock
    have hdrop : source.drop (pos + n + 2) = t.drop (n + 1) :=
      drop_of_drop_eq_cons hrest (n + 1)
    rw [List.countP_cons]
    by_cases hlt : q < pos + n + 2
    · have hqn : q ≤ pos + n := hblock.le_of_lt (chars_of_marker (hmarker ▸ hq)).1 hlt
      have hzero := countP_accounts_eq_zero fun o ho =>
        Nat.lt_of_le_of_lt hqn (lt_start_of_encloses hm hblock hdrop ho)
      have hacc : Occurrence.accounts q (.inBlock pos start (pos + n + 2)) = true :=
        decide_eq_true ⟨by have := hblock.start_le; omega, hlt⟩
      rw [hzero, hacc]
      rfl
    · have hacc : Occurrence.accounts q (.inBlock pos start (pos + n + 2)) = false :=
        decide_eq_false fun h => hlt h.2
      rw [ih hdrop (Nat.not_lt.1 hlt), hacc]
      rfl
  | case4 pos c t hp hblock ih =>
    rw [← hrest, enclosing?_eq_none_iff] at hblock
    have hdrop : source.drop (pos + 1) = t := drop_of_drop_eq_cons hrest 0
    rw [List.countP_cons]
    by_cases heq : pos = q
    · subst heq hmarker
      have hzero := countP_accounts_eq_zero fun o ho => lt_start_of_loose hq hblock hdrop ho
      have hacc : Occurrence.accounts pos (.loose pos) = true := decide_eq_true rfl
      rw [hzero, hacc]
      rfl
    · have hacc : Occurrence.accounts q (.loose pos) = false := decide_eq_false heq
      rw [ih hdrop (by omega), hacc]
      rfl
  | case5 pos c t hp ih =>
    have hne : pos ≠ q := by
      rintro rfl
      exact hp ((standsAt_iff_of_drop hrest).1 hq)
    exact ih (drop_of_drop_eq_cons hrest 0) (by omega)

theorem pairwise_start_occurrences (hrest : source.drop pos = rest) :
    (occurrences source ("* @" ++ w) pos rest).Pairwise (·.start < ·.start) := by
  have hm : ("* @" ++ w : Text) ≠ [] := List.cons_ne_nil _ _
  generalize hmarker : ("* @" ++ w : Text) = marker at *
  fun_induction occurrences source marker pos rest with
  | case1 _ h => exact absurd h hm
  | case2 => exact .nil
  | case3 pos c t hp start n hblock ih =>
    rw [← hrest, enclosing?_eq_some_iff] at hblock
    have hdrop : source.drop (pos + n + 2) = t.drop (n + 1) :=
      drop_of_drop_eq_cons hrest (n + 1)
    refine List.pairwise_cons.2 ⟨fun o ho => ?_, ih hdrop⟩
    have hstart : start < pos + n := by
      have := hblock.start_le
      omega
    exact Nat.lt_trans hstart (lt_start_of_encloses hm hblock hdrop ho)
  | case4 pos c t hp hblock ih =>
    rw [← hrest, enclosing?_eq_none_iff] at hblock
    have hdrop : source.drop (pos + 1) = t := drop_of_drop_eq_cons hrest 0
    have hstands : StandsAt marker source pos := (standsAt_iff_of_drop hrest).2 hp
    subst hmarker
    exact List.pairwise_cons.2
      ⟨fun o ho => lt_start_of_loose hstands hblock hdrop ho, ih hdrop⟩
  | case5 pos c t _ ih => exact ih (drop_of_drop_eq_cons hrest 0)

end Accounting

/-! ### Areas -/

namespace Area

/-- Whether an area stands for the place `q`: it is reported as loose there, or it is a block that
`q` lies in. -/
def accounts (q : Nat) (a : Area) : Bool :=
  if a.malformed then a.start = q else a.start ≤ q ∧ q < a.stop

/-- What is known of an area that is a block: its marks, that no other closing mark lies between
them, and that the marker stands there as a whole. -/
structure IsBlock (source marker : Text) (a : Area) : Prop where
  opens : StandsAt "/**" source a.start
  closes : 2 ≤ a.stop ∧ StandsAt "*/" source (a.stop - 2)
  closed_once : ∀ q, StandsAt "*/" source q → a.start + 2 ≤ q → a.stop ≤ q + 2
  holds : ∃ q, StandsAt marker source q ∧ a.start ≤ q ∧ q + marker.length + 2 ≤ a.stop

end Area

theorem start_areaAt (source marker : Text) (kind : AreaKind) (o : Occurrence) :
    (areaAt source marker kind o).start = o.start := by
  cases o <;> rfl

theorem accounts_areaAt (source marker : Text) (kind : AreaKind) (q : Nat) (o : Occurrence) :
    (areaAt source marker kind o).accounts q = o.accounts q := by
  cases o <;> rfl

/-- Every place of a tag is accounted for by one area, and the areas start one behind the other. An
area that is not loose is a block that holds the tag. -/
theorem areas_account (source : Text) {w : Text} (hw : '*' ∉ w) (kind : AreaKind) :
    (∀ q, StandsAt ("* @" ++ w) source q →
        (areas source ("* @" ++ w) kind).countP (Area.accounts q) = 1) ∧
      (areas source ("* @" ++ w) kind).Pairwise (·.start < ·.start) ∧
      ∀ a ∈ areas source ("* @" ++ w) kind, a.malformed = false →
        a.IsBlock source ("* @" ++ w) := by
  refine ⟨fun q hq => ?_, ?_, fun a ha hwell => ?_⟩
  · rw [areas, List.countP_map]
    have hcomp : Area.accounts q ∘ areaAt source ("* @" ++ w) kind = Occurrence.accounts q :=
      funext fun o => accounts_areaAt source _ kind q o
    rw [hcomp]
    exact countP_accounts_occurrences List.drop_zero hq (Nat.zero_le q)
  · rw [areas, List.pairwise_map]
    simp only [start_areaAt]
    exact pairwise_start_occurrences List.drop_zero
  · obtain ⟨o, ho, rfl⟩ := List.mem_map.1 ha
    cases o with
    | loose pos => exact absurd hwell (by simp [areaAt])
    | inBlock pos start stop =>
      obtain ⟨-, hstands, n, hblock, rfl⟩ :=
        mem_occurrences (List.cons_ne_nil _ _) List.drop_zero ho
      have hstar := (chars_of_marker hstands).1
      have hlen := add_length_le_of_close hw hstands hblock.closes (Nat.le_add_right pos n)
      have hstart : start ≤ pos := Nat.le_trans (Nat.le_add_right start 2) hblock.start_le
      exact
        { opens := hblock.opens
          closes := ⟨Nat.le_add_left 2 _, hblock.closes⟩
          closed_once := fun q hq hle =>
            Nat.add_le_add_right (hblock.add_le_of_close hstar hq hle) 2
          holds := ⟨pos, hstands, hstart, Nat.add_le_add_right hlen 2⟩ }

/-- A place in a block and a loose one behind it. -/
theorem areas_account_behind_block :
    (areas "/** * @a */ * @a" ("* @" ++ "a".toList) {}).countP (Area.accounts 4) = 1 ∧
      (areas "/** * @a */ * @a" ("* @" ++ "a".toList) {}).countP (Area.accounts 12) = 1 ∧
      (areas "/** * @a */ * @a" ("* @" ++ "a".toList) {}).Pairwise (·.start < ·.start) := by
  have h := areas_account "/** * @a */ * @a" (w := "a") (by decide) {}
  exact ⟨h.1 4 (by decide), h.1 12 (by decide), h.2.1⟩

end DocDecl

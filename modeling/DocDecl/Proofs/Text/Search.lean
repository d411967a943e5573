import DocDecl.Text.Basic
import Mathlib.Data.List.Induction
import Mathlib.Data.List.Infix

/-!
# What the searches find

A pattern stands at an offset when the text goes on with it there. The search from the left finds
the first such offset and the search from the right the last one; each fails only where there is
none. A part of the text has those offsets of the whole at which the pattern fits into the part.
With several patterns, the search finds the first offset at which one of them stands.

## Main definitions

* `Text.StandsAt` : a pattern at an offset.
* `Text.AnyStandsAt` : one of several patterns at an offset.

## Main results

* `Text.find?_eq_some_iff`, `Text.find?_eq_none_iff` : the search from the left.
* `Text.rfind?_eq_some_iff`, `Text.rfind?_eq_none_iff` : the search from the right.
* `Text.findAny?_eq_some_iff`, `Text.findAny?_eq_none_iff` : the search for several patterns.
* `Text.standsAt_take_iff`, `Text.standsAt_drop_iff` : patterns in a part of the text.
* `Text.find?_concat`, `Text.cut?_concat` : searches in a text that gets one more character.
-/

namespace DocDecl

namespace Text

/-- The text goes on with `p` at the offset `n`. -/
def StandsAt (p t : Text) (n : Nat) : Prop := p <+: t.drop n

instance (p t : Text) (n : Nat) : Decidable (StandsAt p t n) :=
  decidable_of_iff _ List.isPrefixOf_iff_prefix

variable {p t : Text} {c : Char} {n : Nat}

theorem standsAt_drop_iff {k : Nat} : StandsAt p (t.drop k) n ↔ StandsAt p t (k + n) := by
  rw [StandsAt, StandsAt, List.drop_drop]

theorem standsAt_take_iff (hp : p ≠ []) {k : Nat} :
    StandsAt p (t.take k) n ↔ StandsAt p t n ∧ n + p.length ≤ k := by
  have hpos := List.length_pos_iff.2 hp
  rw [StandsAt, StandsAt, List.drop_take, List.prefix_take_iff]
  refine and_congr_right fun _ => ?_
  omega

theorem not_standsAt_nil (hp : p ≠ []) : ¬StandsAt p [] n := by
  rw [StandsAt, List.drop_nil, List.prefix_nil]
  exact hp

theorem StandsAt.add_length_le (h : StandsAt p t n) (hp : p ≠ []) : n + p.length ≤ t.length := by
  have hpos := List.length_pos_iff.2 hp
  have hle := List.IsPrefix.length_le h
  rw [List.length_drop] at hle
  omega

/-- Where a pattern stands, its characters are those of the text. -/
theorem StandsAt.getElem?_eq (h : StandsAt p t n) {i : Nat} (hi : i < p.length) :
    t[n + i]? = p[i]? := by
  obtain ⟨r, hr⟩ := h
  rw [← List.getElem?_drop, ← hr, List.getElem?_append_left hi]

/-! ### The search from the left -/

theorem find?_eq_none_iff : find? p t = none ↔ ∀ m, ¬StandsAt p t m := by
  induction t with
  | nil =>
    rw [find?]
    split_ifs with hp
    · simp [hp, StandsAt]
    · simp [not_standsAt_nil hp]
  | cons c t ih =>
    rw [find?]
    split_ifs with hp
    · have h₀ : StandsAt p (c :: t) 0 := List.isPrefixOf_iff_prefix.1 hp
      simp only [false_iff, not_forall, not_not]
      exact ⟨0, h₀⟩
    · rw [Option.map_eq_none_iff, ih]
      constructor
      · rintro h (_ | m)
        · exact fun h₀ => hp (List.isPrefixOf_iff_prefix.2 h₀)
        · exact h m
      · exact fun h m => h (m + 1)

theorem find?_eq_some_iff :
    find? p t = some n ↔ StandsAt p t n ∧ ∀ m, StandsAt p t m → n ≤ m := by
  induction t generalizing n with
  | nil =>
    rw [find?]
    split_ifs with hp
    · have hall (m : Nat) : StandsAt p [] m := by simp [hp, StandsAt]
      simp only [Option.some.injEq, hall, true_and, forall_const]
      exact ⟨fun h m => h ▸ Nat.zero_le m, fun h => (Nat.le_zero.1 (h 0)).symm⟩
    · simp [not_standsAt_nil hp]
  | cons c t ih =>
    rw [find?]
    split_ifs with hp
    · have h₀ : StandsAt p (c :: t) 0 := List.isPrefixOf_iff_prefix.1 hp
      rw [Option.some.injEq]
      constructor
      · rintro rfl
        exact ⟨h₀, fun m _ => Nat.zero_le m⟩
      · exact fun h => (Nat.le_zero.1 (h.2 0 h₀)).symm
    · have h₀ : ¬StandsAt p (c :: t) 0 := fun h₀ => hp (List.isPrefixOf_iff_prefix.2 h₀)
      rw [Option.map_eq_some_iff]
      constructor
      · rintro ⟨m, hm, rfl⟩
        obtain ⟨hm, hmin⟩ := ih.1 hm
        refine ⟨hm, ?_⟩
        rintro (_ | l) hl
        · exact absurd hl h₀
        · exact Nat.succ_le_succ (hmin l hl)
      · rintro ⟨hn, hmin⟩
        cases n with
        | zero => exact absurd hn h₀
        | succ n =>
          refine ⟨n, ih.2 ⟨hn, fun m hm => ?_⟩, rfl⟩
          exact Nat.le_of_succ_le_succ (hmin (m + 1) hm)

theorem contains_iff : contains p t = true ↔ ∃ m, StandsAt p t m := by
  rw [contains, Option.isSome_iff_ne_none, ne_eq, find?_eq_none_iff, not_forall]
  simp only [not_not]

theorem contains_iff_isInfix : contains p t = true ↔ p <:+: t := by
  rw [contains_iff]
  constructor
  · rintro ⟨m, hm⟩
    exact List.IsInfix.trans hm.isInfix (List.drop_suffix m t).isInfix
  · rintro ⟨a, b, rfl⟩
    refine ⟨a.length, ?_⟩
    rw [StandsAt, List.append_assoc, List.drop_left]
    exact List.prefix_append p b

theorem cut?_singleton_eq_none_iff : cut? [c] t = none ↔ c ∉ t := by
  rw [cut?, Option.map_eq_none_iff, ← Option.not_isSome_iff_eq_none, ← contains,
    contains_iff_isInfix, List.singleton_infix_iff]

/-- The cut divides the text around the pattern. -/
theorem eq_of_cut? {a b : Text} (h : cut? p t = some (a, b)) : t = a ++ p ++ b := by
  rw [cut?, Option.map_eq_some_iff] at h
  obtain ⟨n, hn, hab⟩ := h
  obtain ⟨rfl, rfl⟩ := Prod.mk.inj hab
  obtain ⟨r, hr⟩ := (find?_eq_some_iff.1 hn).1
  rw [← List.drop_drop, ← hr, List.drop_left, List.append_assoc, hr, List.take_append_drop]

theorem contains_cons (c : Char) :
    contains p (c :: t) = (p.isPrefixOf (c :: t) || contains p t) := by
  rw [contains, contains, find?]
  cases p.isPrefixOf (c :: t) <;> simp

theorem before_cons (c : Char) :
    before p (c :: t) = if p.isPrefixOf (c :: t) then [] else c :: before p t := by
  rw [before, cut?, find?]
  split_ifs with h
  · rfl
  · rw [before, cut?]
    cases find? p t <;> rfl

/-- Where the pattern does not begin, the first character stands in front of the cut. -/
theorem cut?_cons (h : ¬p.isPrefixOf (c :: t) = true) :
    cut? p (c :: t) = (cut? p t).map fun q => (c :: q.1, q.2) := by
  rw [cut?, cut?, find?, if_neg h, Option.map_map, Option.map_map]
  refine congrArg (Option.map · (find? p t)) (funext fun n => ?_)
  simp only [Function.comp_apply, Nat.add_right_comm n 1, List.take_succ_cons, List.drop_succ_cons]

/-! ### The search from the right -/

theorem rfind?_eq_none_iff : rfind? p t = none ↔ ∀ m, ¬StandsAt p t m := by
  induction t with
  | nil =>
    rw [rfind?]
    split_ifs with hp
    · simp [hp, StandsAt]
    · simp [not_standsAt_nil hp]
  | cons c t ih =>
    rw [rfind?]
    cases h : rfind? p t with
    | none =>
      have hno := ih.1 h
      simp only [ite_eq_right_iff, reduceCtorEq, imp_false, List.isPrefixOf_iff_prefix]
      constructor
      · rintro h₀ (_ | m)
        · exact h₀
        · exact hno m
      · exact fun h => h 0
    | some n =>
      simp only [reduceCtorEq, false_iff]
      intro hno
      exact absurd (ih.2 fun m => hno (m + 1)) (by simp [h])

theorem rfind?_eq_some_iff (hp : p ≠ []) :
    rfind? p t = some n ↔ StandsAt p t n ∧ ∀ m, StandsAt p t m → m ≤ n := by
  induction t generalizing n with
  | nil => simp [rfind?, hp, not_standsAt_nil hp]
  | cons c t ih =>
    rw [rfind?]
    cases h : rfind? p t with
    | none =>
      have hno := rfind?_eq_none_iff.1 h
      have hzero {m : Nat} (hm : StandsAt p (c :: t) m) : m = 0 := by
        cases m with
        | zero => rfl
        | succ m => exact absurd hm (hno m)
      simp only [List.isPrefixOf_iff_prefix]
      constructor
      · intro h
        split_ifs at h with h₀
        cases Option.some.inj h
        exact ⟨h₀, fun m hm => Nat.le_of_eq (hzero hm)⟩
      · rintro ⟨hn, -⟩
        obtain rfl := hzero hn
        exact if_pos hn
    | some k =>
      obtain ⟨hk, hmax⟩ := ih.1 h
      simp only [Option.some.injEq]
      constructor
      · rintro rfl
        refine ⟨hk, ?_⟩
        rintro (_ | m) hm
        · exact Nat.zero_le _
        · exact Nat.succ_le_succ (hmax m hm)
      · rintro ⟨hn, hmax'⟩
        refine Nat.le_antisymm (hmax' (k + 1) hk) ?_
        cases n with
        | zero => exact Nat.zero_le _
        | succ n => exact Nat.succ_le_succ (hmax n hn)

/-! ### The search for several patterns -/

section Patterns

variable {ps : List Text}

/-- The text goes on with one of the patterns at the offset `n`. -/
def AnyStandsAt (ps : List Text) (t : Text) (n : Nat) : Prop := ∃ p ∈ ps, StandsAt p t n

theorem anyStandsAt_zero_iff : AnyStandsAt ps t 0 ↔ (ps.any fun p => p.isPrefixOf t) = true := by
  simp [AnyStandsAt, StandsAt]

theorem not_anyStandsAt_nil (hps : [] ∉ ps) : ¬AnyStandsAt ps [] n := by
  rintro ⟨p, hp, h⟩
  exact not_standsAt_nil (fun hnil => hps (hnil ▸ hp)) h

theorem findAny?_eq_none_iff (hps : [] ∉ ps) :
    findAny? ps t = none ↔ ∀ m, ¬AnyStandsAt ps t m := by
  induction t with
  | nil =>
    rw [findAny?, if_neg hps]
    exact iff_of_true rfl fun m => not_anyStandsAt_nil hps
  | cons c t ih =>
    rw [findAny?]
    split_ifs with h
    · simp only [false_iff, not_forall, not_not]
      exact ⟨0, anyStandsAt_zero_iff.2 h⟩
    · rw [Option.map_eq_none_iff, ih]
      constructor
      · rintro hno (_ | m)
        · exact fun h₀ => h (anyStandsAt_zero_iff.1 h₀)
        · exact hno m
      · exact fun hno m => hno (m + 1)

theorem findAny?_eq_some_iff (hps : [] ∉ ps) :
    findAny? ps t = some n ↔ AnyStandsAt ps t n ∧ ∀ m, AnyStandsAt ps t m → n ≤ m := by
  induction t generalizing n with
  | nil =>
    rw [findAny?, if_neg hps]
    simp [not_anyStandsAt_nil hps]
  | cons c t ih =>
    rw [findAny?]
    split_ifs with h
    · have h₀ := anyStandsAt_zero_iff.2 h
      rw [Option.some.injEq]
      constructor
      · rintro rfl
        exact ⟨h₀, fun m _ => Nat.zero_le m⟩
      · exact fun hn => (Nat.le_zero.1 (hn.2 0 h₀)).symm
    · have h₀ : ¬AnyStandsAt ps (c :: t) 0 := fun h₀ => h (anyStandsAt_zero_iff.1 h₀)
      rw [Option.map_eq_some_iff]
      constructor
      · rintro ⟨m, hm, rfl⟩
        obtain ⟨hm, hmin⟩ := ih.1 hm
        refine ⟨hm, ?_⟩
        rintro (_ | l) hl
        · exact absurd hl h₀
        · exact Nat.succ_le_succ (hmin l hl)
      · rintro ⟨hn, hmin⟩
        cases n with
        | zero => exact absurd hn h₀
        | succ n =>
          refine ⟨n, ih.2 ⟨hn, fun m hm => ?_⟩, rfl⟩
          exact Nat.le_of_succ_le_succ (hmin (m + 1) hm)

end Patterns

/-! ### One more character at the end -/

section Concat

theorem after?_concat (hc : c ∉ p) (t : Text) :
    after? p (t ++ [c]) = (after? p t).map (· ++ [c]) := by
  induction p generalizing t with
  | nil => rfl
  | cons a p ih =>
    rw [List.mem_cons, not_or] at hc
    cases t with
    | nil => exact if_neg (Ne.symm hc.1)
    | cons d t =>
      rw [List.cons_append, after?, after?, ih hc.2]
      split_ifs <;> rfl

/-- A pattern without the character is found where it was found before. -/
theorem find?_concat (hne : p ≠ []) (hc : c ∉ p) (t : Text) : find? p (t ++ [c]) = find? p t := by
  have hpre (t : Text) : p.isPrefixOf (t ++ [c]) = p.isPrefixOf t := by
    rw [Bool.eq_iff_iff, List.isPrefixOf_iff_prefix, List.isPrefixOf_iff_prefix,
      List.prefix_concat_iff, or_iff_right_iff_imp]
    rintro rfl
    simp at hc
  induction t with
  | nil =>
    have hnil : p.isPrefixOf [c] = false := by
      rw [← List.nil_append [c], hpre]
      cases p with
      | nil => exact absurd rfl hne
      | cons a p => rfl
    simp [find?, hnil, hne]
  | cons d t ih =>
    have hd := hpre (d :: t)
    rw [List.cons_append] at hd ⊢
    rw [find?, find?, hd, ih]

theorem contains_concat (hne : p ≠ []) (hc : c ∉ p) (t : Text) :
    contains p (t ++ [c]) = contains p t := by
  rw [contains, find?_concat hne hc, contains]

theorem cut?_concat (hne : p ≠ []) (hc : c ∉ p) (t : Text) :
    cut? p (t ++ [c]) = (cut? p t).map fun q => (q.1, q.2 ++ [c]) := by
  rw [cut?, cut?, find?_concat hne hc, Option.map_map]
  cases h : find? p t with
  | none => rfl
  | some n =>
    have hle := find?_add_length_le h
    simp only [Option.map_some, Function.comp_apply]
    rw [List.take_append_of_le_length (by omega), List.drop_append_of_le_length hle]

end Concat

end Text

end DocDecl

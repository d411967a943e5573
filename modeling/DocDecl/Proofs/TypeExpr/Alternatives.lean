import DocDecl.Proofs.Delimiter.Balanced
import DocDecl.TypeExpr

/-!
# Unions and rest types

A type with several alternatives is brought into its form alternative by alternative, and keeps the
brackets that enclose all of it. A rest type is the array of what stands behind its dots, unless it
has several alternatives itself: the dots then belong to the first of them.

## Main results

* `isParenthesised_iff` : the texts that round brackets enclose.
* `alternatives_parenthesised`, `alternatives_of_not_isParenthesised` : alternatives.
* `declaredType_union`, `declaredType_parenthesised` : the form of a union.
* `declaredType_rest` : the form of a rest type.
* `declaredType_plain` : the form of any other type.
-/

namespace DocDecl

open LiteralGrammar Text

variable {b : Bool} {s t : Text}

/-! ### Alternatives -/

theorem isParenthesised_iff :
    isParenthesised t = true ↔ ∃ s, GroupBody s ∧ t = '(' :: (s ++ [')']) := by
  rw [isParenthesised, Bool.and_eq_true, beq_iff_eq, beq_iff_eq, afterGroup?_eq_some_iff]
  constructor
  · rintro ⟨hhead, g, ⟨hk, hs⟩, rfl⟩
    rw [List.append_nil] at hhead ⊢
    obtain rfl := Option.some.inj hhead
    obtain rfl := Option.some.inj hk
    exact ⟨_, hs, rfl⟩
  · rintro ⟨s, hs, rfl⟩
    exact ⟨rfl, _, .intro rfl hs, (List.append_nil _).symm⟩

theorem alternatives_parenthesised (h : GroupBody s) :
    alternatives ('(' :: (s ++ [')'])) = splitTopLevel (some '|') s := by
  rw [alternatives, if_pos (isParenthesised_iff.2 ⟨s, h, rfl⟩), insideGroup_append]

theorem alternatives_of_not_isParenthesised (h : isParenthesised t = false) :
    alternatives t = splitTopLevel (some '|') t := by
  rw [alternatives, h]
  rfl

theorem infix_of_mem_alternatives {a : Text} (h : a ∈ alternatives t) : a <:+: t := by
  refine (infix_of_mem_splitTopLevel h).trans ?_
  split_ifs
  · exact (List.dropLast_prefix t.tail).isInfix.trans (List.tail_suffix t).isInfix
  · exact List.infix_rfl

/-- Balanced code in which a bar separates is not enclosed by brackets. -/
theorem isParenthesised_eq_false (h : Balanced b t) (hp : ¬IsPiece sep 0 t) :
    isParenthesised t = false := by
  rw [Bool.eq_false_iff]
  intro hparen
  rw [isParenthesised, Bool.and_eq_true, beq_iff_eq, beq_iff_eq] at hparen
  obtain ⟨hhead, hafter⟩ := hparen
  cases h with
  | nil => simp at hhead
  | plain hc _ _ =>
    obtain rfl := Option.some.inj hhead
    exact absurd hc (by decide)
  | slash _ _ => simp at hhead
  | quoted hq _ _ =>
    obtain rfl := Option.some.inj hhead
    exact absurd hq (by decide)
  | @group _ o k s u hk hs _ =>
    obtain rfl := Option.some.inj hhead
    obtain rfl := Option.some.inj hk
    have hrest := (group?_eq_some_iff.1 (group?_balanced hk hs u)).1
    rw [hafter, Option.some.injEq] at hrest
    exact hp (hrest ▸ isPiece_parenthesised hs (Int.le_refl 0))

/-! ### The form of a type -/

/-- A type of several alternatives has a bar. -/
theorem bar_mem_of_alternatives (h : 1 < (alternatives t).length) : '|' ∈ t := by
  by_contra hbar
  refine absurd h (Nat.not_lt.2 (length_splitTopLevel_le (isPiece_of_not_mem fun hmem => ?_)))
  split_ifs at hmem
  · exact hbar (List.mem_of_mem_tail (List.dropLast_subset _ hmem))
  · exact hbar hmem

/-- The form of a union is that of its alternatives, in the brackets that enclose it. -/
theorem declaredType_of_alternatives (ht : trim t = t) (h : 1 < (alternatives t).length) :
    declaredType t =
      if isParenthesised t then
        "(" ++ join "|" ((alternatives t).map declaredType) ++ ")"
      else join "|" ((alternatives t).map declaredType) := by
  have hunion : '|' ∈ trim t ∧ 1 < (alternatives (trim t)).length := by
    rw [ht]
    exact ⟨bar_mem_of_alternatives h, h⟩
  have hmap (ts : List Text) : (ts.attach.map fun a => declaredType a.1) = ts.map declaredType :=
    List.attach_map_val
  rw [declaredType, dif_pos hunion]
  simp only [hmap, ht]

/-- Where no brackets enclose a union, its form is that of its alternatives. -/
theorem declaredType_union (ht : trim t = t) (hb : Balanced b t)
    (h : 1 < (splitTopLevel (some '|') t).length) :
    declaredType t = join "|" ((splitTopLevel (some '|') t).map declaredType) := by
  have hbare : isParenthesised t = false :=
    isParenthesised_eq_false hb fun hp => absurd h (Nat.not_lt.2 (length_splitTopLevel_le hp))
  have halternatives := alternatives_of_not_isParenthesised hbare
  rw [declaredType_of_alternatives ht (by rwa [halternatives]), hbare, halternatives]
  rfl

theorem trim_parenthesised (t : Text) : trim ('(' :: (t ++ [')'])) = '(' :: (t ++ [')']) :=
  trim_eq_self_iff.2 ⟨rfl, trimRight_append_singleton rfl ('(' :: t)⟩

/-- The brackets that enclose a union stay. -/
theorem declaredType_parenthesised (hs : GroupBody s)
    (h : 1 < (splitTopLevel (some '|') s).length) :
    declaredType ('(' :: (s ++ [')'])) =
      "(" ++ join "|" ((splitTopLevel (some '|') s).map declaredType) ++ ")" := by
  have halternatives := alternatives_parenthesised hs
  rw [declaredType_of_alternatives (trim_parenthesised s) (by rwa [halternatives]),
    if_pos (isParenthesised_iff.2 ⟨s, hs, rfl⟩), halternatives]

/-- A union is put into brackets, and the array marks stand behind all of it. -/
theorem restType_eq_append (t : Text) : restType t =
    (if '|' ∈ t ∧ t.head? ≠ some '(' then "(" ++ t ++ ")" else t) ++ "[]" := by
  rw [restType]
  split_ifs
  · rw [List.append_assoc ("(".toList ++ t)]
    rfl
  · rfl

theorem declaredType_of_after? {r : Text}
    (h : ¬('|' ∈ trim t ∧ 1 < (alternatives (trim t)).length))
    (hr : after? "..." (trim t) = some r) : declaredType t = restType (declaredType r) := by
  rw [declaredType, dif_neg h]
  split
  · next r' hr' => rw [Option.some.inj (hr'.symm.trans hr)]
  · next hnone => cases hnone.symm.trans hr

theorem declaredType_of_plain (h : ¬('|' ∈ trim t ∧ 1 < (alternatives (trim t)).length))
    (hr : after? "..." (trim t) = none) : declaredType t = plainType (trim t) := by
  rw [declaredType, dif_neg h]
  split
  · next r' hr' => cases hr'.symm.trans hr
  · rfl

theorem not_union_of_trim (ht : trim t = t) (h : ¬1 < (alternatives t).length) :
    ¬('|' ∈ trim t ∧ 1 < (alternatives (trim t)).length) := by
  rw [ht]
  exact fun hunion => h hunion.2

/-- The form of a rest type is the array of the type behind the dots. -/
theorem declaredType_rest (ht : trim ("..." ++ t) = "..." ++ t)
    (h : ¬1 < (alternatives ("..." ++ t)).length) :
    declaredType ("..." ++ t) = restType (declaredType t) :=
  declaredType_of_after? (not_union_of_trim ht h) (by rw [ht]; exact after?_eq_some_iff.2 rfl)

/-- A type that is no union and no rest type has a plain form. -/
theorem declaredType_plain (ht : trim t = t) (h : ¬1 < (alternatives t).length)
    (hdots : after? "..." t = none) : declaredType t = plainType t := by
  rw [declaredType_of_plain (not_union_of_trim ht h) (by rwa [ht]), ht]

end DocDecl

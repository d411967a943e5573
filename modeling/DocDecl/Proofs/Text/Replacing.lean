import DocDecl.Text.Basic
import Mathlib.Data.List.Induction

/-!
# Replacing

Where one character is replaced, the text is the characters one after the other, so replacing goes
over the parts of a text and over what stands in it. A longer pattern is replaced apart from
characters that do not stand in it, and taking a pattern out makes the text shorter wherever the
pattern stands in it.

## Main results

* `Text.replace_singleton` : one character, character by character.
* `Text.replace_singleton_append`, `Text.replace_singleton_isInfix` : parts of a text.
* `Text.replace_cons`, `Text.replace_concat` : characters that do not stand in the pattern.
* `Text.replace_pair`, `Text.replace_pair_cons` : a pattern of two characters.
* `Text.replace_of_not_isInfix`, `Text.length_replace_nil_lt` : a pattern that is not there, and one
  that is taken out.
-/

namespace DocDecl

namespace Text

variable {c d e : Char} {old new s t : Text}

/-! ### One character -/

theorem replace_singleton (c : Char) (new t : Text) :
    replace [c] new t = t.flatMap fun d => if d = c then new else [d] := by
  rw [replace, if_neg (List.cons_ne_nil c [])]
  induction t with
  | nil => rfl
  | cons d t ih =>
    have hp : [c].isPrefixOf (d :: t) = (d == c) := by simp [List.isPrefixOf, eq_comm]
    rw [replaceAfter, hp, List.flatMap_cons]
    by_cases hd : d = c
    · rw [beq_iff_eq.2 hd, if_pos rfl, if_pos hd]
      exact congrArg (new ++ ·) ih
    · rw [beq_false_of_ne hd, if_neg hd]
      exact congrArg (d :: ·) ih

theorem replace_singleton_cons_self (c : Char) (new t : Text) :
    replace [c] new (c :: t) = new ++ replace [c] new t := by
  rw [replace_singleton, replace_singleton, List.flatMap_cons, if_pos rfl]

theorem replace_singleton_cons_of_ne (h : d ≠ c) (new t : Text) :
    replace [c] new (d :: t) = d :: replace [c] new t := by
  rw [replace_singleton, replace_singleton, List.flatMap_cons, if_neg h]
  rfl

theorem replace_singleton_append (c : Char) (new s t : Text) :
    replace [c] new (s ++ t) = replace [c] new s ++ replace [c] new t := by
  simp only [replace_singleton, List.flatMap_append]

theorem replace_singleton_of_notMem (h : c ∉ t) (new : Text) : replace [c] new t = t := by
  rw [replace_singleton]
  induction t with
  | nil => rfl
  | cons d t ih =>
    rw [List.mem_cons, not_or] at h
    rw [List.flatMap_cons, if_neg (Ne.symm h.1), ih h.2]
    rfl

theorem replace_singleton_isInfix (h : s <:+: t) (c : Char) (new : Text) :
    replace [c] new s <:+: replace [c] new t := by
  obtain ⟨u, w, rfl⟩ := h
  exact ⟨replace [c] new u, replace [c] new w, by simp only [replace_singleton_append]⟩

theorem length_replace_singleton (c d : Char) (t : Text) :
    (replace [c] [d] t).length = t.length := by
  rw [replace_singleton]
  induction t with
  | nil => rfl
  | cons e t ih =>
    rw [List.flatMap_cons, List.length_append, ih]
    split_ifs <;> simp [Nat.add_comm]

/-! ### Patterns -/

/-- What stands in a text after replacing stood there before, or is put in. -/
theorem mem_of_mem_replace (hne : old ≠ []) (h : c ∈ replace old new t) : c ∈ t ∨ c ∈ new := by
  have hafter (skip : Nat) (t : Text) (h : c ∈ replaceAfter old new skip t) :
      c ∈ t ∨ c ∈ new := by
    fun_induction replaceAfter old new skip t with
    | case1 => cases h
    | case2 skip d t ih => exact (ih h).imp_left (List.mem_cons_of_mem d)
    | case3 d t _ ih =>
      rcases List.mem_append.1 h with h | h
      · exact .inr h
      · exact (ih h).imp_left (List.mem_cons_of_mem d)
    | case4 d t _ ih =>
      rcases List.mem_cons.1 h with rfl | h
      · exact .inl List.mem_cons_self
      · exact (ih h).imp_left (List.mem_cons_of_mem d)
  rw [replace, if_neg hne] at h
  exact hafter 0 t h

theorem not_isPrefixOf_cons (hne : old ≠ []) (hc : c ∉ old) (t : Text) :
    ¬old.isPrefixOf (c :: t) = true := by
  rw [List.isPrefixOf_iff_prefix]
  intro h
  obtain ⟨d, old, rfl⟩ := List.exists_cons_of_ne_nil hne
  obtain ⟨rfl, -⟩ := List.cons_prefix_cons.1 h
  exact hc List.mem_cons_self

/-- A character that is not in the pattern may stand in front. -/
theorem replace_cons (hne : old ≠ []) (hc : c ∉ old) (new t : Text) :
    replace old new (c :: t) = c :: replace old new t := by
  rw [replace, replace, if_neg hne, if_neg hne, replaceAfter,
    if_neg (not_isPrefixOf_cons hne hc t)]

/-- It may stand at the end as well. -/
theorem replace_concat (hne : old ≠ []) (hc : c ∉ old) (new t : Text) :
    replace old new (t ++ [c]) = replace old new t ++ [c] := by
  have hafter (skip : Nat) (t : Text) (hskip : skip ≤ t.length) :
      replaceAfter old new skip (t ++ [c]) = replaceAfter old new skip t ++ [c] := by
    fun_induction replaceAfter old new skip t with
    | case1 skip =>
      obtain rfl := Nat.le_zero.1 hskip
      rw [List.nil_append, replaceAfter, if_neg (not_isPrefixOf_cons hne hc [])]
      simp [replaceAfter]
    | case2 skip d t ih =>
      rw [List.cons_append, replaceAfter, ih (Nat.le_of_succ_le_succ hskip)]
    | case3 d t hprefix ih =>
      have hlength := (List.isPrefixOf_iff_prefix.1 hprefix).length_le
      rw [List.length_cons] at hlength
      have hprefix' : old.isPrefixOf (d :: (t ++ [c])) = true :=
        List.isPrefixOf_iff_prefix.2
          ((List.isPrefixOf_iff_prefix.1 hprefix).trans (List.prefix_append (d :: t) [c]))
      rw [List.cons_append, replaceAfter, if_pos hprefix', ih (by omega), List.append_assoc]
    | case4 d t hprefix ih =>
      have hprefix' : ¬old.isPrefixOf (d :: (t ++ [c])) = true := by
        rw [List.isPrefixOf_iff_prefix, ← List.cons_append, List.prefix_concat_iff]
        rintro (rfl | h)
        · simp at hc
        · exact hprefix (List.isPrefixOf_iff_prefix.2 h)
      rw [List.cons_append, replaceAfter, if_neg hprefix', ih (Nat.zero_le _), List.cons_append]
  rw [replace, replace, if_neg hne, if_neg hne, hafter 0 t (Nat.zero_le _)]

/-- Where something is put in for a pattern, nothing is left of the empty text alone. -/
theorem replace_eq_nil_iff (hold : old ≠ []) (hnew : new ≠ []) :
    replace old new t = [] ↔ t = [] := by
  rw [replace, if_neg hold]
  cases t with
  | nil => rw [replaceAfter]
  | cons c t =>
    rw [replaceAfter]
    split_ifs <;> simp [hnew]

/-! ### Pairs -/

theorem replace_pair (c d : Char) (new t : Text) :
    replace [c, d] new (c :: d :: t) = new ++ replace [c, d] new t := by
  rw [replace, if_neg (List.cons_ne_nil c [d]), replaceAfter, if_pos (by simp [List.isPrefixOf])]
  rfl

theorem replace_pair_cons (h : ¬(e = c ∧ t.head? = some d)) (new : Text) :
    replace [c, d] new (e :: t) = e :: replace [c, d] new t := by
  have hprefix : ¬[c, d].isPrefixOf (e :: t) = true := by
    rw [List.isPrefixOf_iff_prefix]
    rintro ⟨r, hr⟩
    cases hr
    exact h ⟨rfl, rfl⟩
  rw [replace, replace, if_neg (List.cons_ne_nil c [d]), if_neg (List.cons_ne_nil c [d]),
    replaceAfter, if_neg hprefix]

/-- Pairs apart from the other characters. -/
@[elab_as_elim]
theorem pair_induction (c d : Char) {motive : Text → Prop} (nil : motive [])
    (pair : ∀ t, motive t → motive (c :: d :: t))
    (cons : ∀ e t, ¬(e = c ∧ t.head? = some d) → motive t → motive (e :: t)) (t : Text) :
    motive t := by
  induction t using List.twoStepInduction with
  | nil => exact nil
  | singleton e => exact cons e [] (by simp) nil
  | cons_cons e f t iht ihf =>
    by_cases h : e = c ∧ f = d
    · obtain ⟨rfl, rfl⟩ := h
      exact pair t iht
    · exact cons e (f :: t) (by simpa using h) (ihf f)

/-- A pair that its own beginning replaces keeps the beginning of the text. -/
theorem head?_replace_pair (c d : Char) (t : Text) :
    (replace [c, d] [c] t).head? = t.head? := by
  cases t using pair_induction c d with
  | nil => rfl
  | pair t => rw [replace_pair]; rfl
  | cons e t h => rw [replace_pair_cons h]; rfl

/-! ### Patterns that are not there, and patterns that are taken out -/

theorem replace_of_not_isInfix (hne : old ≠ []) (h : ¬old <:+: t) (new : Text) :
    replace old new t = t := by
  rw [replace, if_neg hne]
  induction t with
  | nil => rfl
  | cons d t ih =>
    rw [List.infix_cons_iff, not_or, ← List.isPrefixOf_iff_prefix] at h
    rw [replaceAfter, if_neg h.1, ih h.2]

theorem length_replaceAfter_nil_le (old : Text) (skip : Nat) (t : Text) :
    (replaceAfter old [] skip t).length ≤ t.length := by
  fun_induction replaceAfter old [] skip t with
  | case1 => exact Nat.le_refl _
  | case2 skip d t ih => exact Nat.le_succ_of_le ih
  | case3 d t _ ih => exact Nat.le_succ_of_le ih
  | case4 d t _ ih => exact Nat.succ_le_succ ih

/-- A text gets shorter where a pattern is taken out. -/
theorem length_replace_nil_lt (hne : old ≠ []) (h : old <:+: t) :
    (replace old [] t).length < t.length := by
  rw [replace, if_neg hne]
  induction t with
  | nil => exact absurd (List.infix_nil.1 h) hne
  | cons d t ih =>
    rw [replaceAfter]
    split_ifs with hprefix
    · exact Nat.lt_succ_of_le (length_replaceAfter_nil_le old _ t)
    · rw [List.infix_cons_iff, ← List.isPrefixOf_iff_prefix] at h
      exact Nat.succ_lt_succ (ih (h.resolve_left hprefix))

theorem length_replace_nil_le (hne : old ≠ []) (t : Text) :
    (replace old [] t).length ≤ t.length := by
  rw [replace, if_neg hne]
  exact length_replaceAfter_nil_le old 0 t

end Text

end DocDecl

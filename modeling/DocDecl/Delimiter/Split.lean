import DocDecl.Delimiter.Basic

/-!
# Splitting outside brackets and strings

A separator inside brackets or a string does not separate. Brackets are counted only, not matched,
so the depth may fall below zero, where nothing separates either.

## Main definitions

* `piecesAt` : the pieces between the separators at depth zero.
* `splitTopLevel` : the pieces without surrounding blanks, empty ones left out.

## Main results

* `join_piecesAt` : the pieces and the separators make up the text.
* `length_lt_of_mem_splitTopLevel` : of two pieces or more, each is shorter than the text.
-/

namespace DocDecl

/-- Puts a text in front of the first piece. -/
def prependFirst (t : Text) : List Text → List Text
  | [] => [t]
  | p :: ps => (t ++ p) :: ps

/-- The pieces between the separators at depth zero, when the text starts at the given depth. A
bracket or a quote never separates. -/
def piecesAt (sep : Option Char) (depth : Int) : Text → List Text
  | [] => [[]]
  | c :: t =>
    if isQuote c then
      prependFirst (c :: (spanQuoted c t).1) (piecesAt sep depth (spanQuoted c t).2)
    else if (closer? c).isSome then prependFirst [c] (piecesAt sep (depth + 1) t)
    else if isCloser c then prependFirst [c] (piecesAt sep (depth - 1) t)
    else if some c = sep ∧ depth = 0 then [] :: piecesAt sep depth t
    else prependFirst [c] (piecesAt sep depth t)
termination_by t => t.length
decreasing_by
  all_goals simp only [List.length_cons]
  · have := length_spanQuoted_le c t
    omega
  all_goals omega

/-- The pieces between the separators outside brackets and strings, without surrounding blanks and
without the empty ones. -/
def splitTopLevel (sep : Option Char) (t : Text) : List Text :=
  ((piecesAt sep 0 t).map Text.trim).filter fun p => !p.isEmpty

theorem prependFirst_ne_nil (t : Text) (ps : List Text) : prependFirst t ps ≠ [] := by
  cases ps <;> simp [prependFirst]

theorem piecesAt_ne_nil (sep : Option Char) (depth : Int) (t : Text) :
    piecesAt sep depth t ≠ [] := by
  rw [piecesAt.eq_def]
  split
  · simp
  · split
    · exact prependFirst_ne_nil _ _
    · split
      · exact prependFirst_ne_nil _ _
      · split
        · exact prependFirst_ne_nil _ _
        · split
          · simp
          · exact prependFirst_ne_nil _ _

theorem join_prependFirst (sep t : Text) {ps : List Text} (h : ps ≠ []) :
    Text.join sep (prependFirst t ps) = t ++ Text.join sep ps := by
  cases ps with
  | nil => exact absurd rfl h
  | cons p ps => cases ps <;> simp [prependFirst, Text.join, List.intercalate]

theorem join_piecesAt (sep : Char) (depth : Int) (t : Text) :
    Text.join [sep] (piecesAt (some sep) depth t) = t := by
  fun_induction piecesAt (some sep) depth t with
  | case1 => simp [Text.join, List.intercalate]
  | case2 depth c t _ ih =>
    rw [join_prependFirst _ _ (piecesAt_ne_nil _ _ _), ih, List.cons_append, append_spanQuoted]
  | case3 depth c t _ _ ih => rw [join_prependFirst _ _ (piecesAt_ne_nil _ _ _), ih]; rfl
  | case4 depth c t _ _ _ ih => rw [join_prependFirst _ _ (piecesAt_ne_nil _ _ _), ih]; rfl
  | case5 depth c t _ _ _ _ ih =>
    cases hp : piecesAt (some sep) depth t with
    | nil => exact absurd hp (piecesAt_ne_nil _ _ _)
    | cons p ps =>
      rw [hp] at ih
      simp_all [Text.join, List.intercalate]
  | case6 depth c t _ _ _ _ ih => rw [join_prependFirst _ _ (piecesAt_ne_nil _ _ _), ih]; rfl

theorem length_prependFirst (t : Text) {ps : List Text} (h : ps ≠ []) :
    (prependFirst t ps).length = ps.length := by
  cases ps with
  | nil => exact absurd rfl h
  | cons p ps => rfl

/-- A piece and the other separators fit into the text. -/
theorem length_add_length_le_of_mem_piecesAt {sep : Option Char} {depth : Int} {t p : Text}
    (h : p ∈ piecesAt sep depth t) :
    p.length + (piecesAt sep depth t).length ≤ t.length + 1 := by
  have aux : ∀ (s : Text) (ps : List Text) (n : Nat), ps ≠ [] →
      (∀ q ∈ ps, q.length + ps.length ≤ n + 1) →
      ∀ q ∈ prependFirst s ps, q.length + (prependFirst s ps).length ≤ s.length + n + 1 := by
    intro s ps n hne hps q hq
    cases ps with
    | nil => exact absurd rfl hne
    | cons a as =>
      simp only [prependFirst, List.mem_cons, List.length_cons] at hq hps ⊢
      rcases hq with rfl | hq
      · have := hps a (Or.inl rfl)
        simp only [List.length_append]
        omega
      · have := hps q (Or.inr hq)
        omega
  fun_induction piecesAt sep depth t generalizing p with
  | case1 => simp_all
  | case2 depth c t _ ih =>
    have := aux _ _ _ (piecesAt_ne_nil _ _ _) (fun q hq => ih hq) p h
    have hl := congrArg List.length (append_spanQuoted c t)
    simp only [List.length_append, List.length_cons] at this hl ⊢
    omega
  | case3 depth c t _ _ ih =>
    have := aux _ _ _ (piecesAt_ne_nil _ _ _) (fun q hq => ih hq) p h
    simp only [List.length_cons, List.length_nil] at this ⊢
    omega
  | case4 depth c t _ _ _ ih =>
    have := aux _ _ _ (piecesAt_ne_nil _ _ _) (fun q hq => ih hq) p h
    simp only [List.length_cons, List.length_nil] at this ⊢
    omega
  | case5 depth c t _ _ _ _ ih =>
    simp only [List.mem_cons, List.length_cons] at h ⊢
    rcases h with rfl | h
    · cases hp : piecesAt sep depth t with
      | nil => exact absurd hp (piecesAt_ne_nil _ _ _)
      | cons a as =>
        have := ih (p := a) (by simp [hp])
        simp only [hp, List.length_cons, List.length_nil] at this ⊢
        omega
    · have := ih h
      omega
  | case6 depth c t _ _ _ _ ih =>
    have := aux _ _ _ (piecesAt_ne_nil _ _ _) (fun q hq => ih hq) p h
    simp only [List.length_cons, List.length_nil] at this ⊢
    omega

theorem length_lt_of_mem_splitTopLevel {sep : Option Char} {t p : Text}
    (h : p ∈ splitTopLevel sep t) (hl : 1 < (splitTopLevel sep t).length) :
    p.length < t.length := by
  simp only [splitTopLevel, List.mem_filter, List.mem_map] at h
  obtain ⟨⟨q, hq, rfl⟩, _⟩ := h
  have h1 := length_add_length_le_of_mem_piecesAt hq
  have h2 : (splitTopLevel sep t).length ≤ (piecesAt sep 0 t).length := by
    simpa [splitTopLevel] using
      List.length_filter_le (fun p : Text => !p.isEmpty) ((piecesAt sep 0 t).map Text.trim)
  have h3 := Text.length_trim_le q
  omega

end DocDecl

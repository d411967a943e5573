import DocDecl.Proofs.Text.Search

/-!
# Pieces

Cutting a text at a separator and joining pieces without one undo each other. A cut at one place of
the separator divides the pieces into those before and those behind it.

## Main results

* `Text.splitOn_append_cons` : the pieces on both sides of a separator.
* `Text.splitOn_join` : the pieces of a joined text.
* `Text.rcut?_singleton_eq_some` : the cut at the last place of a character.
-/

namespace DocDecl

namespace Text

variable {sep : Char} {t : Text}

/-! ### Cutting -/

theorem splitOn_of_not_mem (h : sep ∉ t) : splitOn sep t = [t] := by
  induction t with
  | nil => rfl
  | cons c t ih =>
    rw [List.mem_cons, not_or] at h
    rw [splitOn, if_neg (Ne.symm h.1), ih h.2]

/-- The pieces on both sides of a separator. -/
theorem splitOn_append_cons (sep : Char) (s t : Text) :
    splitOn sep (s ++ sep :: t) = splitOn sep s ++ splitOn sep t := by
  induction s with
  | nil =>
    have hnil : splitOn sep (sep :: t) = [] :: splitOn sep t := if_pos rfl
    rw [List.nil_append, hnil]
    rfl
  | cons c s ih =>
    rw [List.cons_append, splitOn, splitOn, ih]
    split_ifs with hc
    · rfl
    · cases hs : splitOn sep s with
      | nil => exact absurd hs (splitOn_ne_nil sep s)
      | cons p ps => rfl

theorem not_mem_of_mem_splitOn {p : Text} (h : p ∈ splitOn sep t) : sep ∉ p := by
  induction t generalizing p with
  | nil =>
    obtain rfl := List.mem_singleton.1 h
    exact List.not_mem_nil
  | cons c t ih =>
    rw [splitOn] at h
    split_ifs at h with hc
    · rcases List.mem_cons.1 h with rfl | h
      · exact List.not_mem_nil
      · exact ih h
    · cases hs : splitOn sep t with
      | nil => exact absurd hs (splitOn_ne_nil sep t)
      | cons q qs =>
        rw [hs] at h ih
        rcases List.mem_cons.1 h with rfl | h
        · rw [List.mem_cons, not_or]
          exact ⟨Ne.symm hc, ih List.mem_cons_self⟩
        · exact ih (List.mem_cons_of_mem q h)

/-! ### Joining -/

theorem join_cons {ts : List Text} (h : ts ≠ []) (sep t : Text) :
    join sep (t :: ts) = t ++ sep ++ join sep ts := by
  cases ts with
  | nil => exact absurd rfl h
  | cons u ts => simp [join, List.intercalate]

theorem join_concat {ts : List Text} (h : ts ≠ []) (sep t : Text) :
    join sep (ts ++ [t]) = join sep ts ++ sep ++ t := by
  induction ts with
  | nil => exact absurd rfl h
  | cons u ts ih =>
    by_cases hts : ts = []
    · subst hts
      simp [join, List.intercalate]
    · rw [List.cons_append, join_cons (List.append_ne_nil_of_left_ne_nil hts _), ih hts,
        join_cons hts]
      simp only [List.append_assoc]

theorem join_append_cons (sep s t : Text) (ts : List Text) :
    join sep ((s ++ t) :: ts) = s ++ join sep (t :: ts) := by
  by_cases hts : ts = []
  · simp [hts, join]
  · simp [join_cons hts]

theorem prefix_join (t sep : Text) (ts : List Text) : t <+: join sep (t :: ts) := by
  by_cases hts : ts = []
  · simp [hts, join]
  · rw [join_cons hts, List.append_assoc]
    exact List.prefix_append t _

/-- A piece behind another one stands behind a separator. -/
theorem infix_join_cons {ts : List Text} {t : Text} (h : t ∈ ts) (sep u : Text) :
    sep ++ t <:+: join sep (u :: ts) := by
  induction ts generalizing u with
  | nil => cases h
  | cons w ts ih =>
    rw [join_cons (List.cons_ne_nil w ts), List.append_assoc]
    refine List.IsInfix.trans ?_ (List.suffix_append u _).isInfix
    rcases List.mem_cons.1 h with rfl | h
    · exact ((List.prefix_append_right_inj sep).2 (prefix_join t sep ts)).isInfix
    · exact (ih h w).trans (List.suffix_append sep _).isInfix

theorem infix_join {ts : List Text} {t : Text} (h : t ∈ ts) (sep : Text) : t <:+: join sep ts := by
  cases ts with
  | nil => cases h
  | cons u ts =>
    rcases List.mem_cons.1 h with rfl | h
    · exact (prefix_join t sep ts).isInfix
    · exact (List.suffix_append sep t).isInfix.trans (infix_join_cons h sep u)

/-- Joined pieces without the separator are the pieces of the text. -/
theorem splitOn_join {ts : List Text} (hne : ts ≠ []) (h : ∀ s ∈ ts, sep ∉ s) :
    splitOn sep (join [sep] ts) = ts := by
  induction ts with
  | nil => exact absurd rfl hne
  | cons s ts ih =>
    obtain ⟨hs, hts⟩ := List.forall_mem_cons.1 h
    by_cases hnil : ts = []
    · subst hnil
      have hjoin : join [sep] [s] = s := by simp [join, List.intercalate]
      rw [hjoin, splitOn_of_not_mem hs]
    · rw [join_cons hnil, List.append_assoc, List.singleton_append, splitOn_append_cons,
        splitOn_of_not_mem hs, ih hnil hts, List.singleton_append]

theorem concat_unsnoc {ts : List Text} (h : ts ≠ []) : (unsnoc ts).1 ++ [(unsnoc ts).2] = ts := by
  rw [unsnoc, List.getLastD_eq_getLast?, List.getLast?_eq_some_getLast h, Option.getD_some,
    List.dropLast_concat_getLast]

/-! ### The last place of a character -/

theorem rcut?_singleton_eq_none {c : Char} (h : rcut? [c] t = none) : c ∉ t := by
  rw [rcut?, Option.map_eq_none_iff, rfind?_eq_none_iff] at h
  intro hc
  obtain ⟨n, hn, heq⟩ := List.mem_iff_getElem.1 hc
  refine h n ?_
  rw [StandsAt, List.drop_eq_getElem_cons hn, heq]
  exact List.prefix_append [c] _

/-- The cut at the last place of a character leaves none behind it. -/
theorem rcut?_singleton_eq_some {c : Char} {a b : Text} (h : rcut? [c] t = some (a, b)) :
    t = a ++ c :: b ∧ c ∉ b := by
  rw [rcut?, Option.map_eq_some_iff] at h
  obtain ⟨n, hn, hab⟩ := h
  obtain ⟨rfl, rfl⟩ := Prod.mk.inj hab
  obtain ⟨⟨r, hr⟩, hmax⟩ := (rfind?_eq_some_iff (List.cons_ne_nil c [])).1 hn
  have hdrop : t.drop (n + 1) = r := by
    rw [← List.drop_drop, ← hr]
    rfl
  refine ⟨?_, fun hc => ?_⟩
  · rw [List.length_singleton, hdrop]
    exact ((List.take_append_drop n t).symm.trans (by rw [← hr]; rfl))
  · rw [List.length_singleton] at hc
    obtain ⟨m, hm, heq⟩ := List.mem_iff_getElem.1 hc
    have hstands : StandsAt [c] t (n + 1 + m) := by
      rw [StandsAt, ← List.drop_drop, List.drop_eq_getElem_cons hm, heq]
      exact List.prefix_append [c] _
    have := hmax _ hstands
    omega

end Text

end DocDecl

import DocDecl.Delimiter.Split
import DocDecl.Proofs.Delimiter.Grammar
import DocDecl.Proofs.Text.Pieces
import DocDecl.Proofs.Text.Trim

/-!
# What is split stays split

The scan for separators knows the depth of the brackets and nothing else, so it goes over a piece in
the same way whether the piece stands alone or in its text: behind a separator the depth is zero,
and no string is open there. A part of a piece has no separators that the piece does not have, which
is why the blanks around a piece can be taken away.

## Main definitions

* `IsPiece` : a text in which nothing separates.
* `IsClosedPiece` : such a text with nothing left open in it.

## Main results

* `exists_isPiece` : the pieces of a text are such texts.
* `IsPiece.trim` : a piece without its surrounding blanks is one.
* `IsClosedPiece.splitTopLevel_append_cons` : the part in front of a separator.
* `splitTopLevel_spec` : nothing is lost, and the parts are not split again.
-/

namespace DocDecl

open LiteralGrammar Text

variable {c k o q : Char} {s t : Text}

/-! ### Steps of the scan -/

section Steps

variable {sep : Option Char} {depth : Int}

theorem prependFirst_nil {ps : List Text} (h : ps ≠ []) : prependFirst [] ps = ps := by
  cases ps with
  | nil => exact absurd rfl h
  | cons p ps => rfl

theorem prependFirst_prependFirst (s t : Text) (ps : List Text) :
    prependFirst s (prependFirst t ps) = prependFirst (s ++ t) ps := by
  cases ps with
  | nil => rfl
  | cons p ps => exact congrArg (· :: ps) (List.append_assoc s t p).symm

theorem piecesAt_quoted (hq : isQuote q = true) (hs : IsQuoted q s) (t : Text) :
    piecesAt sep depth (q :: (s ++ q :: t)) =
      prependFirst (q :: (s ++ [q])) (piecesAt sep depth t) := by
  rw [piecesAt, if_pos hq, spanQuoted_of_isQuoted hq hs]

theorem piecesAt_open (hk : closer? o = some k) (t : Text) :
    piecesAt sep depth (o :: t) = prependFirst [o] (piecesAt sep (depth + 1) t) := by
  have hq : isQuote o = false := by
    rw [closer?.eq_def] at hk
    split at hk
    all_goals first | rfl | cases hk
  rw [piecesAt, hq, hk]
  rfl

theorem piecesAt_close (hk : isCloser k = true) (t : Text) :
    piecesAt sep depth (k :: t) = prependFirst [k] (piecesAt sep (depth - 1) t) := by
  have hmark : isQuote k = false ∧ (closer? k).isSome = false := by
    simp only [isCloser, Bool.or_eq_true, beq_iff_eq] at hk
    rcases hk with (rfl | rfl) | rfl
    all_goals exact ⟨by decide, by decide⟩
  rw [piecesAt, hmark.1, hmark.2, hk]
  rfl

/-- A slash is a mark of the scan over brackets, as a comment may begin there, but not of this
one. -/
theorem isMark_eq_false_or_eq_slash_iff : isMark c = false ∨ c = '/' ↔
    ¬isQuote c = true ∧ ¬(closer? c).isSome = true ∧ ¬isCloser c = true := by
  by_cases hc : c = '/'
  · subst hc
    decide
  · simp [isMark, hc, and_assoc]

theorem piecesAt_plain (hc : isMark c = false ∨ c = '/') (hsep : ¬(some c = sep ∧ depth = 0))
    (t : Text) : piecesAt sep depth (c :: t) = prependFirst [c] (piecesAt sep depth t) := by
  obtain ⟨hq, ho, hk⟩ := isMark_eq_false_or_eq_slash_iff.1 hc
  rw [piecesAt, if_neg hq, if_neg ho, if_neg hk, if_neg hsep]

theorem piecesAt_separator (hc : isMark c = false ∨ c = '/') (t : Text) :
    piecesAt (some c) 0 (c :: t) = [] :: piecesAt (some c) 0 t := by
  obtain ⟨hq, ho, hk⟩ := isMark_eq_false_or_eq_slash_iff.1 hc
  rw [piecesAt, if_neg hq, if_neg ho, if_neg hk, if_pos ⟨rfl, rfl⟩]

/-- A string that is not closed takes all of the text. -/
theorem piecesAt_unclosed (hq : isQuote q = true) (h : (spanQuoted q t).2 = []) :
    piecesAt sep depth (q :: t) = [q :: t] := by
  have ht := append_spanQuoted q t
  rw [h, List.append_nil] at ht
  rw [piecesAt, if_pos hq, h, ht, piecesAt]
  simp [prependFirst]

end Steps

/-! ### Texts in which nothing separates -/

/-- A text in which no separator stands outside brackets and strings, when it starts at the given
depth. -/
def IsPiece (sep : Char) (depth : Int) (t : Text) : Prop := piecesAt (some sep) depth t = [t]

instance (sep : Char) (depth : Int) (t : Text) : Decidable (IsPiece sep depth t) :=
  inferInstanceAs (Decidable (_ = _))

variable {sep : Char} {depth : Int}

theorem isPiece_iff : IsPiece sep depth t ↔ (piecesAt (some sep) depth t).length ≤ 1 := by
  constructor
  · intro h
    rw [IsPiece] at h
    rw [h, List.length_singleton]
  · intro h
    obtain ⟨p, hp⟩ := List.length_eq_one_iff.1
      (Nat.le_antisymm h (List.length_pos_iff.2 (piecesAt_ne_nil (some sep) depth t)))
    have hjoin := join_piecesAt sep depth t
    rw [hp] at hjoin
    rw [IsPiece, hp, ← hjoin]
    simp [join, List.intercalate]

/-- Nothing separates where the separator does not stand. -/
theorem isPiece_of_not_mem (h : sep ∉ t) : IsPiece sep depth t := by
  have hjoin := join_piecesAt sep depth t
  rw [isPiece_iff]
  cases hp : piecesAt (some sep) depth t with
  | nil => exact absurd hp (piecesAt_ne_nil _ _ _)
  | cons p ps =>
    rw [hp] at hjoin
    by_cases hps : ps = []
    · simp [hps]
    · rw [join_cons hps] at hjoin
      exact absurd (hjoin ▸ by simp) h

theorem length_splitTopLevel_le (h : IsPiece sep 0 t) :
    (splitTopLevel (some sep) t).length ≤ 1 := by
  rw [IsPiece] at h
  rw [splitTopLevel, h]
  exact List.length_filter_le _ _

/-- The beginning of a text has no more pieces than the text. -/
theorem length_piecesAt_le_append (s t : Text) :
    (piecesAt (some sep) depth s).length ≤ (piecesAt (some sep) depth (s ++ t)).length := by
  have hpos (depth : Int) (u : Text) : 0 < (piecesAt (some sep) depth u).length :=
    List.length_pos_iff.2 (piecesAt_ne_nil _ _ u)
  fun_induction piecesAt (some sep) depth s with
  | case1 depth => exact hpos depth _
  | case2 depth c s hq ih =>
    by_cases hclosed : (spanQuoted c s).2 = []
    · rw [hclosed, piecesAt]
      exact hpos depth _
    · obtain ⟨w, hw, hs⟩ := exists_isQuoted hclosed
      have happend : c :: s ++ t = c :: (w ++ c :: ((spanQuoted c s).2 ++ t)) := by
        conv_lhs => rw [hs]
        simp
      rw [happend, piecesAt_quoted hq hw, length_prependFirst _ (piecesAt_ne_nil _ _ _),
        length_prependFirst _ (piecesAt_ne_nil _ _ _)]
      exact ih
  | case3 depth c s hq ho ih =>
    obtain ⟨k, hk⟩ := Option.isSome_iff_exists.1 ho
    rw [List.cons_append, piecesAt_open hk, length_prependFirst _ (piecesAt_ne_nil _ _ _),
      length_prependFirst _ (piecesAt_ne_nil _ _ _)]
    exact ih
  | case4 depth c s hq ho hk ih =>
    rw [List.cons_append, piecesAt_close hk, length_prependFirst _ (piecesAt_ne_nil _ _ _),
      length_prependFirst _ (piecesAt_ne_nil _ _ _)]
    exact ih
  | case5 depth c s hq ho hk hsep ih =>
    obtain ⟨hc, rfl⟩ := hsep
    obtain rfl := Option.some.inj hc
    have hplain := isMark_eq_false_or_eq_slash_iff.2 ⟨hq, ho, hk⟩
    rw [List.cons_append, piecesAt_separator hplain]
    exact Nat.succ_le_succ ih
  | case6 depth c s hq ho hk hsep ih =>
    have hplain := isMark_eq_false_or_eq_slash_iff.2 ⟨hq, ho, hk⟩
    rw [List.cons_append, piecesAt_plain hplain hsep,
      length_prependFirst _ (piecesAt_ne_nil _ _ _), length_prependFirst _ (piecesAt_ne_nil _ _ _)]
    exact ih

/-- Characters may stand in front of a piece that the scan goes over in one step. -/
theorem IsPiece.prepend {depth' : Int} {w p : Text} (hp : IsPiece sep depth' p)
    (hw : piecesAt (some sep) depth (w ++ p) = prependFirst w (piecesAt (some sep) depth' p)) :
    IsPiece sep depth (w ++ p) := by
  rw [IsPiece] at hp ⊢
  rw [hw, hp, prependFirst]

/-- Each piece of a text is one where it starts: the first where the text does, the others behind a
separator. -/
theorem exists_isPiece (sep : Char) (depth : Int) (t : Text) :
    ∃ p ps, piecesAt (some sep) depth t = p :: ps ∧ IsPiece sep depth p ∧
      ∀ q ∈ ps, IsPiece sep 0 q := by
  fun_induction piecesAt (some sep) depth t with
  | case1 depth => exact ⟨[], [], rfl, by rw [IsPiece, piecesAt], by simp⟩
  | case2 depth c s hq ih =>
    obtain ⟨p, ps, hps, hp, hrest⟩ := ih
    refine ⟨c :: (spanQuoted c s).1 ++ p, ps, by rw [hps, prependFirst], ?_, hrest⟩
    by_cases hclosed : (spanQuoted c s).2 = []
    · have hp' : p = [] := by
        rw [hclosed, piecesAt] at hps
        exact (List.cons.inj hps).1.symm
      have hs := append_spanQuoted c s
      rw [hclosed, List.append_nil] at hs
      rw [hp', List.append_nil, hs]
      exact piecesAt_unclosed hq hclosed
    · obtain ⟨w, hw, hs⟩ := exists_isQuoted hclosed
      have hspan : (spanQuoted c s).1 = w ++ [c] := by
        conv_lhs => rw [hs]
        rw [spanQuoted_of_isQuoted hq hw]
      rw [hspan]
      refine hp.prepend ?_
      rw [List.cons_append, List.append_assoc]
      exact piecesAt_quoted hq hw p
  | case3 depth c s hq ho ih =>
    obtain ⟨p, ps, hps, hp, hrest⟩ := ih
    obtain ⟨k, hk⟩ := Option.isSome_iff_exists.1 ho
    exact ⟨[c] ++ p, ps, by rw [hps, prependFirst], hp.prepend (piecesAt_open hk p), hrest⟩
  | case4 depth c s hq ho hk ih =>
    obtain ⟨p, ps, hps, hp, hrest⟩ := ih
    exact ⟨[c] ++ p, ps, by rw [hps, prependFirst], hp.prepend (piecesAt_close hk p), hrest⟩
  | case5 depth c s hq ho hk hsep ih =>
    obtain ⟨p, ps, hps, hp, hrest⟩ := ih
    obtain ⟨hc, rfl⟩ := hsep
    refine ⟨[], p :: ps, by rw [hps], by rw [IsPiece, piecesAt], ?_⟩
    exact List.forall_mem_cons.2 ⟨hp, hrest⟩
  | case6 depth c s hq ho hk hsep ih =>
    obtain ⟨p, ps, hps, hp, hrest⟩ := ih
    have hplain := isMark_eq_false_or_eq_slash_iff.2 ⟨hq, ho, hk⟩
    exact ⟨[c] ++ p, ps, by rw [hps, prependFirst], hp.prepend (piecesAt_plain hplain hsep p),
      hrest⟩

theorem IsPiece.of_append_left (h : IsPiece sep depth (s ++ t)) : IsPiece sep depth s :=
  isPiece_iff.2 ((length_piecesAt_le_append s t).trans (isPiece_iff.1 h))

theorem IsPiece.of_cons (hc : isMark c = false) (h : IsPiece sep depth (c :: t)) :
    IsPiece sep depth t := by
  rw [isPiece_iff] at h ⊢
  by_cases hsep : some c = some sep ∧ depth = 0
  · obtain ⟨hc', rfl⟩ := hsep
    obtain rfl := Option.some.inj hc'
    rw [piecesAt_separator (.inl hc), List.length_cons] at h
    exact Nat.le_of_succ_le h
  · rwa [piecesAt_plain (.inl hc) hsep, length_prependFirst _ (piecesAt_ne_nil _ _ _)] at h

/-- Blanks in front of a piece can be taken away, whether or not they are separators. -/
theorem IsPiece.of_blanks_append (hs : s.all isBlank = true) (h : IsPiece sep depth (s ++ t)) :
    IsPiece sep depth t := by
  induction s with
  | nil => exact h
  | cons c s ih =>
    rw [List.all_cons, Bool.and_eq_true] at hs
    exact ih hs.2 (h.of_cons (isMark_eq_false (by decide) hs.1))

theorem IsPiece.trim (h : IsPiece sep depth t) : IsPiece sep depth (Text.trim t) := by
  obtain ⟨gap, gap', hgap, -, ht⟩ := exists_eq_append_trim t
  rw [ht] at h
  exact (h.of_blanks_append hgap).of_append_left

theorem isPiece_of_mem_splitTopLevel {p : Text} (h : p ∈ splitTopLevel (some sep) t) :
    IsPiece sep 0 p := by
  simp only [splitTopLevel, List.mem_filter, List.mem_map] at h
  obtain ⟨⟨q, hq, rfl⟩, -⟩ := h
  obtain ⟨r, rs, hrs, hr, hrest⟩ := exists_isPiece sep 0 t
  rw [hrs] at hq
  exact (List.forall_mem_cons.2 ⟨hr, hrest⟩ q hq).trim

theorem infix_of_mem_splitTopLevel {p : Text} (h : p ∈ splitTopLevel (some sep) t) : p <:+: t := by
  simp only [splitTopLevel, List.mem_filter, List.mem_map] at h
  obtain ⟨⟨q, hq, rfl⟩, -⟩ := h
  have hinfix := (trim_isInfix q).trans (infix_join hq [sep])
  rwa [join_piecesAt] at hinfix

/-! ### Closed pieces -/

/-- A piece in which all brackets and strings are closed, so that the scan goes on behind it as at
the beginning of a text. -/
def IsClosedPiece (sep : Char) (w : Text) : Prop :=
  ∀ t, piecesAt (some sep) 0 (w ++ t) = prependFirst w (piecesAt (some sep) 0 t)

theorem isClosedPiece_nil (sep : Char) : IsClosedPiece sep [] := fun _ =>
  (prependFirst_nil (piecesAt_ne_nil _ _ _)).symm

theorem IsClosedPiece.append (hs : IsClosedPiece sep s) (ht : IsClosedPiece sep t) :
    IsClosedPiece sep (s ++ t) := by
  intro u
  rw [List.append_assoc, hs, ht, prependFirst_prependFirst]

theorem isClosedPiece_of_unmarked (h : ∀ c ∈ t, isMark c = false ∧ c ≠ sep) :
    IsClosedPiece sep t := by
  induction t with
  | nil => exact isClosedPiece_nil sep
  | cons c t ih =>
    obtain ⟨⟨hc, hsep⟩, ht⟩ := List.forall_mem_cons.1 h
    intro u
    rw [List.cons_append, piecesAt_plain (.inl hc) fun hsep' => hsep (Option.some.inj hsep'.1),
      ih ht, prependFirst_prependFirst]
    rfl

theorem IsClosedPiece.isPiece (h : IsClosedPiece sep t) : IsPiece sep 0 t := by
  have hnil := h []
  rw [List.append_nil, piecesAt, prependFirst, List.append_nil] at hnil
  exact hnil

/-- A piece that is not blank is a part of the text. -/
theorem splitTopLevel_of_isPiece (h : IsPiece sep 0 t) (hne : Text.trim t ≠ []) :
    splitTopLevel (some sep) t = [Text.trim t] := by
  rw [IsPiece] at h
  rw [splitTopLevel, h, List.map_singleton, List.filter_cons_of_pos (by simpa using hne),
    List.filter_nil]

/-- What stands in front of a separator is a part of its own. -/
theorem IsClosedPiece.splitTopLevel_append_cons (h : IsClosedPiece sep s)
    (hsep : isMark sep = false) (hne : Text.trim s ≠ []) (t : Text) :
    splitTopLevel (some sep) (s ++ sep :: t) = Text.trim s :: splitTopLevel (some sep) t := by
  have hpieces : piecesAt (some sep) 0 (s ++ sep :: t) = s :: piecesAt (some sep) 0 t := by
    rw [h, piecesAt_separator (.inl hsep), prependFirst, List.append_nil]
  rw [splitTopLevel, hpieces, List.map_cons, List.filter_cons_of_pos (by simpa using hne)]
  rfl

/-- **Nothing is lost, and all is split.** The text is made of pieces with the separator between
each two, and the parts are these pieces without surrounding blanks, in order, where anything is
left of them. A part is not split again. -/
theorem splitTopLevel_spec (sep : Char) (t : Text) :
    (∃ ps, ps ≠ [] ∧ join [sep] ps = t ∧
      splitTopLevel (some sep) t = (ps.map Text.trim).filter fun p => !p.isEmpty) ∧
      ∀ p ∈ splitTopLevel (some sep) t, splitTopLevel (some sep) p = [p] := by
  refine ⟨⟨_, piecesAt_ne_nil (some sep) 0 t, join_piecesAt sep 0 t, rfl⟩, fun p hp => ?_⟩
  have hpiece := isPiece_of_mem_splitTopLevel hp
  rw [IsPiece] at hpiece
  simp only [splitTopLevel, List.mem_filter, List.mem_map] at hp
  obtain ⟨⟨q, -, rfl⟩, hne⟩ := hp
  rw [splitTopLevel, hpiece, List.map_singleton, trim_trim, List.filter_cons, if_pos hne,
    List.filter_nil]

-- behind a bracket too many nothing separates
example : splitTopLevel (some ',') "a, 'b,c' , ), d, (" = ["a", "'b,c'", "), d, ("] := by
  decide +kernel

end DocDecl

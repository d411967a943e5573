import DocDecl.Proofs.Delimiter.Group
import DocDecl.Proofs.Delimiter.Split
import DocDecl.Proofs.Text.Pieces

/-!
# Code with balanced brackets

Code in which every bracket is closed by its own kind, every string is closed and no comment stands
is gone over by both scans: the one over brackets takes it for the body of a group, and the one for
separators finds none in it that stands outside brackets and strings. So such pieces of code can be
joined with commas and put into brackets, and both are undone.

## Main definitions

* `Balanced` : balanced code, with or without commas outside brackets and strings.

## Main results

* `Balanced.replace_blanks` : blanks in balanced code.
* `Balanced.groupBody`, `group?_balanced` : the scan over brackets.
* `piecesAt_balanced`, `piecesAt_group` : the scan for separators.
* `splitTopLevel_join` : the pieces of joined code.
-/

namespace DocDecl

open LiteralGrammar Text

variable {b : Bool} {c k o q : Char} {s t x : Text}

/-! ### Balanced code -/

/-- Code in which every bracket and every string is closed, and which holds no comment. Only with
`commas` may a comma stand outside brackets and strings. -/
inductive Balanced : (commas : Bool) → Text → Prop
  | nil {commas : Bool} : Balanced commas []
  | plain {commas : Bool} {c : Char} {t : Text} (hc : isMark c = false)
      (hcomma : c = ',' → commas = true) (h : Balanced commas t) : Balanced commas (c :: t)
  | slash {commas : Bool} {t : Text} (ht : NoComment t) (h : Balanced commas t) :
      Balanced commas ('/' :: t)
  | quoted {commas : Bool} {q : Char} {s t : Text} (hq : isQuote q = true) (hs : IsQuoted q s)
      (h : Balanced commas t) : Balanced commas (q :: (s ++ q :: t))
  | group {commas : Bool} {o k : Char} {s t : Text} (hk : closer? o = some k)
      (hs : Balanced true s) (h : Balanced commas t) : Balanced commas (o :: (s ++ k :: t))

theorem Balanced.withCommas (h : Balanced b t) : Balanced true t := by
  induction h with
  | nil => exact .nil
  | plain hc _ _ ih => exact .plain hc (fun _ => rfl) ih
  | slash ht _ ih => exact .slash ht ih
  | quoted hq hs _ ih => exact .quoted hq hs ih
  | group hk hs _ _ ih => exact .group hk hs ih

/-- Characters that neither scan stops at may stand in front. -/
theorem Balanced.plain_append {w : Text} (hw : (w.all fun c => !isMark c) = true)
    (hcomma : ',' ∈ w → b = true) (ht : Balanced b t) : Balanced b (w ++ t) := by
  induction w with
  | nil => exact ht
  | cons c w ih =>
    rw [List.all_cons, Bool.and_eq_true, Bool.not_eq_true'] at hw
    obtain ⟨hc, hw⟩ := hw
    refine .plain hc (fun h => hcomma ?_) (ih hw fun h => hcomma (List.mem_cons_of_mem c h))
    exact h ▸ List.mem_cons_self

theorem Balanced.append (hs : Balanced b s) (ht : Balanced b t) (hx : NoComment t) :
    Balanced b (s ++ t) := by
  induction hs with
  | nil => exact ht
  | plain hc hcomma _ ih => exact .plain hc hcomma (ih ht)
  | @slash b u hu _ ih =>
    refine .slash ?_ (ih ht)
    cases u with
    | nil => exact hx
    | cons d u => exact hu
  | quoted hq hs _ ih =>
    rw [List.cons_append, List.append_assoc, List.cons_append]
    exact .quoted hq hs (ih ht)
  | group hk hs _ _ ih =>
    rw [List.cons_append, List.append_assoc, List.cons_append]
    exact .group hk hs (ih ht)

/-! ### Blanks in code -/

theorem isMark_of_isBlank (h : isBlank c = true) : isMark c = false :=
  eq_false_of_isBlank (by decide) h

theorem Balanced.of_blank (hc : isBlank c = true) (h : Balanced b (c :: t)) : Balanced b t := by
  have hmark := isMark_of_isBlank hc
  cases h with
  | plain _ _ h => exact h
  | slash => exact absurd hmark (by decide)
  | quoted hq => simp [isMark, hq] at hmark
  | group hk => simp [isMark, hk] at hmark

theorem Balanced.of_blanks_append {gap : Text} (hgap : ∀ c ∈ gap, isBlank c = true)
    (h : Balanced b (gap ++ t)) : Balanced b t := by
  induction gap with
  | nil => exact h
  | cons c gap ih =>
    rw [List.forall_mem_cons] at hgap
    exact ih hgap.2 (h.of_blank hgap.1)

/-- A character that is not in the first part of a text stands in the second one. -/
theorem exists_append_of_notMem {gap z : Text} (hk : k ∉ gap) (h : gap ++ t = z ++ k :: x) :
    ∃ u, z = gap ++ u ∧ t = u ++ k :: x := by
  rcases List.append_eq_append_iff.1 h with hinside | ⟨u, rfl, hu⟩
  · exact hinside
  · cases u with
    | nil => exact ⟨[], by simp, hu.symm⟩
    | cons c u =>
      obtain ⟨rfl, -⟩ := List.cons.inj hu
      simp at hk

/-- Blanks outside strings may be replaced by other characters that no scan stops at. -/
theorem Balanced.replace_blanks {gap w : Text} (hs : ∀ c ∈ s, isQuote c = false)
    (hgap : ∀ c ∈ gap, isBlank c = true) (hne : gap ≠ [])
    (hw : (w.all fun c => !isMark c) = true) (hcomma : ',' ∉ w) (hx : ∀ t, NoComment (w ++ t))
    (h : Balanced b (s ++ (gap ++ t))) : Balanced b (s ++ (w ++ t)) := by
  have hmark : ∀ c ∈ gap, isMark c = false := fun c hc => isMark_of_isBlank (hgap c hc)
  obtain ⟨d, gap, rfl⟩ := List.exists_cons_of_ne_nil hne
  have hd := hmark d List.mem_cons_self
  generalize hu : s ++ (d :: gap ++ t) = u at h
  induction h generalizing s t with
  | nil => simp at hu
  | @plain b c v hc hcomma' h ih =>
    cases s with
    | nil =>
      obtain ⟨rfl, rfl⟩ := List.cons.inj hu
      have hrest := h.of_blanks_append (List.forall_mem_cons.1 hgap).2
      exact .plain_append (w := w) hw (fun hmem => absurd hmem hcomma) hrest
    | cons e s =>
      obtain ⟨rfl, rfl⟩ := List.cons.inj hu
      exact .plain hc hcomma' (ih (List.forall_mem_cons.1 hs).2 rfl)
  | @slash b v hv h ih =>
    cases s with
    | nil =>
      obtain ⟨rfl, -⟩ := List.cons.inj hu
      exact absurd hd (by decide)
    | cons e s =>
      obtain ⟨rfl, rfl⟩ := List.cons.inj hu
      refine .slash ?_ (ih (List.forall_mem_cons.1 hs).2 rfl)
      cases s with
      | nil => exact hx t
      | cons e s => exact hv
  | @quoted b q v y hq =>
    cases s with
    | nil =>
      obtain ⟨rfl, -⟩ := List.cons.inj hu
      simp [isMark, hq] at hd
    | cons e s =>
      obtain ⟨rfl, -⟩ := List.cons.inj hu
      exact absurd hq (by simp [hs _ List.mem_cons_self])
  | @group b o k v y hk hbody h ihbody ih =>
    have hclose : isMark k = true := by simp [isMark, isCloser_of_closer? hk]
    cases s with
    | nil =>
      obtain ⟨rfl, -⟩ := List.cons.inj hu
      simp [isMark, hk] at hd
    | cons e s =>
      obtain ⟨rfl, htail⟩ := List.cons.inj hu
      have hs := (List.forall_mem_cons.1 hs).2
      rcases List.append_eq_append_iff.1 htail with ⟨z, rfl, hz⟩ | ⟨z, rfl, hz⟩
      · -- the blanks stand inside of the brackets
        have hk' : k ∉ d :: gap := fun hmem => by simp [hmark k hmem] at hclose
        obtain ⟨u, rfl, rfl⟩ := exists_append_of_notMem hk' hz
        have hinside := ihbody hs rfl
        simpa using Balanced.group hk hinside h
      · -- they stand behind the closing bracket
        cases z with
        | nil =>
          obtain ⟨rfl, -⟩ := List.cons.inj hz
          simp [hd] at hclose
        | cons c z =>
          obtain ⟨rfl, rfl⟩ := List.cons.inj hz
          have hz := fun d hd => hs d (List.mem_append_right v (List.mem_cons_of_mem _ hd))
          have hrest := ih hz rfl
          simpa using Balanced.group hk hbody hrest

/-! ### The scan over brackets -/

/-- Balanced code is the body of a group. -/
theorem Balanced.groupBody (h : Balanced b t) : GroupBody t := by
  induction h with
  | nil => exact .nil
  | plain hc _ _ ih => exact .plain hc ih
  | slash ht _ ih => exact .slash ht ih
  | quoted hq hs _ ih => exact .quoted hq hs ih
  | group hk _ _ ihs ih => exact .group hk ihs ih

/-- Balanced code in brackets is a group. -/
theorem group?_balanced (hk : closer? o = some k) (hs : Balanced b s) (x : Text) :
    group? (o :: (s ++ k :: x)) = some (o :: (s ++ [k]), x) :=
  group?_groupBody hk hs.groupBody x

/-! ### The scan for separators -/

section Pieces

variable {sep : Option Char} {depth : Int}

/-- Nothing separates in balanced code at a depth at which nothing outside its brackets does: above
zero, and for commas at zero, if none stands there. -/
theorem piecesAt_balanced (h : Balanced b t) (h₀ : 0 ≤ depth)
    (hd : b = true ∨ sep ≠ some ',' → 0 < depth) (x : Text) :
    piecesAt sep depth (t ++ x) = prependFirst t (piecesAt sep depth x) := by
  induction h generalizing depth x with
  | nil => exact (prependFirst_nil (piecesAt_ne_nil _ _ _)).symm
  | @plain b c u hc hcomma _ ih =>
    have hsep : ¬(some c = sep ∧ depth = 0) := by
      rintro ⟨rfl, rfl⟩
      refine absurd (hd ?_) (Int.lt_irrefl 0)
      by_cases h : c = ','
      · exact .inl (hcomma h)
      · exact .inr fun heq => h (Option.some.inj heq)
    rw [List.cons_append, piecesAt_plain (.inl hc) hsep, ih h₀ hd, prependFirst_prependFirst]
    rfl
  | slash _ _ ih =>
    have hsep : ¬(some '/' = sep ∧ depth = 0) := by
      rintro ⟨rfl, rfl⟩
      exact absurd (hd (.inr (by simp))) (Int.lt_irrefl 0)
    rw [List.cons_append, piecesAt_plain (.inr rfl) hsep, ih h₀ hd, prependFirst_prependFirst]
    rfl
  | quoted hq hs _ ih =>
    rw [List.cons_append, List.append_assoc, List.cons_append, piecesAt_quoted hq hs, ih h₀ hd,
      prependFirst_prependFirst]
    simp
  | group hk _ _ ihs ih =>
    have hdeep : 0 < depth + 1 := Int.lt_add_one_of_le h₀
    rw [List.cons_append, List.append_assoc, List.cons_append, piecesAt_open hk,
      ihs (Int.le_of_lt hdeep) (fun _ => hdeep), piecesAt_close (isCloser_of_closer? hk),
      Int.add_sub_cancel, ih h₀ hd, prependFirst_prependFirst, prependFirst_prependFirst,
      prependFirst_prependFirst]
    simp

/-- Nothing separates in balanced code in brackets, and the scan goes on behind it at the same
depth. -/
theorem piecesAt_group (h : Balanced b s) (hk : closer? o = some k) (h₀ : 0 ≤ depth) (x : Text) :
    piecesAt sep depth (o :: (s ++ k :: x)) =
      prependFirst (o :: (s ++ [k])) (piecesAt sep depth x) := by
  have hdeep : 0 < depth + 1 := Int.lt_add_one_of_le h₀
  rw [piecesAt_open hk, piecesAt_balanced h (Int.le_of_lt hdeep) (fun _ => hdeep),
    piecesAt_close (isCloser_of_closer? hk), Int.add_sub_cancel, prependFirst_prependFirst,
    prependFirst_prependFirst]
  simp

theorem isPiece_parenthesised {sep : Char} (h : Balanced b s) (h₀ : 0 ≤ depth) :
    IsPiece sep depth ('(' :: (s ++ [')'])) := by
  rw [IsPiece, piecesAt_group h rfl h₀, piecesAt, prependFirst, List.append_nil]

/-- Balanced code in brackets is a piece with nothing left open. -/
theorem Balanced.isClosedPiece_group (h : Balanced b s) (hk : closer? o = some k) (sep : Char) :
    IsClosedPiece sep (o :: (s ++ [k])) := by
  intro x
  simpa using piecesAt_group h hk (Int.le_refl 0) x

end Pieces

/-! ### Joined code -/

theorem balanced_join {ts : List Text} (h : ∀ t ∈ ts, Balanced false t) :
    Balanced true (join ", " ts) := by
  induction ts with
  | nil => exact .nil
  | cons t ts ih =>
    obtain ⟨ht, hts⟩ := List.forall_mem_cons.1 h
    by_cases hnil : ts = []
    · subst hnil
      simpa [join, List.intercalate] using ht.withCommas
    · rw [join_cons hnil, List.append_assoc]
      exact ht.withCommas.append (.plain_append (by decide) (fun _ => rfl) (ih hts))
        ⟨by simp, by simp⟩

/-- Joined code falls into its pieces, each but the first behind a blank. -/
theorem piecesAt_join {ts : List Text} (ht : Balanced false t)
    (hts : ∀ t ∈ ts, Balanced false t) :
    piecesAt (some ',') 0 (join ", " (t :: ts)) = t :: ts.map (' ' :: ·) := by
  induction ts generalizing t with
  | nil =>
    have hjoin : join ", " [t] = t ++ [] := by simp [join, List.intercalate]
    rw [hjoin, piecesAt_balanced ht (Int.le_refl 0) (by simp), piecesAt]
    simp [prependFirst]
  | cons u ts ih =>
    obtain ⟨hu, hts⟩ := List.forall_mem_cons.1 hts
    have hcomma (r : Text) : piecesAt (some ',') 0 (',' :: r) = [] :: piecesAt (some ',') 0 r := by
      rw [piecesAt]
      rfl
    rw [join_cons (List.cons_ne_nil u ts), List.append_assoc,
      piecesAt_balanced ht (Int.le_refl 0) (by simp)]
    have hsep : ", ".toList ++ join ", ".toList (u :: ts) =
        ',' :: ' ' :: join ", ".toList (u :: ts) := rfl
    rw [hsep, hcomma, piecesAt_plain (.inl (by decide)) (by simp), ih hu hts]
    simp [prependFirst]

/-- The pieces of joined code are trimmed. -/
theorem splitTopLevel_join {ts : List Text} (h : ∀ t ∈ ts, Balanced false t)
    (hne : ∀ t ∈ ts, trim t ≠ []) : splitTopLevel (some ',') (join ", " ts) = ts.map trim := by
  cases ts with
  | nil => simp [splitTopLevel, join, List.intercalate, piecesAt, trim, trimLeft, trimRight]
  | cons t ts =>
    obtain ⟨ht, hts⟩ := List.forall_mem_cons.1 h
    have hblank (u : Text) : trim (' ' :: u) = trim u := trim_blanks_append (s := [' ']) rfl u
    have hmap : (t :: ts.map (' ' :: ·)).map trim = (t :: ts).map trim := by
      simp [hblank]
    rw [splitTopLevel, piecesAt_join ht hts, hmap, List.filter_eq_self]
    intro u hu
    obtain ⟨v, hv, rfl⟩ := List.mem_map.1 hu
    simpa using hne v hv

end DocDecl

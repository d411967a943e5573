import DocDecl.Proofs.Text.Pieces
import DocDecl.Proofs.Text.Trim

/-!
# Words

A blank parts the words in front of it from those behind it, so blanks around a text do not matter
to its words. With one space between each two words, every blank is a space that stands alone
between two characters, and such a text is told by this: it is the one that its words give.

## Main definitions

* `Text.spacedWords` : the words of a text with one space between each two.
* `Text.SingleSpaced` : the texts whose blanks are single spaces between certain characters.

## Main results

* `Text.words_append_blank` : the words on both sides of a blank.
* `Text.words_eq_nil_iff` : the texts without words.
* `Text.singleSpaced_spacedWords`, `Text.SingleSpaced.spacedWords_eq` : words with single spaces.
* `Text.SingleSpaced.of_append_cons`, `Text.SingleSpaced.trim_eq` : where blanks stand in it.
-/

namespace DocDecl

namespace Text

variable {b c d : Char} {s t u v : Text} {R : Char → Char → Prop}

/-! ### Words and blanks -/

theorem splitAtBlanks_ne_nil (t : Text) : splitAtBlanks t ≠ [] := by
  cases t with
  | nil => simp [splitAtBlanks]
  | cons c t =>
    rw [splitAtBlanks]
    split_ifs
    · simp
    · split <;> simp

theorem splitAtBlanks_of_no_blank (h : ∀ c ∈ t, isBlank c = false) : splitAtBlanks t = [t] := by
  induction t with
  | nil => rfl
  | cons c t ih =>
    obtain ⟨hc, ht⟩ := List.forall_mem_cons.1 h
    rw [splitAtBlanks, if_neg (by simp [hc]), ih ht]

theorem firstWord_of_no_blank (h : ∀ c ∈ t, isBlank c = false) : firstWord t = t := by
  rw [firstWord, words, splitAtBlanks_of_no_blank h]
  cases t <;> rfl

/-- The words on both sides of a blank. -/
theorem words_append_blank (hc : isBlank c = true) (s t : Text) :
    words (s ++ c :: t) = words s ++ words t := by
  have key : splitAtBlanks (s ++ c :: t) = splitAtBlanks s ++ splitAtBlanks t := by
    induction s with
    | nil =>
      have hnil : splitAtBlanks (c :: t) = [] :: splitAtBlanks t := if_pos hc
      rw [List.nil_append, hnil]
      rfl
    | cons d s ih =>
      rw [List.cons_append, splitAtBlanks, splitAtBlanks, ih]
      split_ifs
      · rfl
      · cases hs : splitAtBlanks s with
        | nil => exact absurd hs (splitAtBlanks_ne_nil s)
        | cons w ws => rfl
  rw [words, key, List.filter_append, words, words]

theorem words_blank_cons (hb : isBlank b = true) (t : Text) : words (b :: t) = words t :=
  words_append_blank hb [] t

theorem words_blanks_append (hs : s.all isBlank = true) (t : Text) : words (s ++ t) = words t := by
  induction s with
  | nil => rfl
  | cons b s ih =>
    rw [List.all_cons, Bool.and_eq_true] at hs
    rw [List.cons_append, words_blank_cons hs.1, ih hs.2]

theorem words_append_blanks (hs : s.all isBlank = true) (t : Text) : words (t ++ s) = words t := by
  induction s generalizing t with
  | nil => rw [List.append_nil]
  | cons b s ih =>
    rw [List.all_cons, Bool.and_eq_true] at hs
    have hnil : words s = [] := ih hs.2 []
    rw [words_append_blank hs.1, hnil, List.append_nil]

/-- Blanks around a text belong to none of its words. -/
theorem words_trim (t : Text) : words (trim t) = words t := by
  obtain ⟨gap, gap', hgap, hgap', ht⟩ := exists_eq_append_trim t
  conv_rhs => rw [ht, words_blanks_append hgap, words_append_blanks hgap']

theorem ne_nil_of_mem_words (h : s ∈ words t) : s ≠ [] := by
  simpa using (List.mem_filter.1 h).2

theorem words_singleton (hc : isBlank c = false) : words [c] = [[c]] := by
  simp [words, splitAtBlanks, hc]

/-- A character in front of a word belongs to it. -/
theorem words_cons (hc : isBlank c = false) (hd : isBlank d = false) (t : Text) :
    ∃ w ws, words (d :: t) = w :: ws ∧ words (c :: d :: t) = (c :: w) :: ws := by
  obtain ⟨p, ps, hp⟩ : ∃ p ps, splitAtBlanks (d :: t) = (d :: p) :: ps := by
    rw [splitAtBlanks, if_neg (by simp [hd])]
    cases splitAtBlanks t with
    | nil => exact ⟨[], [], rfl⟩
    | cons p ps => exact ⟨p, ps, rfl⟩
  have hcons : splitAtBlanks (c :: d :: t) = (c :: d :: p) :: ps := by
    rw [splitAtBlanks, if_neg (by simp [hc]), hp]
  exact ⟨d :: p, ps.filter fun w => !w.isEmpty, by rw [words, hp]; rfl, by rw [words, hcons]; rfl⟩

/-! ### Words with single spaces -/

/-- The words of a text with one space between each two. -/
def spacedWords (t : Text) : Text := join " " (words t)

@[simp]
theorem spacedWords_nil : spacedWords [] = [] := rfl

theorem spacedWords_blank_cons (hb : isBlank b = true) (t : Text) :
    spacedWords (b :: t) = spacedWords t := by
  rw [spacedWords, words_blank_cons hb, spacedWords]

theorem spacedWords_cons (hc : isBlank c = false) (ht : ∀ d ∈ t.head?, isBlank d = false) :
    spacedWords (c :: t) = c :: spacedWords t := by
  cases t with
  | nil => simp [spacedWords, words_singleton hc, join, show words [] = [] from rfl]
  | cons d t =>
    obtain ⟨w, ws, hw, hcw⟩ := words_cons hc (ht d rfl) t
    rw [spacedWords, hcw, spacedWords, hw]
    exact join_append_cons " " [c] w ws

theorem spacedWords_cons_blank (hc : isBlank c = false) (hb : isBlank b = true) (t : Text) :
    spacedWords (c :: b :: t) =
      c :: if spacedWords t = [] then [] else ' ' :: spacedWords t := by
  have hwords : words (c :: b :: t) = [c] :: words t :=
    (words_append_blank hb [c] t).trans (by rw [words_singleton hc]; rfl)
  rw [spacedWords, hwords, spacedWords]
  cases hw : words t with
  | nil => rfl
  | cons w ws =>
    have hne : join " " (w :: ws) ≠ [] := by
      intro hnil
      have hw_nil : w = [] := List.prefix_nil.1 (hnil ▸ prefix_join w " " ws)
      exact ne_nil_of_mem_words (hw ▸ List.mem_cons_self) hw_nil
    rw [if_neg hne, join_cons (List.cons_ne_nil w ws)]
    rfl

/-- Blanks, characters that no blank follows, and characters with a blank behind them. -/
@[elab_as_elim]
theorem blank_induction {motive : Text → Prop} (nil : motive [])
    (blank : ∀ b t, isBlank b = true → motive t → motive (b :: t))
    (cons : ∀ c t, isBlank c = false → (∀ d ∈ t.head?, isBlank d = false) → motive t →
      motive (c :: t))
    (gap : ∀ c b t, isBlank c = false → isBlank b = true → motive t → motive (c :: b :: t))
    (t : Text) : motive t := by
  induction t using List.twoStepInduction with
  | nil => exact nil
  | singleton c =>
    cases hc : isBlank c with
    | false => exact cons c [] hc (by simp) nil
    | true => exact blank c [] hc nil
  | cons_cons c d t iht ihd =>
    cases hc : isBlank c with
    | true => exact blank c (d :: t) hc (ihd d)
    | false =>
      cases hd : isBlank d with
      | false => exact cons c (d :: t) hc (by simp [hd]) (ihd d)
      | true => exact gap c d t hc hd iht

theorem spacedWords_eq_nil_iff : spacedWords t = [] ↔ t.all isBlank = true := by
  induction t using blank_induction with
  | nil => simp
  | blank b t hb ih => rw [spacedWords_blank_cons hb, ih, List.all_cons, hb, Bool.true_and]
  | cons c t hc ht => simp [spacedWords_cons hc ht, hc]
  | gap c b t hc hb => simp [spacedWords_cons_blank hc hb, hc]

/-! ### Texts with single spaces -/

/-- The blanks of a text are spaces, and each of them stands alone between two characters that are
related. -/
inductive SingleSpaced (R : Char → Char → Prop) : Text → Prop
  /-- There is nothing. -/
  | nil : SingleSpaced R []
  /-- A character that is no blank. -/
  | cons {c : Char} {t : Text} (hc : isBlank c = false) (ht : SingleSpaced R t) :
      SingleSpaced R (c :: t)
  /-- A space between two related characters. -/
  | gap {c d : Char} {t : Text} (hc : isBlank c = false) (hR : R c d)
      (ht : SingleSpaced R (d :: t)) : SingleSpaced R (c :: ' ' :: d :: t)

namespace SingleSpaced

theorem isBlank_head? (h : SingleSpaced R t) : ∀ c ∈ t.head?, isBlank c = false := by
  cases h with
  | nil => simp
  | cons hc _ => simpa using hc
  | gap hc _ _ => simpa using hc

/-- A blank in such a text is a space between two related characters. -/
theorem of_append_cons (h : SingleSpaced R (s ++ b :: t)) (hb : isBlank b = true) :
    b = ' ' ∧ ∃ u c d v, s = u ++ [c] ∧ t = d :: v ∧ isBlank c = false ∧ isBlank d = false ∧
      R c d := by
  generalize hw : s ++ b :: t = w at h
  induction h generalizing s with
  | nil => simp at hw
  | cons hc _ ih =>
    cases s with
    | nil =>
      obtain ⟨rfl, -⟩ := List.cons.inj hw
      simp [hc] at hb
    | cons e s =>
      obtain ⟨rfl, u, x, y, v, rfl, h⟩ := ih (List.cons.inj hw).2
      exact ⟨rfl, e :: u, x, y, v, rfl, h⟩
  | gap hc hR ht ih =>
    match s with
    | [] =>
      obtain ⟨rfl, -⟩ := List.cons.inj hw
      simp [hc] at hb
    | [e] =>
      simp only [List.cons_append, List.nil_append, List.cons.injEq] at hw
      obtain ⟨rfl, rfl, rfl⟩ := hw
      exact ⟨rfl, [], _, _, _, rfl, rfl, hc, ht.isBlank_head? _ rfl, hR⟩
    | e :: f :: s =>
      obtain ⟨rfl, u, x, y, v, rfl, h⟩ := ih (List.cons.inj (List.cons.inj hw).2).2
      exact ⟨rfl, e :: f :: u, x, y, v, rfl, h⟩

/-- What stands in front of a blank. -/
theorem of_pair_behind (h : SingleSpaced R t) (hp : [c, b] <:+: t) (hb : isBlank b = true) :
    isBlank c = false ∧ ∃ d, R c d := by
  obtain ⟨s, r, ht⟩ := hp
  have ht' : t = (s ++ [c]) ++ b :: r := by simp [← ht]
  obtain ⟨-, u, e, d, v, hs, -, he, -, hR⟩ := (ht' ▸ h).of_append_cons hb
  obtain ⟨-, rfl⟩ := List.append_singleton_inj.1 hs
  exact ⟨he, d, hR⟩

/-- What stands behind a blank. -/
theorem of_pair_before (h : SingleSpaced R t) (hp : [b, d] <:+: t) (hb : isBlank b = true) :
    isBlank d = false ∧ ∃ c, R c d := by
  obtain ⟨s, r, ht⟩ := hp
  have ht' : t = s ++ b :: d :: r := by simp [← ht]
  obtain ⟨-, u, c, e, v, -, hv, -, he, hR⟩ := (ht' ▸ h).of_append_cons hb
  obtain ⟨rfl, -⟩ := List.cons.inj hv
  exact ⟨he, c, hR⟩

/-- No blank stands at an end. -/
theorem trim_eq (h : SingleSpaced R t) : trim t = t := by
  refine trim_eq_self_iff.2 ⟨?_, ?_⟩
  · cases t with
    | nil => rfl
    | cons c t => exact List.dropWhile_cons_of_neg (by simp [h.isBlank_head? c rfl])
  · cases t using List.reverseRec with
    | nil => rfl
    | append_singleton s c =>
      refine trimRight_append_singleton ?_ s
      rw [Bool.eq_false_iff]
      intro hc
      obtain ⟨-, u, e, d, v, -, hv, -⟩ := h.of_append_cons hc
      cases hv

/-- The words of such a text have the same blanks between them. -/
theorem spacedWords_eq (h : SingleSpaced R t) : spacedWords t = t := by
  induction h with
  | nil => rfl
  | cons hc ht ih => rw [spacedWords_cons hc ht.isBlank_head?, ih]
  | gap hc _ _ ih => rw [spacedWords_cons_blank hc (by decide), ih, if_neg (List.cons_ne_nil _ _)]

end SingleSpaced

theorem singleSpaced_spacedWords (t : Text) : SingleSpaced (fun _ _ => True) (spacedWords t) := by
  induction t using blank_induction with
  | nil => exact .nil
  | blank b t hb ih => rwa [spacedWords_blank_cons hb]
  | cons c t hc ht ih => exact spacedWords_cons hc ht ▸ ih.cons hc
  | gap c b t hc hb ih =>
    rw [spacedWords_cons_blank hc hb]
    cases hs : spacedWords t with
    | nil => exact .cons hc .nil
    | cons d u =>
      rw [hs] at ih
      rw [if_neg (List.cons_ne_nil d u)]
      exact .gap hc trivial ih

end Text

end DocDecl

import DocDecl.Head.Basic
import DocDecl.Proofs.Text.Replacing
import DocDecl.Proofs.Text.Words

/-!
# Code on one line

Folded onto one line, code keeps its words. One space is left between two of them, but none behind
an opening round bracket and none in front of a closing one. The texts of this kind are those that
folding leaves as they are, so it is done once and for all.

## Main definitions

* `Parted` : the characters that a space may stand between.

## Main results

* `singleSpaced_collapseBlanks` : the blanks that are left.
* `collapseBlanks_eq_self_iff` : the texts that stay.
* `collapseBlanks_eq_nil_iff` : the texts of which nothing is left.
-/

namespace DocDecl

open Text

variable {a b c d z : Char} {s t : Text} {R R' : Char → Char → Prop}

/-- A space may stand between two characters if it stands in no round bracket with them. -/
def Parted (c d : Char) : Prop := c ≠ '(' ∧ d ≠ ')'

/-- Folding in three steps. -/
theorem collapseBlanks_eq (t : Text) :
    collapseBlanks t =
      replace [' ', ')'] [')'] (replace ['(', ' '] ['('] (spacedWords t)) := rfl

/-- Blanks around a text do not matter. -/
theorem collapseBlanks_trim (t : Text) : collapseBlanks (trim t) = collapseBlanks t := by
  rw [collapseBlanks_eq, spacedWords, words_trim, ← spacedWords, ← collapseBlanks_eq]

theorem Head.text_scan_eq (code : Text) :
    (scan code).text = collapseBlanks (spanHead 0 code).head :=
  collapseBlanks_trim _

/-! ### The blanks that are left -/

namespace Text.SingleSpaced

/-- The space behind a certain character is taken out. -/
theorem replace_behind (h : SingleSpaced R t) (ha : a ≠ ' ')
    (hR : ∀ c d, R c d → c ≠ a → R' c d) : SingleSpaced R' (replace [a, ' '] [a] t) := by
  induction h with
  | nil => exact .nil
  | @cons c t hc ht ih =>
    have hgap : t.head? ≠ some ' ' := fun hgap => absurd (ht.isBlank_head? ' ' hgap) (by decide)
    rw [replace_pair_cons fun h => hgap h.2]
    exact ih.cons hc
  | @gap c d t hc hcd ht ih =>
    by_cases hca : c = a
    · rw [hca, replace_pair]
      exact ih.cons (hca ▸ hc)
    · obtain ⟨u, hu⟩ := List.head?_eq_some_iff.1 (head?_replace_pair a ' ' (d :: t))
      rw [replace_pair_cons fun h => hca h.1, replace_pair_cons fun h => ha h.1.symm, hu]
      exact .gap hc (hR c d hcd hca) (hu ▸ ih)

/-- The space in front of a certain character is taken out. -/
theorem replace_before (h : SingleSpaced R t) (hR : ∀ c d, R c d → d ≠ z → R' c d) :
    SingleSpaced R' (replace [' ', z] [z] t) := by
  have hcons {c : Char} (hc : isBlank c = false) (t : Text) :
      replace [' ', z] [z] (c :: t) = c :: replace [' ', z] [z] t :=
    replace_pair_cons (fun h => absurd (h.1 ▸ hc) (by decide)) [z]
  induction h with
  | nil => exact .nil
  | @cons c t hc ht ih =>
    rw [hcons hc]
    exact ih.cons hc
  | @gap c d t hc hcd ht ih =>
    have hd := ht.isBlank_head? d rfl
    rw [hcons hd] at ih
    rw [hcons hc]
    by_cases hdz : d = z
    · rw [hdz, replace_pair]
      exact (hdz ▸ ih).cons hc
    · rw [replace_pair_cons (by simpa using hdz), hcons hd]
      exact .gap hc (hR c d hcd hdz) ih

end Text.SingleSpaced

theorem singleSpaced_collapseBlanks (t : Text) : SingleSpaced Parted (collapseBlanks t) := by
  have hbehind : SingleSpaced (fun c _ => c ≠ '(') (replace ['(', ' '] ['('] (spacedWords t)) :=
    (singleSpaced_spacedWords t).replace_behind (by decide) fun _ _ _ hc => hc
  rw [collapseBlanks_eq]
  exact hbehind.replace_before fun _ _ hc hd => ⟨hc, hd⟩

/-! ### The texts that stay -/

theorem Text.SingleSpaced.not_open_isInfix (h : SingleSpaced Parted t) : ¬['(', ' '] <:+: t := by
  intro hp
  obtain ⟨-, d, hopen, -⟩ := h.of_pair_behind hp rfl
  exact hopen rfl

theorem Text.SingleSpaced.not_close_isInfix (h : SingleSpaced Parted t) : ¬[' ', ')'] <:+: t := by
  intro hp
  obtain ⟨-, c, -, hclose⟩ := h.of_pair_before hp rfl
  exact hclose rfl

/-- The texts that stay are those with parted characters around every blank. -/
theorem collapseBlanks_eq_self_iff : collapseBlanks t = t ↔ SingleSpaced Parted t := by
  refine ⟨fun h => h ▸ singleSpaced_collapseBlanks t, fun h => ?_⟩
  rw [collapseBlanks_eq, h.spacedWords_eq,
    replace_of_not_isInfix (List.cons_ne_nil _ _) h.not_open_isInfix,
    replace_of_not_isInfix (List.cons_ne_nil _ _) h.not_close_isInfix]

/-- Nothing is left of blanks alone. -/
theorem collapseBlanks_eq_nil_iff : collapseBlanks t = [] ↔ t.all isBlank = true := by
  rw [collapseBlanks_eq, replace_eq_nil_iff (List.cons_ne_nil _ _) (List.cons_ne_nil _ _),
    replace_eq_nil_iff (List.cons_ne_nil _ _) (List.cons_ne_nil _ _), spacedWords_eq_nil_iff]

end DocDecl

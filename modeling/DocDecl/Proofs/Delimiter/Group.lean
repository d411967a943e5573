import DocDecl.Proofs.Delimiter.Grammar

/-!
# Where a group ends

The end of a group is found in the group itself: a group ends with a closing bracket, and whatever
follows this bracket could be something else.

## Main results

* `group?_eq_some_iff` : a group and what follows it make up the text.
* `group?_groupBody` : a body in brackets is a group.
* `group?_concat` : a character that is no bracket may follow the text.
-/

namespace DocDecl

variable {c k o : Char} {g r s t : Text}

theorem IsGroup.two_le_length (h : IsGroup g) : 2 ≤ g.length := by
  obtain ⟨-, -⟩ := h
  simp

theorem IsGroup.getLast?_eq (h : IsGroup g) : ∃ k, g.getLast? = some k ∧ isCloser k = true := by
  obtain ⟨hk, -⟩ := h
  rename_i o k s
  exact ⟨k, by rw [← List.cons_append, List.getLast?_concat], isCloser_of_closer? hk⟩

/-- A group has two brackets at least, and what follows it ends the text. -/
theorem exists_group_append (h : afterGroup? t = some r) : ∃ g, t = g ++ r ∧ 2 ≤ g.length := by
  obtain ⟨g, hg, ht⟩ := afterGroup?_eq_some_iff.1 h
  exact ⟨g, ht, hg.two_le_length⟩

/-- A group and what follows it make up the text. -/
theorem group?_eq_some_iff : group? t = some (g, r) ↔ afterGroup? t = some r ∧ t = g ++ r := by
  rw [group?, Option.map_eq_some_iff]
  constructor
  · rintro ⟨r', hr, heq⟩
    obtain ⟨rfl, rfl⟩ := Prod.mk.inj heq
    refine ⟨hr, ?_⟩
    obtain ⟨g, rfl, -⟩ := exists_group_append hr
    rw [List.length_append, Nat.add_sub_cancel, List.take_left]
  · rintro ⟨hr, rfl⟩
    refine ⟨r, hr, ?_⟩
    rw [List.length_append, Nat.add_sub_cancel, List.take_left]

/-- A body in brackets is a group. -/
theorem group?_groupBody (hk : closer? o = some k) (hs : GroupBody s) (t : Text) :
    group? (o :: (s ++ k :: t)) = some (o :: (s ++ [k]), t) := by
  have heq : o :: (s ++ k :: t) = o :: (s ++ [k]) ++ t := by simp
  exact group?_eq_some_iff.2 ⟨afterGroup?_eq_some_iff.2 ⟨_, .intro hk hs, heq⟩, heq⟩

theorem insideGroup_append (o k : Char) (s : Text) : insideGroup (o :: (s ++ [k])) = s := by
  rw [insideGroup, List.tail_cons, List.dropLast_concat]

/-- A character that closes nothing may follow the text. -/
theorem afterGroup?_concat (hc : isCloser c = false) (t : Text) :
    afterGroup? (t ++ [c]) = (afterGroup? t).map (· ++ [c]) := by
  ext r
  rw [afterGroup?_eq_some_iff, Option.map_eq_some_iff]
  constructor
  · rintro ⟨g, hg, h⟩
    cases r using List.reverseRec with
    | nil =>
      obtain ⟨k, hlast, hk⟩ := hg.getLast?_eq
      rw [List.append_nil] at h
      rw [← h, List.getLast?_concat, Option.some.injEq] at hlast
      simp [← hlast, hc] at hk
    | append_singleton r d =>
      rw [← List.append_assoc] at h
      obtain ⟨rfl, hd⟩ := List.append_inj' h rfl
      exact ⟨r, afterGroup?_eq_some_iff.2 ⟨g, hg, rfl⟩, by rw [hd]⟩
  · rintro ⟨r, hr, rfl⟩
    obtain ⟨g, hg, rfl⟩ := afterGroup?_eq_some_iff.1 hr
    exact ⟨g, hg, List.append_assoc g r [c]⟩

theorem group?_concat (hc : isCloser c = false) (t : Text) :
    group? (t ++ [c]) = (group? t).map fun p => (p.1, p.2 ++ [c]) := by
  cases h : group? t with
  | none =>
    rw [group?, Option.map_eq_none_iff] at h
    rw [group?, afterGroup?_concat hc, h]
    rfl
  | some p =>
    obtain ⟨g, r⟩ := p
    obtain ⟨hr, rfl⟩ := group?_eq_some_iff.1 h
    refine group?_eq_some_iff.2 ⟨?_, List.append_assoc g r [c]⟩
    rw [afterGroup?_concat hc, hr]
    rfl

end DocDecl

import DocDecl.Comment.Override
import DocDecl.Comment.Tag
import DocDecl.Proofs.Text.Search

/-!
# What is cut out of a block

An override goes from its tag line to the next closing mark or tag line, and all that stands there
is cut out of the comment, whatever it is. What stands in front of it or behind it stays, and
nothing new comes about where the two parts meet: both begin with the margin of a line, so a marker
that reaches the cut has no more than the blank of the margin behind it, before and after.

## Main definitions

* `IsOverride` : the part of a comment that is cut out.
* `InOverride` : a place in this part.

## Main results

* `withoutOverride_eq` : the comment without this part.
* `contains_withoutOverride_iff` : a marker is left if it stands somewhere else.
* `isIn_of_isIn_withoutOverride` : a tag that is left was there before.
-/

namespace DocDecl

open Text

/-! ### The part that is cut out -/

/-- The line of the override tag, with the margin of the line behind it. -/
def overrideLine : Text := " * @tsdeclaration\n * "

/-- The marks that an override goes up to. -/
def overrideEnds : List Text := [" */", " * @"]

/-- The override of a comment stands from `lo` to `hi`: it begins with the first override line, and
the next closing mark or tag line behind that ends it. -/
structure IsOverride (comment : Text) (lo hi : Nat) : Prop where
  opens : StandsAt overrideLine comment lo
  first : ∀ n, StandsAt overrideLine comment n → lo ≤ n
  le : lo + overrideLine.length ≤ hi
  ends : AnyStandsAt overrideEnds comment hi
  next : ∀ n, lo + overrideLine.length ≤ n → AnyStandsAt overrideEnds comment n → hi ≤ n

/-- The place `n` of a comment lies in its override. -/
def InOverride (comment : Text) (n : Nat) : Prop :=
  ∃ lo hi, IsOverride comment lo hi ∧ lo ≤ n ∧ n < hi

section Cut

variable {comment : Text} {lo hi n : Nat}

theorem anyStandsAt_drop_iff {ps : List Text} {t : Text} {k : Nat} :
    AnyStandsAt ps (t.drop k) n ↔ AnyStandsAt ps t (k + n) := by
  simp only [AnyStandsAt, standsAt_drop_iff]

theorem IsOverride.unique {lo' hi' : Nat} (h : IsOverride comment lo hi)
    (h' : IsOverride comment lo' hi') : lo = lo' ∧ hi = hi' := by
  obtain rfl : lo = lo' := Nat.le_antisymm (h.first _ h'.opens) (h'.first _ h.opens)
  exact ⟨rfl, Nat.le_antisymm (h.next _ h'.le h'.ends) (h'.next _ h.le h.ends)⟩

theorem inOverride_iff (h : IsOverride comment lo hi) : InOverride comment n ↔ lo ≤ n ∧ n < hi := by
  constructor
  · rintro ⟨lo', hi', h', hn⟩
    obtain ⟨rfl, rfl⟩ := h.unique h'
    exact hn
  · exact fun hn => ⟨lo, hi, h, hn⟩

/-- The comment without the override, if there is one. -/
theorem withoutOverride_eq (comment : Text) :
    (∃ lo hi, IsOverride comment lo hi ∧
        withoutOverride comment = comment.take lo ++ comment.drop hi) ∨
      (∀ n, ¬InOverride comment n) ∧ withoutOverride comment = comment := by
  have hline : " * @tsdeclaration\n * ".toList = overrideLine := rfl
  have hends : [" */".toList, " * @".toList] = overrideEnds := rfl
  rw [withoutOverride, cut?, hline, hends]
  cases hlo : find? overrideLine comment with
  | none =>
    refine .inr ⟨?_, rfl⟩
    rintro n ⟨lo, hi, h, -⟩
    exact find?_eq_none_iff.1 hlo lo h.opens
  | some lo =>
    obtain ⟨hopens, hfirst⟩ := find?_eq_some_iff.1 hlo
    simp only [Option.map_some]
    cases hhi : findAny? overrideEnds (comment.drop (lo + overrideLine.length)) with
    | none =>
      refine .inr ⟨?_, rfl⟩
      rintro n ⟨lo', hi, h, -⟩
      obtain rfl := Nat.le_antisymm (h.first _ hopens) (hfirst _ h.opens)
      obtain ⟨k, rfl⟩ := Nat.exists_eq_add_of_le h.le
      exact (findAny?_eq_none_iff (by decide)).1 hhi k (anyStandsAt_drop_iff.2 h.ends)
    | some k =>
      obtain ⟨hends, hnext⟩ := (findAny?_eq_some_iff (by decide)).1 hhi
      refine .inl ⟨lo, lo + overrideLine.length + k, ⟨hopens, hfirst, Nat.le_add_right _ k,
        anyStandsAt_drop_iff.1 hends, fun n hle hn => ?_⟩, ?_⟩
      · obtain ⟨j, rfl⟩ := Nat.exists_eq_add_of_le hle
        exact Nat.add_le_add_left (hnext j (anyStandsAt_drop_iff.2 hn)) _
      · simp only [List.drop_drop]

end Cut

/-! ### What stands on both sides of the cut -/

section Sides

variable {comment m x : Text} {lo hi n : Nat}

/-- Both sides of the cut go on with the margin of a line. -/
theorem IsOverride.margins (h : IsOverride comment lo hi) :
    (∃ r, comment.drop lo = ' ' :: '*' :: r) ∧ ∃ r, comment.drop hi = ' ' :: '*' :: r := by
  constructor
  · obtain ⟨r, hr⟩ := h.opens
    exact ⟨_, hr.symm⟩
  · obtain ⟨e, he, r, hr⟩ := h.ends
    simp only [overrideEnds, List.mem_cons, List.not_mem_nil, or_false] at he
    rcases he with rfl | rfl
    · exact ⟨_, hr.symm⟩
    · exact ⟨_, hr.symm⟩

theorem IsOverride.lt_length (h : IsOverride comment lo hi) : lo < comment.length := by
  have := h.opens.add_length_le (by decide)
  have hpos : 0 < overrideLine.length := by decide
  omega

/-- A pattern that has no margin in it does not see beyond the blank of one. -/
theorem standsAt_append_margin (hm : ¬[' ', '*'] <:+: m) (hn : n < x.length) (r : Text) :
    StandsAt m (x ++ ' ' :: '*' :: r) n ↔ StandsAt m (x ++ [' ']) n := by
  have hdrop (t : Text) : (x ++ t).drop n = x.drop n ++ t :=
    List.drop_append_of_le_length (Nat.le_of_lt hn)
  rw [StandsAt, StandsAt, hdrop, hdrop]
  generalize x.drop n = u
  have hshort : u ++ [' '] <+: u ++ ' ' :: '*' :: r := ⟨'*' :: r, by simp⟩
  have hlong : u ++ [' ', '*'] <+: u ++ ' ' :: '*' :: r := ⟨r, by simp⟩
  refine ⟨fun h => ?_, fun h => h.trans hshort⟩
  by_cases hle : m.length ≤ (u ++ [' ']).length
  · exact List.prefix_of_prefix_length_le h hshort hle
  · have hprefix : u ++ [' ', '*'] <+: m := by
      refine List.prefix_of_prefix_length_le hlong h ?_
      simp only [List.length_append, List.length_cons, List.length_nil] at hle ⊢
      omega
    exact absurd ((List.suffix_append u _).isInfix.trans hprefix.isInfix) hm

/-- Up to the blank of the margin the characters are the same. -/
theorem IsOverride.getElem?_of_le (h : IsOverride comment lo hi) (hn : n ≤ lo) :
    (comment.take lo ++ comment.drop hi)[n]? = comment[n]? := by
  obtain ⟨⟨r, hr⟩, r', hr'⟩ := h.margins
  have hlength : (comment.take lo).length = lo := List.length_take_of_le (Nat.le_of_lt h.lt_length)
  rcases Nat.lt_or_eq_of_le hn with hlt | rfl
  · rw [List.getElem?_append_left (hlength.symm ▸ hlt), List.getElem?_take_of_lt hlt]
  · have hblank := congrArg List.head? hr
    rw [List.head?_drop] at hblank
    rw [List.getElem?_append_right (Nat.le_of_eq hlength), hlength, Nat.sub_self, hr', hblank]
    rfl

/-- In front of the cut the same patterns stand as before. -/
theorem IsOverride.standsAt_of_lt (h : IsOverride comment lo hi) (hm : ¬[' ', '*'] <:+: m)
    (hn : n < lo) :
    StandsAt m (comment.take lo ++ comment.drop hi) n ↔ StandsAt m comment n := by
  obtain ⟨⟨r, hr⟩, r', hr'⟩ := h.margins
  have hlt : n < (comment.take lo).length := by
    rw [List.length_take]
    have := h.lt_length
    omega
  have hcomment : comment.take lo ++ ' ' :: '*' :: r = comment := by
    rw [← hr, List.take_append_drop]
  rw [hr', standsAt_append_margin hm hlt r', ← standsAt_append_margin hm hlt r, hcomment]

/-- Behind the cut the patterns stand that stood behind the override. -/
theorem IsOverride.standsAt_add (h : IsOverride comment lo hi) :
    StandsAt m (comment.take lo ++ comment.drop hi) (lo + n) ↔ StandsAt m comment (hi + n) := by
  have hlength : (comment.take lo).length = lo := List.length_take_of_le (Nat.le_of_lt h.lt_length)
  rw [← standsAt_drop_iff, ← standsAt_drop_iff, List.drop_left' hlength]

/-- A marker is left exactly if it stands outside of the override. -/
theorem contains_withoutOverride_iff (hm : ¬[' ', '*'] <:+: m) :
    contains m (withoutOverride comment) = true ↔
      ∃ n, StandsAt m comment n ∧ ¬InOverride comment n := by
  rw [contains_iff]
  rcases withoutOverride_eq comment with ⟨lo, hi, h, heq⟩ | ⟨hno, heq⟩
  · rw [heq]
    constructor
    · rintro ⟨n, hn⟩
      by_cases hlt : n < lo
      · refine ⟨n, (h.standsAt_of_lt hm hlt).1 hn, fun hin => ?_⟩
        have := (inOverride_iff h).1 hin
        omega
      · obtain ⟨k, rfl⟩ := Nat.exists_eq_add_of_le (Nat.not_lt.1 hlt)
        refine ⟨hi + k, h.standsAt_add.1 hn, fun hin => ?_⟩
        have := (inOverride_iff h).1 hin
        omega
    · rintro ⟨n, hn, hout⟩
      rw [inOverride_iff h] at hout
      by_cases hlt : n < lo
      · exact ⟨n, (h.standsAt_of_lt hm hlt).2 hn⟩
      · obtain ⟨k, rfl⟩ : ∃ k, n = hi + k := Nat.exists_eq_add_of_le (by omega)
        exact ⟨lo + k, h.standsAt_add.2 hn⟩
  · rw [heq]
    exact exists_congr fun n => (and_iff_left (hno n)).symm

end Sides

/-! ### Tags -/

section Tags

variable {comment name t : Text}

theorem endsWord_eq_of_head? {s t : Text} (h : s.head? = t.head?) :
    Text.endsWord s = Text.endsWord t := by
  cases s <;> cases t <;> simp_all [Text.endsWord]

theorem Tag.isIn_iff_standsAt :
    Tag.isIn name t = true ↔
      ∃ n, StandsAt ('@' :: name) t n ∧ Text.endsWord (t.drop (n + (name.length + 1))) = true := by
  rw [Tag.isIn_iff]
  constructor
  · rintro ⟨before, after, rfl, hw⟩
    refine ⟨before.length, ?_, ?_⟩
    · rw [StandsAt, List.drop_left]
      exact ⟨after, rfl⟩
    · rw [← List.drop_drop, List.drop_left, List.drop_succ_cons, List.drop_left]
      exact hw
  · rintro ⟨n, ⟨after, hafter⟩, hw⟩
    refine ⟨t.take n, after, ?_, ?_⟩
    · rw [← List.cons_append, hafter, List.take_append_drop]
    · rwa [← List.drop_drop, ← hafter, List.cons_append, List.drop_succ_cons, List.drop_left] at hw

/-- A tag that is left was there before. -/
theorem isIn_of_isIn_withoutOverride (hname : ' ' ∉ name)
    (h : Tag.isIn name (withoutOverride comment) = true) : Tag.isIn name comment = true := by
  rcases withoutOverride_eq comment with ⟨lo, hi, hover, heq⟩ | ⟨-, heq⟩
  · rw [heq] at h
    obtain ⟨n, hn, hw⟩ := Tag.isIn_iff_standsAt.1 h
    have hblank : ' ' ∉ '@' :: name := by simp [hname]
    have hm : ¬[' ', '*'] <:+: '@' :: name := fun hsub => hblank (hsub.subset (by simp))
    by_cases hlt : n < lo
    · -- the tag ends in front of the blank of the margin
      have hle : n + (name.length + 1) ≤ lo := by
        by_contra hcross
        obtain ⟨i, rfl⟩ := Nat.exists_eq_add_of_lt hlt
        have hi : i + 1 < ('@' :: name).length := by
          rw [List.length_cons]
          omega
        obtain ⟨r, hr⟩ := hover.margins.1
        have hchar := hn.getElem?_eq hi
        rw [← Nat.add_assoc, hover.getElem?_of_le (Nat.le_refl _), ← List.head?_drop, hr] at hchar
        exact hblank (List.mem_of_getElem? hchar.symm)
      refine Tag.isIn_iff_standsAt.2 ⟨n, (hover.standsAt_of_lt hm hlt).1 hn, ?_⟩
      rw [← hw]
      refine endsWord_eq_of_head? ?_
      rw [List.head?_drop, List.head?_drop, hover.getElem?_of_le hle]
    · obtain ⟨k, rfl⟩ := Nat.exists_eq_add_of_le (Nat.not_lt.1 hlt)
      refine Tag.isIn_iff_standsAt.2 ⟨hi + k, hover.standsAt_add.1 hn, ?_⟩
      have hlength : (comment.take lo).length = lo :=
        List.length_take_of_le (Nat.le_of_lt hover.lt_length)
      rwa [Nat.add_assoc, ← List.drop_drop, List.drop_left' hlength, List.drop_drop,
        ← Nat.add_assoc] at hw
  · rwa [heq] at h

end Tags

end DocDecl

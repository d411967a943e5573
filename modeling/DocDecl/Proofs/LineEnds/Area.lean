import DocDecl.Proofs.Comment.Accounting
import DocDecl.Proofs.LineEnds.Comment
import DocDecl.Proofs.LineEnds.Override

/-!
# Areas and line ends

The blocks of a source stand in the same places where its lines end with carriage returns, counted
with the carriage returns in front of them. Without overrides an area differs in its offsets, and
its comment and its literal have carriage returns at their line ends; all else is the same.

## Main definitions

* `Occurrence.dosLines`, `Area.dosLines` : places and areas there.

## Main results

* `enclosing?_dosLines` : the block that holds a place.
* `occurrences_dosLines` : the places of a marker.
* `areas_dosLines` : the areas of a marker.
-/

namespace DocDecl

open Text

variable {source marker : Text} {pos : Nat}

/-! ### Places -/

theorem enclosing?_dosLines {c : Char} {t : Text} (hrest : source.drop pos = c :: t)
    (hc : c ≠ '\n') :
    enclosing? (dosLines source) (dosOffset source pos) (dosLines (c :: t)) =
      (enclosing? source pos (c :: t)).map fun b =>
        (dosOffset source b.1, dosOffset (c :: t) b.2) := by
  have hsucc : dosOffset source pos + 1 = dosOffset source (pos + 1) := by
    rw [dosOffset_succ hrest, dosLines_cons hc]
    rfl
  have hopen := rfind?_dosLines (p := "/**") (by simp [isBreak]) (by decide)
    (source.take (pos + 1))
  have hclose := find?_dosLines (p := "*/") (by simp [isBreak]) (c :: t)
  rw [enclosing?, hsucc, take_dosLines, hopen, hclose, enclosing?]
  cases hstart : rfind? "/**" (source.take (pos + 1)) with
  | none => rfl
  | some start =>
    cases find? "*/" (c :: t) with
    | none => rfl
    | some n =>
      obtain ⟨hstands, hle, -⟩ := rfind?_open_eq_some_iff.1 hstart
      have hin : dosOffset source start + 2 = dosOffset (source.take pos) (start + 2) := by
        rw [dosOffset_take hle, dosOffset_add_of_standsAt (by simp [isBreak]) hstands (by decide)]
      simp only [Option.map_some]
      rw [take_dosLines, dosOffset_take (Nat.le_succ_of_le (Nat.le_of_add_right_le hle)), hin,
        drop_dosLines, contains_dosLines (by simp [isBreak])]
      split_ifs <;> rfl

/-- The place with carriage returns of a place of a marker. -/
def Occurrence.dosLines (source : Text) : Occurrence → Occurrence
  | loose pos => loose (dosOffset source pos)
  | inBlock pos start stop =>
    inBlock (dosOffset source pos) (dosOffset source start) (dosOffset source stop)

/-- Behind a block the search goes on in the same place. -/
theorem Encloses.dosOffset_stop {start n : Nat} {c : Char} {t : Text}
    (h : Encloses source pos start n) (hrest : source.drop pos = c :: t) (hc : c ≠ '\n') :
    dosOffset source pos + dosOffset (c :: t) n + 2 = dosOffset source (pos + n + 2) ∧
      (dosLines t).drop (dosOffset (c :: t) n + 1) = dosLines (t.drop (n + 1)) := by
  have hone : ∀ c ∈ ("*/" : Text), isBreak c = false := by simp [isBreak]
  have hstands : StandsAt "*/" (c :: t) n := by rw [← hrest, standsAt_drop_iff]; exact h.closes
  constructor
  · rw [dosOffset_add_of_standsAt hone h.closes (by decide), dosOffset_add, hrest]
  · have hdrop := drop_dosLines (c :: t) (n + 2)
    rwa [dosOffset_add_of_standsAt hone hstands (by decide), dosLines_cons hc,
      List.drop_succ_cons, List.drop_succ_cons] at hdrop

theorem occurrences_dosLines (hm : ∀ c ∈ marker, isBreak c = false) (hne : marker ≠ [])
    {rest : Text} (hrest : source.drop pos = rest) :
    occurrences (dosLines source) marker (dosOffset source pos) (dosLines rest) =
      (occurrences source marker pos rest).map (Occurrence.dosLines source) := by
  have hline {c : Char} {t : Text} (hp : marker.isPrefixOf (c :: t) = true) : c ≠ '\n' := by
    rintro rfl
    rw [isPrefixOf_break hm rfl, List.isEmpty_iff] at hp
    exact hne hp
  fun_induction occurrences source marker pos rest with
  | case1 _ h => exact absurd h hne
  | case2 => simp [occurrences, hne]
  | case3 pos c t hp start n hblock ih =>
    have hc := hline hp
    have hpre := (isPrefixOf_dosLines hm (c :: t)).trans hp
    have hdos := enclosing?_dosLines hrest hc
    have ih := ih (drop_of_drop_eq_cons hrest (n + 1))
    rw [hblock] at hdos
    rw [← hrest, enclosing?_eq_some_iff] at hblock
    obtain ⟨hstop, hdrop⟩ := hblock.dosOffset_stop hrest hc
    rw [dosLines_cons hc] at hpre hdos ⊢
    rw [occurrences, if_pos hpre]
    simp only [hdos, Option.map_some, hstop, hdrop, ih]
    rfl
  | case4 pos c t hp hblock ih =>
    have hc := hline hp
    have hpre := (isPrefixOf_dosLines hm (c :: t)).trans hp
    have hdos := enclosing?_dosLines hrest hc
    have ih := ih (drop_of_drop_eq_cons hrest 0)
    rw [hblock] at hdos
    rw [dosOffset_succ hrest] at ih
    rw [dosLines_cons hc] at hpre hdos ih ⊢
    rw [occurrences, if_pos hpre]
    simp only [hdos, Option.map_none]
    rw [List.map_cons, ← ih]
    rfl
  | case5 pos c t hp ih =>
    have ih := ih (drop_of_drop_eq_cons hrest 0)
    rw [dosOffset_succ hrest] at ih
    by_cases hc : c = '\n'
    · subst hc
      have hbreak {c : Char} (hc : isBreak c = true) (t : Text) :
          ¬marker.isPrefixOf (c :: t) = true := by
        rw [isPrefixOf_break hm hc, List.isEmpty_iff]
        exact hne
      rw [dosLines_feed, occurrences, if_neg (hbreak rfl _), occurrences, if_neg (hbreak rfl _)]
      exact ih
    · have hpre : ¬marker.isPrefixOf (dosLines (c :: t)) = true := by
        rwa [isPrefixOf_dosLines hm]
      rw [dosLines_cons hc] at hpre ih ⊢
      rw [occurrences, if_neg hpre]
      exact ih

/-! ### Areas -/

theorem tagValue_dosLines (t : Text) : tagValue (dosLines t) = tagValue t := by
  have hconcat (l : Text) : trim (before "*/" (l ++ ['\r'])) = trim (before "*/" l) := by
    rw [before, cut?_concat (by decide) (by simp), before]
    cases cut? "*/" l with
    | none => exact trim_concat_return l
    | some q => rfl
  rw [tagValue, takeWhile_ne_feed_dosLines, tagValue]
  split_ifs
  · exact hconcat _
  · rw [List.append_nil]

/-- The area with carriage returns at the line ends of its source. -/
def Area.dosLines (source : Text) (a : Area) : Area :=
  { a with
    start := dosOffset source a.start
    stop := dosOffset source a.stop
    comment := DocDecl.dosLines a.comment
    literal := DocDecl.dosLines a.literal }

theorem areaAt_dosLines (hm : ∀ c ∈ marker, isBreak c = false)
    (hover : Text.contains overrideTag source = false) (kind : AreaKind) {o : Occurrence}
    (ho : o.IsPlace source marker) :
    areaAt (dosLines source) marker kind (o.dosLines source) =
      (areaAt source marker kind o).dosLines source := by
  cases o with
  | loose pos =>
    have hlen := dosOffset_add_of_standsAt hm ho.1 (Nat.le_refl _)
    simp only [Occurrence.dosLines, areaAt, Area.dosLines, ← hlen, drop_dosLines,
      tagValue_dosLines, dosLines_nil]
  | inBlock pos start stop =>
    obtain ⟨hstands, n, hblock, rfl⟩ := ho
    have hlen := dosOffset_add_of_standsAt hm hstands (Nat.le_refl _)
    have hle : start ≤ pos + n + 2 := by
      have := hblock.start_le
      omega
    have hcut : ((dosLines source).take (dosOffset source (pos + n + 2))).drop
        (dosOffset source start) = dosLines ((source.take (pos + n + 2)).drop start) := by
      rw [take_dosLines, ← dosOffset_take hle, drop_dosLines]
    have hin : (source.take (pos + n + 2)).drop start <:+: source :=
      (List.drop_suffix _ _).isInfix.trans (List.take_prefix _ _).isInfix
    have hblock := contains_eq_false_of_isInfix hin hover
    have hdos := contains_overrideTag_dosLines ((source.take (pos + n + 2)).drop start)
    simp only [Occurrence.dosLines, areaAt, Area.dosLines, ← hlen, drop_dosLines,
      tagValue_dosLines, hcut, withoutOverride_eq_self hblock, withoutOverride_eq_self hdos,
      overrideOf_eq_nil hblock, overrideOf_eq_nil hdos, Head.read_dosLines]
    split_ifs <;> rfl

/-- Where there is no override, the areas differ in their offsets, and in the line ends of comments
and literals. -/
theorem areas_dosLines (hm : ∀ c ∈ marker, isBreak c = false) (hne : marker ≠ [])
    (hover : Text.contains overrideTag source = false) (kind : AreaKind) :
    areas (dosLines source) marker kind =
      (areas source marker kind).map (Area.dosLines source) := by
  have hplaces := occurrences_dosLines hm hne (List.drop_zero (l := source))
  rw [dosOffset_zero] at hplaces
  rw [areas, hplaces, areas, List.map_map, List.map_map]
  refine List.map_congr_left fun o ho => ?_
  exact areaAt_dosLines hm hover kind (mem_occurrences hne (List.drop_zero) ho).2

end DocDecl

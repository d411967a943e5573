import DocDecl.Proofs.Comment.Naming
import DocDecl.Proofs.LineEnds.Area

/-!
# Collected areas and line ends

What a block documents is told by its tags and the head behind it, so the same areas are collected
in the same groups where the lines of the source end with carriage returns. Blocks that start
together there start together in the source, and are classified once.

## Main definitions

* `Collected.dosLines` : the collected areas there.

## Main results

* `classifyNames_map_dosLines`, `memberRole_dosLines` : what areas document.
* `value_collect_dosLines` : the groups of areas.
-/

namespace DocDecl

variable {source marker : Text} {a : Area}

theorem areasOfAll_dosLines {markers : List Text} (hm : ∀ m ∈ markers, ∀ c ∈ m, isBreak c = false)
    (hne : ∀ m ∈ markers, m ≠ []) (hover : Text.contains overrideTag source = false)
    (kind : AreaKind) :
    areasOfAll (dosLines source) markers kind =
      (areasOfAll source markers kind).map (Area.dosLines source) := by
  rw [areasOfAll, areasOfAll, List.map_flatMap]
  exact List.flatMap_congr fun m hmem => areas_dosLines (hm m hmem) (hne m hmem) hover kind

/-! ### What areas document -/

theorem Area.hasTag_dosLines {name : Text} (hn : ∀ c ∈ name, isBreak c = false) (source : Text)
    (a : Area) : (a.dosLines source).hasTag name = a.hasTag name := isIn_dosLines hn a.comment

theorem anyTag_dosLines {names : List Text} (hn : ∀ name ∈ names, ∀ c ∈ name, isBreak c = false)
    (source : Text) (a : Area) :
    names.any (a.dosLines source).hasTag = names.any a.hasTag := by
  rw [Bool.eq_iff_iff, List.any_eq_true, List.any_eq_true]
  refine exists_congr fun name => and_congr_right fun hname => ?_
  rw [Area.hasTag_dosLines (hn name hname)]

theorem nameRoles_dosLines (source : Text) (a : Area) :
    nameRoles (a.dosLines source) = nameRoles a := by
  have hclass : classTags.any (a.dosLines source).hasTag = classTags.any a.hasTag :=
    anyTag_dosLines (by simp [classTags, isBreak]) source a
  rw [nameRoles, hclass, Area.hasTag_dosLines (by simp [isBreak]),
    Area.hasTag_dosLines (by simp [isBreak]), Area.hasTag_dosLines (by simp [isBreak]),
    Area.hasTag_dosLines (by simp [isBreak])]
  rfl

theorem memberRole_dosLines (source : Text) (a : Area) :
    memberRole (a.dosLines source) = (memberRole a).dosLines source := by
  have hstatic : isStaticMember (a.dosLines source) = isStaticMember a := by
    rw [isStaticMember, Area.hasTag_dosLines (by simp [isBreak])]
    rfl
  have hvisibility : visibility (a.dosLines source) = visibility a := by
    rw [visibility, Area.hasTag_dosLines (by simp [isBreak]),
      Area.hasTag_dosLines (by simp [isBreak])]
    rfl
  rw [memberRole, hstatic, hvisibility, Area.hasTag_dosLines (by simp [isBreak])]
  rfl

theorem isUnclassified_dosLines (source : Text) (a : Area) :
    isUnclassified (a.dosLines source) = isUnclassified a := by
  have hmarkers : (knownMarkers.any fun m => Text.contains m (a.dosLines source).comment) =
      knownMarkers.any fun m => Text.contains m a.comment := by
    have hone : ∀ m ∈ knownMarkers, ∀ c ∈ m, isBreak c = false := by
      simp [knownMarkers, isBreak]
    rw [Bool.eq_iff_iff, List.any_eq_true, List.any_eq_true]
    refine exists_congr fun m => and_congr_right fun hm => ?_
    rw [Area.dosLines, contains_dosLines (hone m hm)]
  rw [isUnclassified, hmarkers, Area.hasTag_dosLines (by simp [isBreak])]
  rfl

theorem value_wellFormed_map_dosLines (source : Text) (as : List Area) :
    (wellFormed (as.map (Area.dosLines source))).value =
      (wellFormed as).value.map (Area.dosLines source) := by
  rw [value_wellFormed, value_wellFormed, List.filter_map]
  rfl

theorem start_le_length_of_mem_areas {kind : AreaKind} (hne : marker ≠ [])
    (ha : a ∈ areas source marker kind) : a.start ≤ source.length := by
  obtain ⟨o, ho, rfl⟩ := List.mem_map.1 ha
  obtain ⟨-, hplace⟩ := mem_occurrences hne List.drop_zero ho
  cases o with
  | loose pos => exact Nat.le_of_add_right_le (hplace.1.add_length_le hne)
  | inBlock pos start stop =>
    obtain ⟨-, n, hblock, -⟩ := hplace
    exact Nat.le_of_add_right_le (hblock.opens.add_length_le (by decide))

theorem firstOfEachStart_map_dosLines {as : List Area} (has : ∀ a ∈ as, a.start ≤ source.length) :
    firstOfEachStart (as.map (Area.dosLines source)) =
      (firstOfEachStart as).map (Area.dosLines source) := by
  induction as with
  | nil => rfl
  | cons a as ih =>
    obtain ⟨ha, has⟩ := List.forall_mem_cons.1 has
    rw [List.map_cons, firstOfEachStart, ih has, firstOfEachStart, List.map_cons, List.filter_map]
    congr 2
    refine List.filter_congr fun b hb => ?_
    have hb := has b (mem_of_mem_firstOfEachStart hb)
    simp only [Function.comp_apply, Area.dosLines, ne_eq, dosOffset_inj hb ha]

theorem classifyNames_map_dosLines {as : List Area} (has : ∀ a ∈ as, a.start ≤ source.length) :
    classifyNames (as.map (Area.dosLines source)) =
      (classifyNames as).map (Area.dosLines source) := by
  rw [classifyNames, firstOfEachStart_map_dosLines has, classifyNames, List.flatMap_map,
    List.map_flatMap]
  refine List.flatMap_congr fun a _ => ?_
  rw [nameRoles_dosLines, List.map_map]
  rfl

/-! ### Groups -/

/-- Collected areas, with carriage returns at the line ends of their source. -/
def Collected.dosLines (source : Text) (c : Collected) : Collected where
  names := c.names.map (Area.dosLines source)
  types := c.types.map (Area.dosLines source)
  members := c.members.map (Area.dosLines source)
  modules := c.modules.map (Area.dosLines source)
  unclassified := c.unclassified.map (Area.dosLines source)

/-- The same areas are collected, in the same groups. -/
theorem value_collect_dosLines (hover : Text.contains overrideTag source = false) :
    (collect (dosLines source)).value = (collect source).value.dosLines source := by
  have hvalue (source : Text) : (collect source).value =
      { names := classifyNames
          (wellFormed (areasOfAll source ["* @name ", "* @function ", "* @alias "] {})).value
        types := (wellFormed
          (areas source "* @typedef " { role := some .typedef, withDefinition := false } ++
            areas source "* @callback " { role := some .callback, withDefinition := false })).value
        members :=
          (wellFormed (areasOfAll source ["* @memberof ", "* @memberOf "] {})).value.map memberRole
        modules := (wellFormed (areas source "* @module" { role := some .moduleBlock })).value
        unclassified := (areas source "* @" {}).filter isUnclassified } := rfl
  have hareas {marker : Text} (hm : ∀ c ∈ marker, isBreak c = false) (hne : marker ≠ [])
      (kind : AreaKind) := areas_dosLines hm hne hover kind
  have hall {markers : List Text} (hm : ∀ m ∈ markers, ∀ c ∈ m, isBreak c = false)
      (hne : ∀ m ∈ markers, m ≠ []) := areasOfAll_dosLines hm hne hover {}
  rw [hvalue, hvalue, Collected.dosLines]
  simp only [Collected.mk.injEq]
  refine ⟨?_, ?_, ?_, ?_, ?_⟩
  · rw [hall (by simp [isBreak]) (by simp), value_wellFormed_map_dosLines,
      classifyNames_map_dosLines]
    intro a ha
    rw [value_wellFormed, List.mem_filter, areasOfAll, List.mem_flatMap] at ha
    obtain ⟨⟨m, hm, ha⟩, -⟩ := ha
    have hne : ∀ m ∈ (["* @name ", "* @function ", "* @alias "] : List Text), m ≠ [] := by
      simp
    exact start_le_length_of_mem_areas (hne m hm) ha
  · rw [hareas (by simp [isBreak]) (by decide), hareas (by simp [isBreak]) (by decide),
      ← List.map_append, value_wellFormed_map_dosLines]
  · rw [hall (by simp [isBreak]) (by simp), value_wellFormed_map_dosLines, List.map_map,
      List.map_map]
    exact List.map_congr_left fun a _ => memberRole_dosLines source a
  · rw [hareas (by simp [isBreak]) (by decide), value_wellFormed_map_dosLines]
  · rw [hareas (by simp [isBreak]) (by decide), List.filter_map]
    exact congrArg _ (List.filter_congr fun a _ => isUnclassified_dosLines source a)

end DocDecl

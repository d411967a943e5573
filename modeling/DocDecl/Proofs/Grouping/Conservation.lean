import DocDecl.Proofs.Grouping.Rendering

/-!
# Members are grouped without loss

Placing the members and promoting the statics together treat every member in one way. A public
static is promoted to the namespace, a private member is left out and reported, a member with a
declared owner is in the last of its owners, a member with a capitalised owner is in the interface
that is made up for it, and any other member is reported. No member is printed twice, and none is
lost without a report.

An interface is made up for a path as one text. It also takes members whose own path has the same
text in other segments; where no segment has a dot, there are none of these.

## Main definitions

* `Fate.Suits` : what a fate says about a member.
* `heldMembers`, `placedMembers` : the members in containers, and those that are to be in one.
* `IsGrouping` : members are grouped without loss.

## Main results

* `suits_iff` : exactly one fate suits a member.
* `heldMembers_containersOf` : the containers hold the members that have a place, once each.
* `namesClass_of_isAdopted` : only members of a capitalised owner are in an interface that is made
  up, where no segment has a dot.
* `isGrouping_intoClasses` : members are grouped without loss.
-/

namespace DocDecl

/-! ### What a fate says -/

section Fates

variable {includePrivate : Bool} {classes : List Declaration}

/-- What a fate says about a member, the declarations and the members before it. -/
def Fate.Suits (includePrivate : Bool) (classes earlier : List Declaration) (m : Declaration) :
    Fate → Prop
  | promoted => m.isPromotedStatic = true
  | hidden => m.isPromotedStatic = false ∧ m.isHidden includePrivate = true
  | owned i =>
    m.isKept includePrivate = true ∧
      (∃ d, classes[i]? = some d ∧ d.ownsPath m.ownerPath = true) ∧
        ∀ j d, i < j → classes[j]? = some d → d.ownsPath m.ownerPath = false
  | founds =>
    m.canFound includePrivate m.ownerPath = true ∧
      (∀ d ∈ classes, d.ownsPath m.ownerPath = false) ∧
        ∀ e ∈ earlier, e.canFound includePrivate m.ownerPath = false
  | joins =>
    m.isKept includePrivate = true ∧ (∀ d ∈ classes, d.ownsPath m.ownerPath = false) ∧
      ∃ e ∈ earlier, e.canFound includePrivate m.ownerPath = true
  | lost =>
    m.isKept includePrivate = true ∧ (∀ d ∈ classes, d.ownsPath m.ownerPath = false) ∧
      m.namesClass = false ∧ ∀ e ∈ earlier, e.canFound includePrivate m.ownerPath = false

/-- Exactly one fate suits a member, and it is what becomes of it. -/
theorem suits_iff {earlier : List Declaration} {m : Declaration} {f : Fate} :
    f.Suits includePrivate classes earlier m ↔
      fateAfter includePrivate classes earlier m = f := by
  rw [fateAfter_eq_iff]
  cases f with
  | promoted => rfl
  | hidden => rfl
  | owned i => exact and_congr_right fun _ => lastOwner?_eq_some_iff.symm
  | founds =>
    simp only [Fate.Suits, lastOwner?_eq_none_iff, List.any_eq_false, Bool.not_eq_true]
  | joins => simp only [Fate.Suits, lastOwner?_eq_none_iff, List.any_eq_true]
  | lost =>
    simp only [Fate.Suits, lastOwner?_eq_none_iff, List.any_eq_false, Bool.not_eq_true]

theorem getElem?_fates {members : List Declaration} {k : Nat} {m : Declaration}
    (h : members[k]? = some m) :
    (fates includePrivate classes members)[k]? =
      some (m, fateAfter includePrivate classes (members.take k) m) := by
  rw [fates, List.getElem?_mapIdx, h, Option.map_some]

theorem isSome_promotedFragment? (m : Declaration) :
    (promotedFragment? m).isSome = m.isPromotedStatic := by
  rw [promotedFragment?]
  cases ha : m.area with
  | none => rw [Declaration.isPromotedStatic, ha, Option.isSome_none]
  | some a => cases m.isPromotedStatic <;> rfl

/-- The members that are promoted are printed for the namespace, in their order. -/
theorem map_promotedFragment?_fates (ms : List Declaration) :
    (((fates includePrivate classes ms).filter (·.2 = .promoted)).map fun f =>
      promotedFragment? f.1) = (promoteStatics ms).map some := by
  induction ms using List.reverseRecOn with
  | nil => rfl
  | append_singleton ms m ih =>
    have hms : promoteStatics (ms ++ [m]) = promoteStatics ms ++ promoteStatics [m] :=
      List.filterMap_append
    rw [fates_concat, List.filter_append, List.map_append, ih, hms, List.map_append]
    congr 1
    have hfate : fateAfter includePrivate classes ms m = .promoted ↔ m.isPromotedStatic = true :=
      fateAfter_eq_iff
    rw [← isSome_promotedFragment?] at hfate
    cases hm : promotedFragment? m with
    | none =>
      rw [List.filter_cons_of_neg (by simp [hfate, hm]), promoteStatics,
        List.filterMap_cons_none hm]
      rfl
    | some f =>
      rw [List.filter_cons_of_pos (by simp [hfate, hm]), promoteStatics,
        List.filterMap_cons_some hm]
      exact congrArg (fun o => [o]) hm

end Fates

/-! ### Paths without dots -/

/-- Where no segment has a dot, the path as one text tells the last segment. -/
theorem getLastD_eq_splitOn_join {path : List Text} (h : ∀ s ∈ path, '.' ∉ s) :
    path.getLastD [] = (List.splitOn '.' (Text.join "." path)).getLastD [] := by
  by_cases hnil : path = []
  · subst hnil
    rfl
  · have hsplit : List.splitOn '.' (Text.join "." path) = path :=
      List.splitOn_intercalate '.' h hnil
    rw [hsplit]

/-- Where no segment has a dot, only members of a capitalised owner are in an interface that is made
up. -/
theorem namesClass_of_isAdopted {includePrivate : Bool} {classes members : List Declaration}
    (hdot : ∀ m ∈ members, ∀ s ∈ m.path, '.' ∉ s) {m : Declaration} {f : Fate}
    (h : (m, f) ∈ fates includePrivate classes members) (hf : f.isAdopted = true) :
    m.namesClass = true := by
  obtain ⟨g, hg, hpath⟩ := exists_founder_of_isAdopted h hf
  have hmem {e : Declaration × Fate} (he : e ∈ fates includePrivate classes members) :
      e.1 ∈ members := by
    rw [← map_fst_fates members]
    exact List.mem_map_of_mem he
  obtain ⟨e, he, rfl⟩ := List.mem_map.1 hg
  have hlast : e.1.path.getLastD [] = m.path.getLastD [] := by
    rw [getLastD_eq_splitOn_join (hdot _ (hmem (List.mem_filter.1 he).1)),
      getLastD_eq_splitOn_join (hdot _ (hmem h))]
    exact congrArg (fun t => (List.splitOn '.' t).getLastD []) hpath
  rw [Declaration.namesClass, ← hlast]
  exact namesClass_of_mem_founders hg

/-! ### Members in containers -/

section Held

variable {includePrivate : Bool} {classes : List Declaration}

/-- A member apart from its heads, which an interface changes. -/
def Declaration.withoutHeads (m : Declaration) : Declaration := { m with heads := [] }

theorem withoutHeads_asMemberOf (d m : Declaration) :
    (d.asMemberOf m).withoutHeads = m.withoutHeads := by
  rw [Declaration.asMemberOf]
  split <;> rfl

/-- The members in all containers. -/
def heldMembers (cs : List Container) : List Declaration :=
  cs.flatMap fun c => c.members.map Declaration.withoutHeads

theorem heldMembers_cons (c : Container) (cs : List Container) :
    heldMembers (c :: cs) = c.members.map Declaration.withoutHeads ++ heldMembers cs :=
  List.flatMap_cons

theorem map_withoutHeads_add (c : Container) (m : Declaration) :
    (c.add m).members.map Declaration.withoutHeads =
      c.members.map Declaration.withoutHeads ++ [m.withoutHeads] := by
  have hadd : (c.add m).members = c.members ++ [c.declaration.asMemberOf m] := rfl
  rw [hadd, List.map_append, List.map_singleton, withoutHeads_asMemberOf]

theorem heldMembers_addToOwner {m : Declaration} {cs cs' : List Container}
    (h : addToOwner m cs = some cs') :
    (heldMembers cs').Perm (heldMembers cs ++ [m.withoutHeads]) := by
  induction cs generalizing cs' with
  | nil => simp [addToOwner] at h
  | cons c cs ih =>
    rw [addToOwner] at h
    cases ha : addToOwner m cs with
    | some ds =>
      rw [ha] at h
      obtain rfl := Option.some.inj h
      rw [heldMembers_cons, heldMembers_cons, List.append_assoc]
      exact (ih ha).append_left _
    | none =>
      simp only [ha] at h
      split_ifs at h
      obtain rfl := Option.some.inj h
      rw [heldMembers_cons, heldMembers_cons, map_withoutHeads_add, List.append_assoc,
        List.append_assoc]
      exact List.perm_append_comm.append_left _

/-- Whether a member is in a container. -/
def Fate.isPlaced (f : Fate) : Bool := f.isAdopted || f matches .owned _

/-- The members that are in a container. -/
def placedMembers (fs : List (Declaration × Fate)) : List Declaration :=
  (fs.filter (·.2.isPlaced)).map (·.1.withoutHeads)

theorem placedMembers_concat (fs : List (Declaration × Fate)) (m : Declaration) (f : Fate) :
    placedMembers (fs ++ [(m, f)]) =
      placedMembers fs ++ if f.isPlaced then [m.withoutHeads] else [] := by
  rw [placedMembers, List.filter_append, List.map_append, ← placedMembers]
  by_cases hf : f.isPlaced = true <;> simp [hf]

theorem heldMembers_containersOf_concat (ms : List Declaration) (m : Declaration) :
    (heldMembers (containersOf classes (fates includePrivate classes (ms ++ [m])))).Perm
      (heldMembers (containersOf classes (fates includePrivate classes ms)) ++
        if (fateAfter includePrivate classes ms m).isPlaced then [m.withoutHeads] else []) := by
  -- a member without a place leaves the containers as they are
  have hstays {f : Fate} (hf : fateAfter includePrivate classes ms m = f)
      (howned : ∀ i, f ≠ .owned i) (hadopted : f.isAdopted = false) :
      (heldMembers (containersOf classes (fates includePrivate classes (ms ++ [m])))).Perm
        (heldMembers (containersOf classes (fates includePrivate classes ms)) ++ []) := by
    rw [fates_concat, hf, containersOf_concat howned hadopted, List.append_nil]
  cases hf : fateAfter includePrivate classes ms m with
  | promoted => exact hstays hf (by simp) rfl
  | hidden => exact hstays hf (by simp) rfl
  | owned i => exact heldMembers_addToOwner (addToOwner_containersOf_owned hf)
  | founds =>
    rw [containersOf_founds hf, heldMembers, List.flatMap_append, List.flatMap_singleton,
      map_withoutHeads_add]
    exact List.Perm.refl _
  | joins => exact heldMembers_addToOwner (addToOwner_containersOf_joins hf)
  | lost => exact hstays hf (by simp) rfl

/-- The containers hold exactly the members that are sent to them. -/
theorem heldMembers_containersOf (ms : List Declaration) :
    (heldMembers (containersOf classes (fates includePrivate classes ms))).Perm
      (placedMembers (fates includePrivate classes ms)) := by
  induction ms using List.reverseRecOn with
  | nil =>
    have hnil : heldMembers (classes.map fun d => ⟨d, []⟩) = [] := by
      rw [heldMembers, List.flatMap_eq_nil_iff, List.forall_mem_map]
      exact fun _ _ => rfl
    exact List.Perm.of_eq ((congrArg heldMembers containersOf_nil).trans hnil)
  | append_singleton ms m ih =>
    refine (heldMembers_containersOf_concat ms m).trans ?_
    rw [fates_concat, placedMembers_concat]
    exact ih.append_right _

end Held

/-! ### The grouping -/

/-- Members are grouped without loss. -/
structure IsGrouping (includePrivate : Bool) (classes members : List Declaration) : Prop where
  /-- Exactly one fate suits a member, which is what becomes of it. -/
  suits : ∀ k m, members[k]? = some m →
    ∃ f, (fates includePrivate classes members)[k]? = some (m, f) ∧
      ∀ f' : Fate, f'.Suits includePrivate classes (members.take k) m ↔ f' = f
  /-- The public statics, and no others, are printed for the namespace, once each and in order. -/
  promoted :
    (((fates includePrivate classes members).filter (·.2 = .promoted)).map fun f =>
      promotedFragment? f.1) = (promoteStatics members).map some
  /-- What is reported of members is what their fates say, once for each and in order. -/
  reported :
    (intoClasses includePrivate classes members).run.reports.filter
        (fun r => r.category = ("Class Member" : Text)) =
      (fates includePrivate classes members).filterMap fun f => f.2.report? f.1
  /-- The containers hold the members that have a place, once each, and no others. -/
  held :
    (heldMembers (containersOf classes (fates includePrivate classes members))).Perm
      (placedMembers (fates includePrivate classes members))
  /-- One interface is made up for the path of a member that has no declared owner. -/
  adopted : ∀ m f, (m, f) ∈ fates includePrivate classes members → f.isAdopted = true →
    ((madeUpContainers (fates includePrivate classes members)).map fun c =>
      c.declaration.fullPath).count m.ownerPath = 1
  /-- Where no segment has a dot, such a member has a capitalised owner itself. -/
  capitalised : (∀ m ∈ members, ∀ s ∈ m.path, '.' ∉ s) →
    ∀ m f, (m, f) ∈ fates includePrivate classes members → f.isAdopted = true →
      m.namesClass = true
  /-- The containers that survive are printed in order, unless one of them has no head. -/
  printed :
    Work.outcome (intoClasses includePrivate classes members) =
      let cs := containersOf classes (fates includePrivate classes members)
      if cs.any fun c => c.survives includePrivate && c.declaration.isHeadless then
        .error .missingHead
      else .ok ((cs.filter (·.survives includePrivate)).map Container.fragment)

section Grouping

variable {includePrivate : Bool} {classes members : List Declaration}

theorem count_fullPath_madeUpContainers {m : Declaration} {f : Fate}
    (h : (m, f) ∈ fates includePrivate classes members) (hf : f.isAdopted = true) :
    ((madeUpContainers (fates includePrivate classes members)).map fun c =>
      c.declaration.fullPath).count m.ownerPath = 1 := by
  have hpaths : ((madeUpContainers (fates includePrivate classes members)).map fun c =>
      c.declaration.fullPath) =
        (founders (fates includePrivate classes members)).map Declaration.ownerPath := by
    rw [madeUpContainers, List.map_map]
    exact List.map_congr_left fun g hg =>
      fullPath_madeUpContainer (namesClass_of_mem_founders hg)
  obtain ⟨g, hg, hpath⟩ := exists_founder_of_isAdopted h hf
  rw [hpaths, ← hpath, List.Nodup.count (nodup_ownerPath_founders members),
    if_pos (List.mem_map_of_mem hg)]

/-- Placing the members and promoting the statics together group the members without loss. -/
theorem isGrouping_intoClasses (h : ∀ m ∈ members, m.isMember = true) :
    IsGrouping includePrivate classes members where
  suits _ _ hm := ⟨_, getElem?_fates hm, fun _ => suits_iff.trans eq_comm⟩
  promoted := map_promotedFragment?_fates members
  reported := reports_intoClasses
  held := heldMembers_containersOf members
  adopted _ _ hm hf := count_fullPath_madeUpContainers hm hf
  capitalised hdot _ _ hm hf := namesClass_of_isAdopted hdot hm hf
  printed := outcome_intoClasses h

/-- One member for each fate. -/
theorem isGrouping_of_each_fate :
    let shape : Declaration :=
      { area := none, path := [], name := "Shape", heads := ["class Shape"],
        role := some .classBody }
    let area : Area := ⟨0, 0, [], [], [], ["public", "static"], none, [], [], false⟩
    let members : List Declaration :=
      [{ area := none, path := ["Shape"], name := "constructor", heads := [],
          role := some .constructor },
        { area := some area, path := ["Shape"], name := "unit", heads := [], role := some .field },
        { area := some { area with modifiers := [], comment := "/** @private */" },
          path := ["Shape"], name := "id", heads := [], role := some .field },
        { area := none, path := ["Point"], name := "x", heads := [], role := some .field,
          signature := "x: number" },
        { area := none, path := ["Point"], name := "y", heads := [], role := some .field,
          signature := "y: number" },
        { area := none, path := ["shape"], name := "lost", heads := [], role := some .method }]
    (∀ m ∈ members, m.isMember = true) ∧
      IsGrouping false [shape] members ∧
        (fates false [shape] members).map Prod.snd =
          [.owned 0, .promoted, .hidden, .founds, .joins, .lost] := by
  intro shape area members
  have hroles : ∀ m ∈ members, m.isMember = true := List.all_eq_true.1 rfl
  exact ⟨hroles, isGrouping_intoClasses hroles, by decide⟩

/-- A segment with a dot lets a member of `b` in `A` into the interface that is made up for the one
segment `A.b`, and a class without a head cannot be printed with its members. -/
theorem not_reported_of_dotted_segment :
    let x : Declaration :=
      { area := none, path := ["A.b"], name := "x", heads := [], role := some .method,
        signature := "x(): void" }
    let y : Declaration :=
      { area := none, path := ["A", "b"], name := "y", heads := [], role := some .method,
        signature := "y(): void" }
    let headless : Declaration :=
      { area := none, path := [], name := "A", heads := [], role := some .classBody }
    let z : Declaration :=
      { area := none, path := ["A"], name := "z", heads := [], role := some .method }
    (y.isMember = true ∧ y.isKept false = true ∧ y.namesClass = false ∧
      (intoClasses false [] [x, y]).run.reports = [] ∧
        Work.outcome (intoClasses false [] [x, y]) =
          .ok [⟨none, "interface A.b \x7b\n  x(): void\n  y(): void\n\x7d", []⟩]) ∧
      z.isMember = true ∧
        Work.outcome (intoClasses false [headless] [z]) = .error .missingHead := by
  decide

end Grouping

end DocDecl

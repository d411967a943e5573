import DocDecl.Proofs.Declaration.Expansion
import DocDecl.Proofs.Generation.Stages
import DocDecl.Proofs.Grouping.Conservation
import DocDecl.Proofs.Grouping.Privacy

/-!
# What of the private blocks is printed

Where private declarations are not wanted, private classes are dropped and private members are in no
container and are not promoted. Nothing else asks whether a block is private: functions, types and
callbacks are printed in any case, and so are the members that a literal documents, as a part of the
type of its owner. So the private blocks that fragments come from are those of functions, and those
of types and callbacks with a name.

## Main definitions

* `Collected.PrintsAnyway` : the blocks that are printed whether or not they are private.
* `PrivateFragments` : what of the private blocks of a source is printed.

## Main results

* `mem_members_containersOf` : members of containers are members that are kept.
* `exists_fragment_iff_of_isPrivate` : the private blocks that fragments come from.
* `privateFragments` : what of the private blocks of a source is printed.
-/

namespace DocDecl

/-! ### Areas of declarations -/

section Areas

variable {as : List Area} {d : Declaration} {a : Area}

theorem area_of_mem_declareFunctions (hd : d ∈ (declareFunctions as).value) :
    ∃ a ∈ as, a.role = some .function ∧ d.area = some a := by
  rw [declareFunctions, Noted.value_mapM] at hd
  obtain ⟨a, ha, rfl⟩ := List.mem_map.1 hd
  obtain ⟨ha, hrole⟩ := List.mem_filter.1 ha
  exact ⟨a, ha, of_decide_eq_true hrole, rfl⟩

theorem exists_mem_declareFunctions (ha : a ∈ as) (hrole : a.role = some .function) :
    ∃ d ∈ (declareFunctions as).value, d.area = some a ∧ d.role = some .function := by
  rw [declareFunctions, Noted.value_mapM]
  refine ⟨_, List.mem_map_of_mem (List.mem_filter.2 ⟨ha, decide_eq_true hrole⟩), rfl, rfl⟩

theorem role_of_mem_declareClasses (hd : d ∈ declareClasses as) : d.role = some .classBody := by
  obtain ⟨a, -, rfl⟩ := List.mem_map.1 hd
  rfl

theorem area_declareTypedef (a : Area) :
    (declareTypedef a).value.map Declaration.area =
      if (TypeName.ofValue a.value).name.isEmpty then none else some (some a) := by
  rw [declareTypedef, Noted.value_bind]
  dsimp only
  split_ifs <;> rfl

theorem area_declareCallback (a : Area) :
    (declareCallback a).value.map Declaration.area =
      if (TypeName.ofValue a.value).name.isEmpty then none else some (some a) := by
  rw [declareCallback, Noted.value_bind]
  dsimp only
  split_ifs <;> rfl

/-- Where each area with a name makes one declaration, the areas of the declarations are these. -/
theorem exists_mem_filterMap_mapM_iff {f : Area → Noted (Option Declaration)}
    (hf : ∀ a, (f a).value.map Declaration.area =
      if (TypeName.ofValue a.value).name.isEmpty then none else some (some a)) {r : Role} :
    (∃ d ∈ ((as.filter fun a => a.role = some r).mapM f).value.filterMap id, d.area = some a) ↔
      a ∈ as ∧ a.role = some r ∧ (TypeName.ofValue a.value).name ≠ [] := by
  constructor
  · rintro ⟨d, hd, hda⟩
    obtain ⟨b, hb, hbd⟩ := exists_of_mem_filterMap_mapM hd
    obtain ⟨hb, hrole⟩ := List.mem_filter.1 hb
    have hfb := hf b
    rw [hbd, Option.map_some, hda] at hfb
    split_ifs at hfb with hname
    obtain rfl : a = b := by simpa using hfb
    exact ⟨hb, of_decide_eq_true hrole, by simpa [List.isEmpty_iff] using hname⟩
  · rintro ⟨ha, hrole, hname⟩
    have hfa := hf a
    rw [if_neg (by simpa [List.isEmpty_iff] using hname), Option.map_eq_some_iff] at hfa
    obtain ⟨d, hd, hda⟩ := hfa
    refine ⟨d, ?_, hda⟩
    rw [Noted.value_mapM, List.filterMap_map]
    exact List.mem_filterMap.2 ⟨a, List.mem_filter.2 ⟨ha, decide_eq_true hrole⟩, hd⟩

/-- The first modifier of a private member is not `public`. -/
theorem isPromotedStatic_of_isPrivate {expand : Bool} {source : Text}
    (hd : d ∈ (declareMembers expand (collect source).value.members).value)
    (hp : d.isPrivate = true) : d.isPromotedStatic = false := by
  obtain ⟨b, hb, rfl⟩ := List.mem_map.1 (mem_declareMembers_iff.1 hd).1
  have hb := (List.mem_filter.1 hb).1
  rw [members_collect] at hb
  obtain ⟨a, -, rfl⟩ := List.mem_map.1 hb
  have hprivate : a.hasTag "private" = true := hp
  have hmodifiers : (memberRole a).modifiers =
      "private".toList :: if isStaticMember a then ["static".toList] else [] := by
    rw [memberRole, visibility, if_pos hprivate]
  have harea : (memberDeclaration expand (memberRole a)).area = some (memberRole a) := rfl
  rw [Declaration.isPromotedStatic, harea]
  simp [hmodifiers]

end Areas

/-! ### Containers and their members -/

section Containers

variable {includePrivate : Bool} {classes members : List Declaration} {c : Container}

/-- Members of containers are members that are kept. -/
theorem mem_members_containersOf
    (hc : c ∈ containersOf classes (fates includePrivate classes members)) {m : Declaration}
    (hm : m ∈ c.members) :
    ∃ m₀ ∈ members, m₀.isKept includePrivate = true ∧ m = c.declaration.asMemberOf m₀ := by
  have hkept {m₀ : Declaration} {f : Fate} (hf : (m₀, f) ∈ fates includePrivate classes members)
      (hplaced : f.isPlaced = true) : m₀ ∈ members ∧ m₀.isKept includePrivate = true := by
    obtain ⟨hm₀, earlier, hfate⟩ := fate_of_mem_fates hf
    have hfate := fateAfter_eq_iff.1 hfate
    cases f with
    | owned i => exact ⟨hm₀, hfate.1⟩
    | founds =>
      simp only [Declaration.canFound, Bool.and_eq_true] at hfate
      exact ⟨hm₀, hfate.1.1.1⟩
    | joins => exact ⟨hm₀, hfate.1⟩
    | promoted => exact absurd hplaced (by decide)
    | hidden => exact absurd hplaced (by decide)
    | lost => exact absurd hplaced (by decide)
  rcases List.mem_append.1 hc with hc | hc
  · obtain ⟨i, hi, rfl⟩ := List.mem_mapIdx.1 hc
    obtain ⟨⟨m₀, f⟩, hf, rfl⟩ := List.mem_map.1 hm
    obtain ⟨hf, howned⟩ := List.mem_filter.1 hf
    obtain rfl : f = .owned i := of_decide_eq_true howned
    obtain ⟨hm₀, hk⟩ := hkept hf rfl
    exact ⟨m₀, hm₀, hk, rfl⟩
  · obtain ⟨g, -, rfl⟩ := List.mem_map.1 hc
    obtain ⟨⟨m₀, f⟩, hf, rfl⟩ := List.mem_map.1 hm
    obtain ⟨hf, hadopted⟩ := List.mem_filter.1 hf
    simp only [Bool.and_eq_true] at hadopted
    obtain ⟨hm₀, hk⟩ := hkept hf (by simp [Fate.isPlaced, hadopted.1])
    exact ⟨m₀, hm₀, hk, rfl⟩

theorem isPrivate_asMemberOf (d m : Declaration) : (d.asMemberOf m).isPrivate = m.isPrivate := by
  rw [Declaration.asMemberOf]
  split <;> rfl

/-- No container holds a private member. -/
theorem isPrivate_of_mem_members (hc : c ∈ containersOf classes (fates false classes members))
    {m : Declaration} (hm : m ∈ c.members) : m.isPrivate = false := by
  obtain ⟨m₀, -, hkept, rfl⟩ := mem_members_containersOf hc hm
  rw [isPrivate_asMemberOf, ← isHidden_false]
  simp only [Declaration.isKept, Bool.and_eq_true, Bool.not_eq_true'] at hkept
  exact hkept.2

theorem exists_container_of_mem {d : Declaration} (hd : d ∈ classes)
    (fs : List (Declaration × Fate)) : ∃ c ∈ containersOf classes fs, c.declaration = d := by
  obtain ⟨i, hi, rfl⟩ := List.mem_iff_getElem.1 hd
  exact ⟨_, List.mem_append_left _ (List.mem_mapIdx.2 ⟨i, hi, rfl⟩), rfl⟩

theorem declaration_mem_of_area {fs : List (Declaration × Fate)} (hc : c ∈ containersOf classes fs)
    {a : Area} (ha : c.declaration.area = some a) : c.declaration ∈ classes := by
  rcases List.mem_append.1 hc with hc | hc
  · obtain ⟨i, hi, rfl⟩ := List.mem_mapIdx.1 hc
    exact List.getElem_mem hi
  · obtain ⟨g, -, rfl⟩ := List.mem_map.1 hc
    simp [madeUpContainer, madeUpInterface] at ha

/-- Of the private declarations, functions alone are printed. -/
theorem survives_iff_of_isPrivate (h : c.declaration.isPrivate = true) :
    c.survives false = true ↔ c.declaration.role = some .function := by
  simp [Container.survives, isHidden_false, h]

end Containers

/-! ### Areas of fragments -/

section Fragments

variable {d : Declaration} {f : Fragment}

theorem of_ite_ok {α ε : Type} {p : Prop} [Decidable p] {e : ε} {x : Except ε α} {a : α}
    (h : (if p then .error e else x) = .ok a) : ¬p := by
  intro hp
  rw [if_pos hp] at h
  cases h

theorem area_of_typedefFragment (h : typedefFragment d = .ok f) : f.area = d.area := by
  rw [typedefFragment, if_neg (of_ite_ok h)] at h
  cases hd : d.head with
  | error e => simp [hd, bind, Except.bind] at h
  | ok head =>
    simp only [hd, bind, Except.bind, pure, Except.pure, Except.ok.injEq] at h
    rw [← h]

theorem area_of_callbackFragment (h : callbackFragment d = .ok f) : f.area = d.area := by
  rw [callbackFragment, if_neg (of_ite_ok h)] at h
  cases hd : d.head with
  | error e => simp [hd, bind, Except.bind] at h
  | ok head =>
    simp only [hd, bind, Except.bind, pure, Except.pure, Except.ok.injEq] at h
    rw [← h]

theorem area_of_promotedFragment? (h : promotedFragment? d = some f) :
    f.area = d.area ∧ d.isPromotedStatic = true := by
  have hp : d.isPromotedStatic = true := by
    rw [← isSome_promotedFragment?, h, Option.isSome_some]
  refine ⟨?_, hp⟩
  rw [promotedFragment?] at h
  cases ha : d.area with
  | none => simp [ha] at h
  | some a =>
    simp only [ha] at h
    rw [if_pos hp] at h
    rw [← Option.some.inj h]

/-- Where each declaration is printed as a fragment of its area, the areas are those of the
declarations. -/
theorem exists_area_mapM_iff {g : Declaration → Except Fault Fragment}
    (hg : ∀ d f, g d = .ok f → f.area = d.area) {ds : List Declaration} {fs : List Fragment}
    (h : ds.mapM g = .ok fs) (a : Area) :
    (∃ f ∈ fs, f.area = some a) ↔ ∃ d ∈ ds, d.area = some a := by
  have hareas : fs.map Fragment.area = ds.map Declaration.area := by
    induction ds generalizing fs with
    | nil =>
      obtain rfl := Except.ok.inj h
      rfl
    | cons d ds ih =>
      rw [List.mapM_cons] at h
      cases hd : g d with
      | error e => simp [hd, bind, Except.bind] at h
      | ok f =>
        cases hds : ds.mapM g with
        | error e => simp [hd, hds, bind, Except.bind] at h
        | ok fs' =>
          simp only [hd, hds, bind, Except.bind, pure, Except.pure, Except.ok.injEq] at h
          rw [← h, List.map_cons, List.map_cons, ih hds, hg d f hd]
  rw [← List.mem_map, ← List.mem_map, hareas]

end Fragments

/-! ### The private blocks of a source -/

section Source

variable {options : Options} {source : Text} {a : Area}

theorem mem_named_iff {d : Declaration} :
    d ∈ (declared options source).named ↔
      d ∈ declareClasses (collect source).value.names ∨
        d ∈ (declareFunctions (collect source).value.names).value :=
  (perm_inSourceOrder _).mem_iff.trans List.mem_append

/-- The private blocks that containers come from are those of functions. -/
theorem exists_containerFragment_iff (ha : a.isPrivate = true) :
    (∃ f ∈ (((declared options source).containers false).filter (·.survives false)).map
        Container.fragment, f.area = some a) ↔
      a ∈ (collect source).value.names ∧ a.role = some .function := by
  constructor
  · rintro ⟨f, hf, hfa⟩
    obtain ⟨c, hc, rfl⟩ := List.mem_map.1 hf
    obtain ⟨hc, hsurvives⟩ := List.mem_filter.1 hc
    have hca : c.declaration.area = some a := hfa
    have hprivate : c.declaration.isPrivate = true := by
      rw [Declaration.isPrivate, hca]
      exact ha
    have hrole := (survives_iff_of_isPrivate hprivate).1 hsurvives
    rcases mem_named_iff.1 (declaration_mem_of_area hc hca) with hd | hd
    · exact absurd ((role_of_mem_declareClasses hd).symm.trans hrole) (by decide)
    · obtain ⟨b, hb, hbrole, hba⟩ := area_of_mem_declareFunctions hd
      obtain rfl := Option.some.inj (hca.symm.trans hba)
      exact ⟨hb, hbrole⟩
  · rintro ⟨hmem, hrole⟩
    obtain ⟨d, hd, hda, hdrole⟩ := exists_mem_declareFunctions hmem hrole
    have hnamed : d ∈ (declared options source).named := mem_named_iff.2 (Or.inr hd)
    obtain ⟨c, hc, rfl⟩ : ∃ c ∈ (declared options source).containers false, c.declaration = d :=
      exists_container_of_mem hnamed _
    refine ⟨c.fragment, List.mem_map_of_mem (List.mem_filter.2 ⟨hc, ?_⟩), hda⟩
    simp [Container.survives, hdrole]

/-- No private block is that of a promoted static. -/
theorem not_exists_promotedFragment (ha : a.isPrivate = true) :
    ¬∃ f ∈ promoteStatics (declared options source).members, f.area = some a := by
  rintro ⟨f, hf, hfa⟩
  obtain ⟨d, hd, hdf⟩ := List.mem_filterMap.1 hf
  obtain ⟨harea, hpromoted⟩ := area_of_promotedFragment? hdf
  have hprivate : d.isPrivate = true := by
    rw [Declaration.isPrivate, ← harea, hfa]
    exact ha
  have := isPromotedStatic_of_isPrivate hd hprivate
  simp [hpromoted] at this

/-- The blocks that are printed whether or not they are private: those of functions, and those of
types and callbacks with a name. -/
def Collected.PrintsAnyway (c : Collected) (a : Area) : Prop :=
  (a ∈ c.names ∧ a.role = some .function) ∨
    (a ∈ c.types ∧ (a.role = some .typedef ∨ a.role = some .callback) ∧
      (TypeName.ofValue a.value).name ≠ [])

/-- The private blocks that fragments come from. -/
theorem exists_fragment_iff_of_isPrivate {fs : List Fragment}
    (h : ((declared options source).fragments false).run.value = .ok fs)
    (ha : a.isPrivate = true) :
    (∃ f ∈ fs, f.area = some a) ↔ (collect source).value.PrintsAnyway a := by
  have hprintable : (declared options source).IsPrintable := isPrintable_declareAll _ _
  obtain ⟨typedefs, callbacks, htypedefs, hcallbacks, hfs⟩ := exists_value_fragments hprintable
  obtain rfl := Except.ok.inj (h.symm.trans hfs)
  have htypes : (∃ f ∈ typedefs, f.area = some a) ↔ a ∈ (collect source).value.types ∧
      a.role = some .typedef ∧ (TypeName.ofValue a.value).name ≠ [] :=
    (exists_area_mapM_iff (fun _ _ => area_of_typedefFragment) htypedefs a).trans
      (exists_mem_filterMap_mapM_iff area_declareTypedef)
  have hcalls : (∃ f ∈ callbacks, f.area = some a) ↔ a ∈ (collect source).value.types ∧
      a.role = some .callback ∧ (TypeName.ofValue a.value).name ≠ [] :=
    (exists_area_mapM_iff (fun _ _ => area_of_callbackFragment) hcallbacks a).trans
      (exists_mem_filterMap_mapM_iff area_declareCallback)
  simp only [List.mem_append, or_and_right, exists_or]
  rw [htypes, hcalls, exists_containerFragment_iff ha,
    or_iff_left (not_exists_promotedFragment ha), or_comm]
  exact or_congr_right (by rw [← and_or_left, ← or_and_right])

/-- What of the private blocks of a source is printed where private declarations are not wanted. -/
structure PrivateFragments (options : Options) (source : Text) : Prop where
  /-- There are fragments, which the text of the source is put together from; those of private
  blocks are the fragments of functions, and of types and callbacks with a name. -/
  fragments : ∃ fs, ((declared options source).fragments false).run.value = .ok fs ∧
    (options.includePrivate = false → (declarationsOf options source).run.value =
      ((declared options source).assemble fs).run.value) ∧
    ∀ a : Area, a.isPrivate = true →
      ((∃ f ∈ fs, f.area = some a) ↔ (collect source).value.PrintsAnyway a)
  /-- No container holds a private member. -/
  containers : ∀ c ∈ (declared options source).containers false, ∀ m ∈ c.members,
    m.isPrivate = false
  /-- The type of a documented default is made up of all members that its literal declares, and so
  shows the private ones among them. -/
  defaults : ∀ a ∈ (collect source).value.members, a.readsDefault = true →
    documentsMembers options.expandDefaults a = true →
      let ds := (declareMembers options.expandDefaults (literalMembers a.literal)).value
      (memberDeclaration options.expandDefaults a).signature =
          memberName a.definition ++ ": " ++ membersType ds ∧
        ∀ d ∈ ds, propertyText d <:+: (memberDeclaration options.expandDefaults a).signature

/-- Private classes, members and statics are not printed; private functions, types and callbacks
are, and the private members of documented defaults. -/
theorem privateFragments (options : Options) (source : Text) : PrivateFragments options source where
  fragments := by
    have hprintable : (declared options source).IsPrintable := isPrintable_declareAll _ _
    obtain ⟨typedefs, callbacks, -, -, hfs⟩ := exists_value_fragments hprintable
    refine ⟨_, hfs, fun hoptions => ?_, fun a ha => exists_fragment_iff_of_isPrivate hfs ha⟩
    rw [value_declarationsOf, hoptions, layout_eq]
    exact value_run_bind hfs _
  containers _ hc _ hm := isPrivate_of_mem_members hc hm
  defaults _ _ hr hd := ⟨signature_of_documentsMembers hr hd, fun _ => infix_signature_of_mem hr hd⟩

/-- A private function is printed, and so is a private member of a documented default, as a part of
the type of its owner. -/
theorem not_hidden_of_private :
    let source : Text :=
      "/**\n * @memberof A\n */\nA.prototype.opts = \x7b\n" ++
        "  /**\n   * @memberof A.opts\n   */\n  shown: 1,\n" ++
        "  /**\n   * @memberof A.opts\n   * @private\n   */\n  secret: 2\n\x7d;\n" ++
        "/**\n * @function hidden\n * @private\n */\nfunction hidden() \x7b\x7d\n"
    let d := declared {} source
    ((d.fragments false).run.value.toOption.map fun fs => fs.map fun f =>
        (f.area.map Area.isPrivate).getD false) = some [true, false] ∧
      (d.members.map fun m => (m.ownerPath, m.signature)) =
        [("A".toList, ("opts: \x7b\n  shown\n" ++
          "  /**\n   * @private\n   */\n  secret\n\x7d").toList)] := by
  decide +kernel

end Source

end DocDecl

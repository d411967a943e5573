import DocDecl.Generation.Basic
import DocDecl.Proofs.Declaration.Members
import DocDecl.Proofs.Grouping.Partition

/-!
# Every source has declarations

Printing can fail in two ways only: a declaration is of a role that its place does not take, or it
has neither a head nor an override. No declaration that is made from areas is like that, and none of
the stages between changes its role or takes its head away. So a generation fails only with a rule
of the settings that cannot be applied.

## Main definitions

* `Generating.Succeeds` : a part of generation that gives a result.
* `Declared.IsPrintable` : what declarations have to be like for printing.

## Main results

* `isPrintable_declareAll` : the declarations of all areas can be printed.
* `succeeds_layout` : declarations that can be printed are.
* `succeeds_declarationsOf` : every source has declarations.
* `exists_value_generate_iff` : a generation gives a text if the rules of the settings do.
-/

namespace DocDecl

/-! ### Parts of generation -/

section Generating

variable {α β : Type} {x : Generating α} {f : α → Generating β}

/-- A part of generation that gives a result. -/
def Generating.Succeeds (x : Generating α) : Prop := ∃ a, x.run.value = .ok a

theorem succeeds_pure (a : α) : (pure a : Generating α).Succeeds := ⟨a, rfl⟩

theorem succeeds_bind (hx : x.Succeeds) (hf : ∀ a, (f a).Succeeds) : (x >>= f).Succeeds := by
  obtain ⟨a, ha⟩ := hx
  obtain ⟨b, hb⟩ := hf a
  refine ⟨b, ?_⟩
  rw [ExceptT.run_bind, Noted.value_bind, ha]
  exact hb

theorem succeeds_ofNoted_bind {x : Noted α} (hf : (f x.value).Succeeds) :
    (Generating.ofNoted x >>= f).Succeeds := hf

theorem succeeds_ofWork {x : Work α} {a : α} (hx : Work.outcome x = .ok a) :
    (Generating.ofWork x).Succeeds := by
  refine ⟨a, ?_⟩
  change (Work.outcome x).mapError _ = _
  rw [hx]
  rfl

theorem succeeds_ofExcept {x : Except Fault α} {a : α} (hx : x = .ok a) :
    (Generating.ofExcept x).Succeeds := by
  rw [hx]
  exact ⟨a, rfl⟩

end Generating

/-! ### The declarations of areas -/

/-- What declarations have to be like for printing: members have the roles of members, types and
callbacks have their own, and all others have a head. -/
structure Declared.IsPrintable (d : Declared) : Prop where
  members : ∀ m ∈ d.members, m.isMember = true
  constructors : ∀ m ∈ d.constructors, m.isMember = true
  namespaces : ∀ n ∈ d.namespaces, n.isHeadless = false
  named : ∀ c ∈ d.named, c.isHeadless = false
  typedefs : ∀ t ∈ d.typedefs, t.role = some .typedef ∧ t.isHeadless = false
  callbacks : ∀ c ∈ d.callbacks, c.role = some .callback ∧ c.isHeadless = false
  modules : ∀ m ∈ d.modules, m.isHeadless = false

section Areas

variable {as : List Area} {d : Declaration}

theorem isHeadless_of_heads {h : Text} {hs : List Text} (hd : d.heads = h :: hs) :
    d.isHeadless = false := by
  rw [Declaration.isHeadless, hd, List.isEmpty_cons, Bool.and_false]

theorem isMember_of_mem_declareMembers {expand : Bool}
    (hd : d ∈ (declareMembers expand as).value) : d.isMember = true := by
  rw [value_declareMembers] at hd
  obtain ⟨a, -, rfl⟩ := List.mem_map.1 (List.mem_filter.1 hd).1
  have hrole : (memberDeclaration expand a).role = some .method ∨
      (memberDeclaration expand a).role = some .field := role_memberDeclaration a
  rw [Declaration.isMember]
  rcases hrole with hrole | hrole
  · rw [hrole]
    rfl
  · rw [hrole]
    rfl

theorem isMember_of_mem_declareConstructors (hd : d ∈ (declareConstructors as).value) :
    d.isMember = true := by
  rw [declareConstructors, Noted.value_mapM] at hd
  obtain ⟨a, -, rfl⟩ := List.mem_map.1 hd
  rfl

theorem isHeadless_of_mem_declareNamespaces (hd : d ∈ declareNamespaces as) :
    d.isHeadless = false := by
  obtain ⟨a, -, rfl⟩ := List.mem_map.1 hd
  exact isHeadless_of_heads rfl

theorem isHeadless_of_mem_declareClasses (hd : d ∈ declareClasses as) : d.isHeadless = false := by
  obtain ⟨a, -, rfl⟩ := List.mem_map.1 hd
  exact isHeadless_of_heads rfl

theorem isHeadless_of_mem_declareFunctions (hd : d ∈ (declareFunctions as).value) :
    d.isHeadless = false := by
  rw [declareFunctions, Noted.value_mapM] at hd
  obtain ⟨a, -, rfl⟩ := List.mem_map.1 hd
  exact isHeadless_of_heads rfl

theorem of_value_declareTypedef {a : Area} (hd : (declareTypedef a).value = some d) :
    d.role = some .typedef ∧ d.isHeadless = false := by
  rw [declareTypedef, Noted.value_bind] at hd
  dsimp only at hd
  by_cases hname : (TypeName.ofValue a.value).name.isEmpty = true
  · rw [if_pos hname] at hd
    simp at hd
  · rw [if_neg hname] at hd
    obtain rfl := Option.some.inj hd
    exact ⟨rfl, isHeadless_of_heads rfl⟩

theorem of_value_declareCallback {a : Area} (hd : (declareCallback a).value = some d) :
    d.role = some .callback ∧ d.isHeadless = false := by
  rw [declareCallback, Noted.value_bind] at hd
  dsimp only at hd
  by_cases hname : (TypeName.ofValue a.value).name.isEmpty = true
  · rw [if_pos hname] at hd
    simp at hd
  · rw [if_neg hname] at hd
    obtain rfl := Option.some.inj hd
    exact ⟨rfl, isHeadless_of_heads rfl⟩

theorem exists_of_mem_filterMap_mapM {α β : Type} {f : α → Noted (Option β)} {as : List α} {b : β}
    (hb : b ∈ (as.mapM f).value.filterMap id) : ∃ a ∈ as, (f a).value = some b := by
  rw [Noted.value_mapM, List.filterMap_map] at hb
  exact List.mem_filterMap.1 hb

theorem isHeadless_of_mem_declareModules {options : Options}
    (hd : d ∈ (declareModules options as).value) : d.isHeadless = false := by
  rw [declareModules] at hd
  split at hd
  · simp at hd
  · obtain rfl := List.mem_singleton.1 hd
    exact isHeadless_of_heads rfl

/-- The declarations that collected areas make up can be printed. -/
theorem isPrintable_declareAll (options : Options) (c : Collected) :
    (declareAll options c).value.IsPrintable where
  members _ hm := isMember_of_mem_declareMembers hm
  constructors _ hm := isMember_of_mem_declareConstructors hm
  namespaces _ hn := isHeadless_of_mem_declareNamespaces hn
  named d hd := by
    rcases List.mem_append.1 ((perm_inSourceOrder _).mem_iff.1 hd) with hd | hd
    · exact isHeadless_of_mem_declareClasses hd
    · exact isHeadless_of_mem_declareFunctions hd
  typedefs d hd := by
    obtain ⟨a, -, ha⟩ := exists_of_mem_filterMap_mapM hd
    exact of_value_declareTypedef ha
  callbacks d hd := by
    obtain ⟨a, -, ha⟩ := exists_of_mem_filterMap_mapM hd
    exact of_value_declareCallback ha
  modules _ hm := isHeadless_of_mem_declareModules hm

end Areas

/-! ### Printing -/

section Printing

variable {includePrivate : Bool} {d : Declaration}

theorem head_of_isHeadless (h : d.isHeadless = false) : d.head = .ok d.headText := by
  rw [head_eq, h]
  rfl

theorem isHeadless_of_mem_containersOf {classes : List Declaration}
    {fs : List (Declaration × Fate)} (h : ∀ d ∈ classes, d.isHeadless = false) {c : Container}
    (hc : c ∈ containersOf classes fs) : c.declaration.isHeadless = false := by
  rcases List.mem_append.1 hc with hc | hc
  · obtain ⟨i, hi, rfl⟩ := List.mem_mapIdx.1 hc
    exact h _ (List.getElem_mem hi)
  · obtain ⟨g, -, rfl⟩ := List.mem_map.1 hc
    exact isHeadless_of_heads rfl

theorem exists_outcome_intoClasses {classes members : List Declaration}
    (hclasses : ∀ d ∈ classes, d.isHeadless = false) (hmembers : ∀ m ∈ members, m.isMember = true) :
    ∃ fs, Work.outcome (intoClasses includePrivate classes members) = .ok fs := by
  rw [outcome_intoClasses hmembers]
  refine ⟨_, if_neg ?_⟩
  simp only [List.any_eq_true, Bool.and_eq_true, not_exists, not_and, Bool.not_eq_true]
  exact fun c hc _ => isHeadless_of_mem_containersOf hclasses hc

theorem exists_mapM_eq_ok {α β ε : Type} {f : α → Except ε β} {as : List α}
    (h : ∀ a ∈ as, ∃ b, f a = .ok b) : ∃ bs, as.mapM f = .ok bs := by
  induction as with
  | nil => exact ⟨[], rfl⟩
  | cons a as ih =>
    obtain ⟨⟨b, hb⟩, has⟩ := List.forall_mem_cons.1 h
    obtain ⟨bs, hbs⟩ := ih has
    refine ⟨b :: bs, ?_⟩
    rw [List.mapM_cons, hb, hbs]
    rfl

theorem exists_typedefFragment (hrole : d.role = some .typedef) (hhead : d.isHeadless = false) :
    ∃ f, typedefFragment d = .ok f := by
  rw [typedefFragment, if_neg (not_not.2 hrole), head_of_isHeadless hhead]
  exact ⟨_, rfl⟩

theorem exists_callbackFragment (hrole : d.role = some .callback) (hhead : d.isHeadless = false) :
    ∃ f, callbackFragment d = .ok f := by
  rw [callbackFragment, if_neg (not_not.2 hrole), head_of_isHeadless hhead]
  exact ⟨_, rfl⟩

theorem exists_outcome_intoNamespaces {namespaces : List Declaration}
    (h : ∀ d ∈ namespaces, d.isHeadless = false) (fragments : List Fragment) :
    ∃ fs, Work.outcome (intoNamespaces namespaces fragments) = .ok fs := by
  rw [outcome_intoNamespaces]
  refine ⟨_, if_neg ?_⟩
  simp only [List.any_eq_true, not_exists, not_and, Bool.not_eq_true]
  intro p _
  rw [NamespaceGroup.isHeadless, groupAt]
  cases hd : namespaceAt? namespaces p with
  | none => exact Bool.and_false _
  | some d =>
    rw [Option.any_some, h d (List.mem_of_find?_eq_some hd), Bool.and_false]

theorem exists_intoModules {modules : List Declaration} (h : ∀ d ∈ modules, d.isHeadless = false)
    (fragments : List Fragment) : ∃ fs, intoModules modules fragments = .ok fs := by
  cases modules with
  | nil => exact ⟨_, rfl⟩
  | cons m ms =>
    rw [intoModules, head_of_isHeadless (h m List.mem_cons_self)]
    exact ⟨_, rfl⟩

/-- Declarations that can be printed are printed. -/
theorem succeeds_layout {d : Declared} (h : d.IsPrintable) (includePrivate : Bool) :
    (d.layout includePrivate).Succeeds := by
  have hmembers : ∀ m ∈ d.constructors ++ d.members, m.isMember = true :=
    List.forall_mem_append.2 ⟨h.constructors, h.members⟩
  obtain ⟨classes, hclasses⟩ := exists_outcome_intoClasses h.named hmembers
  obtain ⟨typedefs, htypedefs⟩ :=
    exists_mapM_eq_ok fun t ht => exists_typedefFragment (h.typedefs t ht).1 (h.typedefs t ht).2
  obtain ⟨callbacks, hcallbacks⟩ :=
    exists_mapM_eq_ok fun c hc => exists_callbackFragment (h.callbacks c hc).1 (h.callbacks c hc).2
  refine succeeds_bind (succeeds_ofWork hclasses) fun classes => ?_
  refine succeeds_bind (succeeds_ofExcept htypedefs) fun typedefs => ?_
  refine succeeds_bind (succeeds_ofExcept hcallbacks) fun callbacks => ?_
  refine succeeds_bind (succeeds_ofExcept (renderStatics_eq d.members)) fun statics => ?_
  obtain ⟨fragments, hfragments⟩ := exists_outcome_intoNamespaces h.namespaces
    (typedefs ++ callbacks ++ classes ++ statics)
  refine succeeds_bind (succeeds_ofWork hfragments) fun fragments => ?_
  obtain ⟨output, houtput⟩ := exists_intoModules h.modules fragments
  exact succeeds_bind (succeeds_ofExcept houtput) fun output => succeeds_pure _

/-- Every source has declarations. -/
theorem succeeds_declarationsOf (options : Options) (source : Text) :
    (declarationsOf options source).Succeeds := by
  refine succeeds_ofNoted_bind (succeeds_ofNoted_bind ?_)
  exact succeeds_layout (isPrintable_declareAll options _) _

end Printing

/-! ### Generation -/

/-- A generation gives a text exactly if the rules of the settings can be applied. -/
theorem exists_value_generate_iff {s : Settings} {earlier : Nat} {source : Text} :
    (∃ output, (generate s earlier source).value = .ok output) ↔
      ∃ prepared, s.prepare source = .ok prepared := by
  rw [value_generate, generateRaw]
  cases s.prepare source with
  | error f => simp [Except.map]
  | ok prepared =>
    obtain ⟨output, houtput⟩ := succeeds_declarationsOf s.toOptions prepared
    simp [houtput, Except.map]

/-- Without rules and hooks a generation always gives a text, whatever the source and the options
are. -/
theorem exists_value_generate (options : Options) (root : Option Location) (earlier : Nat)
    (source : Text) :
    ∃ output,
      (generate ⟨options, [], none, none, root⟩ earlier source).value = .ok output :=
  exists_value_generate_iff.2 ⟨source, Settings.prepare_of_plain rfl rfl source⟩

end DocDecl

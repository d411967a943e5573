import DocDecl.Proofs.Generation.Stages
import DocDecl.Proofs.Grouping.Partition
import DocDecl.Proofs.LineEnds.Placement

/-!
# Layout and line ends

The declarations of a source whose lines end with carriage returns resemble those of the source,
family by family. They are printed as fragments that resemble each other, these are put into the
same namespaces and the same module, and the normal form takes the carriage returns away.

## Main definitions

* `Declared.Resembles` : the declarations of a source that are the same but for carriage returns.

## Main results

* `resembles_declared` : the declarations of the two sources.
* `resembles_intoNamespaces` : fragments in their namespaces.
* `value_layout_of_resembles` : the same text is printed for both.
-/

namespace DocDecl

open Text

variable {source : Text} {includePrivate : Bool}

/-! ### Declarations -/

/-- The declarations of a source that are the same as others but for carriage returns. -/
structure Declared.Resembles (source : Text) (d d' : Declared) : Prop where
  members : List.Forall₂ (Declaration.Resembles source) d.members d'.members
  constructors_eq : d'.constructors = d.constructors.map (Declaration.dosLines source)
  namespaces_eq : d'.namespaces = d.namespaces.map (Declaration.dosLines source)
  named_eq : d'.named = d.named.map (Declaration.dosLines source)
  typedefs_eq : d'.typedefs = d.typedefs.map (Declaration.dosLines source)
  callbacks_eq : d'.callbacks = d.callbacks.map (Declaration.dosLines source)
  modules_eq : d'.modules = d.modules.map (Declaration.dosLines source)

theorem Declaration.Resembles.refl (source : Text) (d : Declaration) :
    d.Resembles source (d.dosLines source) :=
  .mk (List.forall₂_same.2 fun _ _ => .refl false _) (.refl _)

theorem value_declareAll (options : Options) (c : Collected) :
    (declareAll options c).value =
      { members := (declareMembers options.expandDefaults c.members).value
        constructors := (declareConstructors c.names).value
        namespaces := declareNamespaces c.names
        named := inSourceOrder (declareClasses c.names ++ (declareFunctions c.names).value)
        typedefs := (declareTypedefs c.types).value
        callbacks := (declareCallbacks c.types).value
        modules := (declareModules options c.modules).value } := rfl

theorem infix_literal_of_mem_members {a : Area} (ha : a ∈ (collect source).value.members) :
    a.literal <:+: source := by
  obtain ⟨b, hb, rfl⟩ := List.mem_map.1 ha
  rw [value_wellFormed] at hb
  obtain ⟨m, -, hb⟩ := List.mem_flatMap.1 (List.mem_filter.1 hb).1
  change b.literal <:+: source
  exact infix_literal_of_mem_areas hb

theorem start_le_of_mem_names {a : Area} (ha : a ∈ (collect source).value.names) :
    a.start ≤ source.length := by
  obtain ⟨b, hb, ha⟩ := List.mem_flatMap.1 ha
  obtain ⟨r, -, rfl⟩ := List.mem_map.1 ha
  have hb := mem_of_mem_firstOfEachStart hb
  rw [value_wellFormed] at hb
  obtain ⟨m, hm, hb⟩ := List.mem_flatMap.1 (List.mem_filter.1 hb).1
  have hne : ∀ m ∈ (["* @name ", "* @function ", "* @alias "] : List Text), m ≠ [] := by
    simp
  change b.start ≤ source.length
  exact start_le_length_of_mem_areas (hne m hm) hb

theorem position_le_of_mem_named {d : Declaration}
    (hd : d ∈ declareClasses (collect source).value.names ++
      (declareFunctions (collect source).value.names).value) : d.position ≤ source.length := by
  rcases List.mem_append.1 hd with hd | hd
  · obtain ⟨a, ha, rfl⟩ := List.mem_map.1 hd
    exact start_le_of_mem_names (List.mem_filter.1 ha).1
  · rw [declareFunctions, Noted.value_mapM] at hd
    obtain ⟨a, ha, rfl⟩ := List.mem_map.1 hd
    exact start_le_of_mem_names (List.mem_filter.1 ha).1

/-- The declarations of a source resemble those with carriage returns at its line ends. -/
theorem resembles_declared (options : Options) (hr : '\r' ∉ source)
    (hover : Text.contains overrideTag source = false) :
    (declared options source).Resembles source (declared options (dosLines source)) := by
  rw [declared, declared, value_collect_dosLines hover, value_declareAll, value_declareAll]
  refine ⟨?_, ?_, ?_, ?_, ?_, ?_, ?_⟩
  · exact resembles_declareMembers (fun a ha => infix_literal_of_mem_members ha) hr hover
  · exact value_declareConstructors_dosLines source _
  · exact declareNamespaces_dosLines source _
  · rw [← inSourceOrder_map_dosLines fun d hd => position_le_of_mem_named hd, List.map_append,
      ← declareClasses_dosLines, ← value_declareFunctions_dosLines]
    rfl
  · exact value_declareTypedefs_dosLines source _
  · exact value_declareCallbacks_dosLines source _
  · exact value_declareModules_dosLines source options _

/-! ### Fragments of families -/

section Families

variable (source) (d : Declaration)

theorem head_dosLines : (d.dosLines source).head = d.head := by
  rw [Declaration.head, override_dosLines, Declaration.head]
  rfl

/-- The fragment, with carriage returns at the line ends of its source. -/
def Fragment.dosLines (source : Text) (f : Fragment) : Fragment :=
  { f with area := f.area.map (Area.dosLines source) }

theorem typedefFragment_dosLines :
    typedefFragment (d.dosLines source) =
      (typedefFragment d).map (Fragment.dosLines source) := by
  rw [typedefFragment, head_dosLines, override_dosLines, typedefFragment]
  change (if d.role ≠ some .typedef then _ else _) = _
  by_cases hrole : d.role ≠ some .typedef
  · rw [if_pos hrole, if_pos hrole]
    rfl
  · rw [if_neg hrole, if_neg hrole]
    cases d.head <;> rfl

theorem callbackFragment_dosLines :
    callbackFragment (d.dosLines source) =
      (callbackFragment d).map (Fragment.dosLines source) := by
  rw [callbackFragment, head_dosLines, override_dosLines, callbackFragment]
  change (if d.role ≠ some .callback then _ else _) = _
  by_cases hrole : d.role ≠ some .callback
  · rw [if_pos hrole, if_pos hrole]
    rfl
  · rw [if_neg hrole, if_neg hrole]
    cases d.head <;> rfl

theorem mapM_map_dosLines {print : Declaration → Except Fault Fragment}
    (h : ∀ d, print (d.dosLines source) = (print d).map (Fragment.dosLines source))
    (ds : List Declaration) :
    (ds.map (Declaration.dosLines source)).mapM print =
      (ds.mapM print).map (List.map (Fragment.dosLines source)) := by
  induction ds with
  | nil => rfl
  | cons d ds ih =>
    rw [List.map_cons, List.mapM_cons, List.mapM_cons, h, ih]
    cases print d with
    | error e => rfl
    | ok f => cases ds.mapM print <;> rfl

theorem Fragment.Resembles.refl (f : Fragment) : f.Resembles source (f.dosLines source) :=
  ⟨rfl, .refl _ _, rfl⟩

end Families

theorem containers_eq (d : Declared) :
    d.containers includePrivate =
      (placeMembers includePrivate (d.named.map fun c => ⟨c, []⟩)
        (d.constructors ++ d.members)).value := by
  rw [placeMembers_eq]
  rfl

/-- The containers of declarations that resemble each other. -/
theorem resembles_containers {d d' : Declared} (h : d.Resembles source d') :
    List.Forall₂ (Container.Resembles source) (d.containers includePrivate)
      (d'.containers includePrivate) := by
  rw [containers_eq, containers_eq, h.named_eq, h.constructors_eq]
  refine resembles_placeMembers ?_ (List.rel_append ?_ h.members)
  · rw [List.map_map, List.forall₂_map_left_iff, List.forall₂_map_right_iff, List.forall₂_same]
    exact fun c _ => ⟨rfl, .nil⟩
  · rw [List.forall₂_map_right_iff, List.forall₂_same]
    exact fun c _ => .refl source c

/-! ### Namespaces -/

section Namespaces

variable {namespaces : List Declaration} {fs fs' : List Fragment}

theorem Fragment.Resembles.isPlainStatic_eq {f f' : Fragment} (h : f.Resembles source f') :
    f'.isPlainStatic = f.isPlainStatic := by
  rw [Fragment.isPlainStatic, h.area_eq, Fragment.isPlainStatic]
  cases f.area <;> rfl

theorem Fragment.Resembles.joinedPath_eq {f f' : Fragment} (h : f.Resembles source f') :
    f'.joinedPath = f.joinedPath := by
  rw [Fragment.joinedPath, h.path_eq, Fragment.joinedPath]

theorem namespaceAt?_map_dosLines (path : Text) :
    namespaceAt? (namespaces.map (Declaration.dosLines source)) path =
      (namespaceAt? namespaces path).map (Declaration.dosLines source) := by
  rw [namespaceAt?, List.find?_map]
  rfl

theorem resembles_fragmentsAt (h : List.Forall₂ (Fragment.Resembles source) fs fs') (path : Text) :
    List.Forall₂ (Fragment.Resembles source) (fragmentsAt fs path) (fragmentsAt fs' path) :=
  List.rel_filter (fun f f' hf => by simp only [hf.joinedPath_eq]) h

theorem groupPaths_of_resembles (h : List.Forall₂ (Fragment.Resembles source) fs fs') :
    groupPaths (namespaces.map (Declaration.dosLines source)) fs' = groupPaths namespaces fs := by
  have hpaths : fs'.map Fragment.joinedPath = fs.map Fragment.joinedPath := by
    induction h with
    | nil => rfl
    | cons hf _ ih => rw [List.map_cons, List.map_cons, hf.joinedPath_eq, ih]
  rw [groupPaths, hpaths, List.map_map, groupPaths]
  rfl

theorem survives_groupAt (h : List.Forall₂ (Fragment.Resembles source) fs fs') (path : Text) :
    (groupAt (namespaces.map (Declaration.dosLines source)) fs' path).survives =
      (groupAt namespaces fs path).survives := by
  have hat := resembles_fragmentsAt h path
  have hempty : (fragmentsAt fs' path).isEmpty = (fragmentsAt fs path).isEmpty := by
    generalize fragmentsAt fs path = gs at hat ⊢
    generalize fragmentsAt fs' path = gs' at hat ⊢
    cases hat <;> rfl
  have hall : (fragmentsAt fs' path).all Fragment.isPlainStatic =
      (fragmentsAt fs path).all Fragment.isPlainStatic := by
    generalize fragmentsAt fs path = gs at hat ⊢
    generalize fragmentsAt fs' path = gs' at hat ⊢
    induction hat with
    | nil => rfl
    | cons hf _ ih => rw [List.all_cons, List.all_cons, hf.isPlainStatic_eq, ih]
  simp only [NamespaceGroup.survives, groupAt, hempty, hall, namespaceAt?_map_dosLines,
    Option.isSome_map]

theorem alike_spacedBlocks {ts ts' : List Text} (h : List.Forall₂ (Alike false) ts ts') :
    Alike false (spacedBlocks ts) (spacedBlocks ts') :=
  .join _ (List.rel_map (fun _ _ h => h.indentLines bodyTab) h)

theorem alike_layoutNamespace (comment head : Text) {ts ts' : List Text}
    (h : List.Forall₂ (Alike false) ts ts') :
    Alike false (layoutNamespace comment head ts) (layoutNamespace comment head ts') :=
  ((Alike.refl false _).append (alike_spacedBlocks h)).append (.refl _ _)

theorem alike_codes (h : List.Forall₂ (Fragment.Resembles source) fs fs') :
    List.Forall₂ (Alike false) (fs.map Fragment.code) (fs'.map Fragment.code) :=
  List.rel_map (fun _ _ h => h.code) h

/-- What is printed for a group. -/
theorem resembles_groupFragment {g g' : NamespaceGroup} (hpath : g'.path = g.path)
    (hdeclared : g'.declared = g.declared.map (Declaration.dosLines source))
    (hmembers : List.Forall₂ (Fragment.Resembles source) g.members g'.members) :
    g.fragment.Resembles source g'.fragment := by
  have hcodes := alike_codes hmembers
  rw [NamespaceGroup.fragment, NamespaceGroup.fragment, hdeclared]
  by_cases hp : g.path = []
  · rw [if_pos hp, if_pos (hpath.trans hp)]
    exact ⟨rfl, .join _ hcodes, rfl⟩
  · rw [if_neg hp, if_neg (hpath ▸ hp), hpath]
    cases g.declared with
    | none => exact ⟨rfl, alike_layoutNamespace _ _ hcodes, rfl⟩
    | some d =>
      simp only [Option.map_some, headText_dosLines]
      exact ⟨rfl, alike_layoutNamespace _ _ hcodes, rfl⟩

theorem outcome_intoNamespaces_of_heads (hheads : ∀ d ∈ namespaces, d.isHeadless = false)
    (fs : List Fragment) :
    Work.outcome (intoNamespaces namespaces fs) =
      .ok ((printedPaths namespaces fs).map fun p => (groupAt namespaces fs p).fragment) := by
  obtain ⟨gs, hgs⟩ := exists_outcome_intoNamespaces hheads fs
  rw [outcome_intoNamespaces] at hgs ⊢
  split_ifs at hgs ⊢
  rfl

/-- Fragments that resemble each other are put into the same namespaces. -/
theorem resembles_intoNamespaces (namespaces : List Declaration)
    (h : List.Forall₂ (Fragment.Resembles source) fs fs') :
    List.Forall₂ (Fragment.Resembles source)
      ((printedPaths namespaces fs).map fun p => (groupAt namespaces fs p).fragment)
      ((printedPaths (namespaces.map (Declaration.dosLines source)) fs').map fun p =>
        (groupAt (namespaces.map (Declaration.dosLines source)) fs' p).fragment) := by
  have hpaths : printedPaths (namespaces.map (Declaration.dosLines source)) fs' =
      printedPaths namespaces fs := by
    rw [printedPaths, groupPaths_of_resembles h, printedPaths]
    simp only [survives_groupAt h]
  rw [hpaths, List.forall₂_map_left_iff, List.forall₂_map_right_iff, List.forall₂_same]
  exact fun p _ =>
    resembles_groupFragment rfl (namespaceAt?_map_dosLines p) (resembles_fragmentsAt h p)

end Namespaces

/-! ### The module -/

/-- Fragments that resemble each other are put into the same module. -/
theorem resembles_intoModules {modules : List Declaration} {fs fs' gs : List Fragment}
    (h : List.Forall₂ (Fragment.Resembles source) fs fs') (hgs : intoModules modules fs = .ok gs) :
    ∃ gs', intoModules (modules.map (Declaration.dosLines source)) fs' = .ok gs' ∧
      List.Forall₂ (Fragment.Resembles source) gs gs' := by
  have hcodes := alike_codes h
  cases modules with
  | nil =>
    obtain rfl := Except.ok.inj hgs
    exact ⟨_, rfl, .cons ⟨rfl, .join _ hcodes, rfl⟩ .nil⟩
  | cons m ms =>
    rw [intoModules] at hgs
    rw [List.map_cons, intoModules, head_dosLines]
    cases hhead : m.head with
    | error e => simp [hhead, bind, Except.bind] at hgs
    | ok head =>
      rw [hhead] at hgs
      obtain rfl := Except.ok.inj hgs
      have hexported : List.Forall₂ (Alike false) ((fs.map Fragment.code).map exportAmbient)
          ((fs'.map Fragment.code).map exportAmbient) :=
        List.rel_map (fun _ _ h => h.exportAmbient) hcodes
      refine ⟨_, rfl, .cons ⟨rfl, ?_, rfl⟩ .nil⟩
      exact ((((Alike.refl false _).append (alike_spacedBlocks hexported)).append
        (.refl _ _)).append (.refl _ _)).append (.refl _ _)

/-! ### The whole text -/

/-- Fragments that resemble each other make up the same text. -/
theorem value_assemble_of_resembles {d d' : Declared} {fs fs' : List Fragment}
    (h : d.Resembles source d') (hd : d.IsPrintable) (hd' : d'.IsPrintable)
    (hfs : List.Forall₂ (Fragment.Resembles source) fs fs') :
    (d'.assemble fs').run.value = (d.assemble fs).run.value := by
  have hgs := resembles_intoNamespaces d.namespaces hfs
  obtain ⟨output, houtput⟩ := exists_intoModules hd.modules
    ((printedPaths d.namespaces fs).map fun p => (groupAt d.namespaces fs p).fragment)
  obtain ⟨output', houtput', hresembles⟩ := resembles_intoModules hgs houtput
  have heads' := hd'.namespaces
  rw [h.namespaces_eq] at heads'
  rw [Declared.assemble, Declared.assemble, h.namespaces_eq, h.modules_eq,
    value_run_bind (value_ofWork (outcome_intoNamespaces_of_heads heads' fs')),
    value_run_bind (value_ofWork (outcome_intoNamespaces_of_heads hd.namespaces fs)),
    value_run_bind (value_ofExcept houtput'), value_run_bind (value_ofExcept houtput)]
  exact congrArg Except.ok (Alike.join "\n" (alike_codes hresembles)).normalForm_eq

theorem resembles_of_mapM {print : Declaration → Except Fault Fragment}
    (hprint : ∀ d, print (d.dosLines source) = (print d).map (Fragment.dosLines source))
    {ds : List Declaration} {fs fs' : List Fragment} (h : ds.mapM print = .ok fs)
    (h' : (ds.map (Declaration.dosLines source)).mapM print = .ok fs') :
    List.Forall₂ (Fragment.Resembles source) fs fs' := by
  rw [mapM_map_dosLines source hprint, h] at h'
  obtain rfl := Except.ok.inj h'
  rw [List.forall₂_map_right_iff, List.forall₂_same]
  exact fun f _ => .refl source f

/-- For declarations that resemble each other the same text is printed. -/
theorem value_layout_of_resembles {d d' : Declared} (h : d.Resembles source d')
    (hd : d.IsPrintable) (hd' : d'.IsPrintable) :
    (d'.layout includePrivate).run.value = (d.layout includePrivate).run.value := by
  obtain ⟨typedefs, callbacks, htypedefs, hcallbacks, hfs⟩ :=
    @exists_value_fragments includePrivate d hd
  obtain ⟨typedefs', callbacks', htypedefs', hcallbacks', hfs'⟩ :=
    @exists_value_fragments includePrivate d' hd'
  rw [layout_eq, layout_eq, value_run_bind hfs, value_run_bind hfs']
  refine value_assemble_of_resembles h hd hd' ?_
  rw [h.typedefs_eq] at htypedefs'
  rw [h.callbacks_eq] at hcallbacks'
  refine List.rel_append (List.rel_append (List.rel_append ?_ ?_) ?_) ?_
  · exact resembles_of_mapM (typedefFragment_dosLines source) htypedefs htypedefs'
  · exact resembles_of_mapM (callbackFragment_dosLines source) hcallbacks hcallbacks'
  · refine List.rel_map (fun _ _ h => resembles_fragment h)
      (List.rel_filter ?_ (resembles_containers h))
    exact fun c c' hc => by simp only [hc.survives_eq]
  · exact resembles_promoteStatics h.members

end DocDecl

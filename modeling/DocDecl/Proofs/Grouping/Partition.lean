import DocDecl.Grouping.Namespaces
import DocDecl.Proofs.Grouping.Rendering
import DocDecl.Proofs.List.Keys

/-!
# Fragments are divided among the namespaces

The groups of declared namespaces and fragments are those of their paths, in order of first
appearance with the declared ones first. A group holds the fragments of its path in their order, and
the first namespace that is declared for it. So a fragment is printed in exactly one place: below
the head of that namespace, below a head that is made up, or at the top level. Only a path of plain
statics that no namespace declares is left out, with all of its fragments.

## Main definitions

* `groupPaths`, `groupAt` : the paths in order of first appearance, and the group of a path.
* `NamespaceGroup.survives`, `NamespaceGroup.fragment` : whether a group is printed, and how.
* `IsStaticsOnly` : a path of plain statics that no namespace declares.
* `printedPaths` : the paths whose groups are printed.
* `IsPartition` : fragments are divided among the namespaces.

## Main results

* `groupByPath_eq` : the groups are those of the paths.
* `outcome_renderGroup`, `reports_renderGroup` : what comes of printing a group, and its reports.
* `outcome_intoNamespaces`, `reports_intoNamespaces` : the same for all groups.
* `isPartition_intoNamespaces` : fragments are divided among the namespaces.
-/

namespace DocDecl

/-! ### The group of a path -/

section Groups

/-- The paths of declared namespaces and of fragments, in order of first appearance. -/
def groupPaths (namespaces : List Declaration) (fragments : List Fragment) : List Text :=
  (namespaces.map Declaration.name ++ fragments.map Fragment.joinedPath).eraseDups

/-- The first namespace that is declared for a path. -/
def namespaceAt? (namespaces : List Declaration) (path : Text) : Option Declaration :=
  namespaces.find? fun d => d.name = path

/-- The fragments of a path, in order. -/
def fragmentsAt (fragments : List Fragment) (path : Text) : List Fragment :=
  fragments.filter fun f => f.joinedPath = path

/-- The group of a path. -/
def groupAt (namespaces : List Declaration) (fragments : List Fragment) (path : Text) :
    NamespaceGroup :=
  ⟨path, namespaceAt? namespaces path, fragmentsAt fragments path⟩

variable {namespaces : List Declaration} {fragments : List Fragment} {path : Text}

theorem mem_groupPaths :
    path ∈ groupPaths namespaces fragments ↔
      (∃ d ∈ namespaces, d.name = path) ∨ ∃ f ∈ fragments, f.joinedPath = path := by
  simp [groupPaths]

theorem nodup_groupPaths : (groupPaths namespaces fragments).Nodup := nodup_eraseDups _

theorem namespaceAt?_eq_none_iff :
    namespaceAt? namespaces path = none ↔ ∀ d ∈ namespaces, d.name ≠ path := by
  simp [namespaceAt?]

theorem fragmentsAt_eq_nil_iff :
    fragmentsAt fragments path = [] ↔ ∀ f ∈ fragments, f.joinedPath ≠ path := by
  simp [fragmentsAt, List.filter_eq_nil_iff]

theorem groupPaths_concat_fragment (f : Fragment) :
    groupPaths namespaces (fragments ++ [f]) =
      if f.joinedPath ∈ groupPaths namespaces fragments then groupPaths namespaces fragments
      else groupPaths namespaces fragments ++ [f.joinedPath] := by
  rw [groupPaths, List.map_append, List.map_singleton, ← List.append_assoc, eraseDups_concat]
  simp only [groupPaths, List.mem_eraseDups]

theorem groupPaths_concat_namespace (d : Declaration) :
    groupPaths (namespaces ++ [d]) [] =
      if d.name ∈ groupPaths namespaces [] then groupPaths namespaces []
      else groupPaths namespaces [] ++ [d.name] := by
  have hpaths (ds : List Declaration) : groupPaths ds [] = (ds.map Declaration.name).eraseDups :=
    congrArg List.eraseDups (List.append_nil _)
  rw [hpaths, hpaths, List.map_append, List.map_singleton, eraseDups_concat]
  simp only [List.mem_eraseDups]

theorem groupAt_concat_fragment_of_ne {f : Fragment} (h : f.joinedPath ≠ path) :
    groupAt namespaces (fragments ++ [f]) path = groupAt namespaces fragments path := by
  simp [groupAt, fragmentsAt, h]

theorem groupAt_concat_namespace_of_ne {d : Declaration} (h : d.name ≠ path) :
    groupAt (namespaces ++ [d]) [] path = groupAt namespaces [] path := by
  simp [groupAt, namespaceAt?, h]

/-- A fragment is put into the group of its path. -/
theorem addFragment_groupAt (f : Fragment) {ps : List Text} (hps : ps.Nodup)
    (hnew : f.joinedPath ∉ ps → f.joinedPath ∉ groupPaths namespaces fragments) :
    addFragment f (ps.map (groupAt namespaces fragments)) =
      (if f.joinedPath ∈ ps then ps else ps ++ [f.joinedPath]).map
        (groupAt namespaces (fragments ++ [f])) := by
  induction ps with
  | nil =>
    have hno := mt mem_groupPaths.2 (hnew (List.not_mem_nil))
    simp only [not_or, not_exists, not_and] at hno
    have hname := namespaceAt?_eq_none_iff.2 hno.1
    have hfragments := fragmentsAt_eq_nil_iff.2 hno.2
    rw [fragmentsAt] at hfragments
    simp [addFragment, groupAt, hname, fragmentsAt, hfragments]
  | cons p ps ih =>
    obtain ⟨hp, hps⟩ := List.nodup_cons.1 hps
    rw [List.map_cons, addFragment]
    by_cases h : f.joinedPath = p
    · have htail : ps.map (groupAt namespaces fragments) =
          ps.map (groupAt namespaces (fragments ++ [f])) :=
        List.map_congr_left fun q hq =>
          (groupAt_concat_fragment_of_ne (h ▸ (ne_of_mem_of_not_mem hq hp).symm)).symm
      have hpath : (groupAt namespaces fragments p).path = f.joinedPath := h.symm
      rw [if_pos hpath, if_pos (h ▸ List.mem_cons_self), List.map_cons, htail]
      simp [groupAt, fragmentsAt, h]
    · have hpath : (groupAt namespaces fragments p).path ≠ f.joinedPath := Ne.symm h
      have hmem : f.joinedPath ∈ p :: ps ↔ f.joinedPath ∈ ps := by simp [h]
      rw [if_neg hpath, ih hps fun hf => hnew (mt hmem.1 hf)]
      simp only [hmem]
      split_ifs <;> simp [groupAt_concat_fragment_of_ne h]

/-- A namespace is declared for the group of its name, unless one is declared already. -/
theorem addNamespace_groupAt (d : Declaration) {ps : List Text} (hps : ps.Nodup)
    (hnew : d.name ∉ ps → d.name ∉ groupPaths namespaces []) :
    addNamespace d (ps.map (groupAt namespaces [])) =
      (if d.name ∈ ps then ps else ps ++ [d.name]).map (groupAt (namespaces ++ [d]) []) := by
  induction ps with
  | nil =>
    have hno := mt mem_groupPaths.2 (hnew (List.not_mem_nil))
    simp only [not_or, not_exists, not_and] at hno
    have hname := namespaceAt?_eq_none_iff.2 hno.1
    rw [namespaceAt?] at hname
    simp [addNamespace, groupAt, namespaceAt?, fragmentsAt, hname]
  | cons p ps ih =>
    obtain ⟨hp, hps⟩ := List.nodup_cons.1 hps
    rw [List.map_cons, addNamespace]
    by_cases h : d.name = p
    · have htail : ps.map (groupAt namespaces []) = ps.map (groupAt (namespaces ++ [d]) []) :=
        List.map_congr_left fun q hq =>
          (groupAt_concat_namespace_of_ne (h ▸ (ne_of_mem_of_not_mem hq hp).symm)).symm
      have hpath : (groupAt namespaces [] p).path = d.name := h.symm
      rw [if_pos hpath, if_pos (h ▸ List.mem_cons_self), List.map_cons, htail]
      simp [groupAt, namespaceAt?, h, List.find?_append]
    · have hpath : (groupAt namespaces [] p).path ≠ d.name := Ne.symm h
      have hmem : d.name ∈ p :: ps ↔ d.name ∈ ps := by simp [h]
      rw [if_neg hpath, ih hps fun hd => hnew (mt hmem.1 hd)]
      simp only [hmem]
      split_ifs <;> simp [groupAt_concat_namespace_of_ne h]

/-- The groups are those of the paths, in order of first appearance. -/
theorem groupByPath_eq (namespaces : List Declaration) (fragments : List Fragment) :
    groupByPath namespaces fragments =
      (groupPaths namespaces fragments).map (groupAt namespaces fragments) := by
  induction fragments using List.reverseRecOn with
  | nil =>
    induction namespaces using List.reverseRecOn with
    | nil => rfl
    | append_singleton ds d ih =>
      have hstep : groupByPath (ds ++ [d]) [] = addNamespace d (groupByPath ds []) := by
        simp [groupByPath]
      rw [hstep, ih, addNamespace_groupAt d nodup_groupPaths id, groupPaths_concat_namespace]
  | append_singleton fs f ih =>
    have hstep : groupByPath namespaces (fs ++ [f]) = addFragment f (groupByPath namespaces fs) :=
      by simp [groupByPath]
    rw [hstep, ih, addFragment_groupAt f nodup_groupPaths id, groupPaths_concat_fragment]

end Groups

/-! ### Printing one group -/

namespace NamespaceGroup

/-- Whether a group is printed: it has fragments, and is at the top level, or declared, or has more
than plain statics in it. -/
def survives (g : NamespaceGroup) : Bool :=
  !g.members.isEmpty &&
    (g.path.isEmpty || g.declared.isSome || !g.members.all Fragment.isPlainStatic)

/-- Whether the namespace of a group is made up. -/
def isMadeUp (g : NamespaceGroup) : Bool := !g.path.isEmpty && g.declared.isNone

/-- Whether the namespace of a group is declared, and has nothing to be printed as. -/
def isHeadless (g : NamespaceGroup) : Bool :=
  !g.path.isEmpty && g.declared.any Declaration.isHeadless

/-- Whether the work stops at a group: it has to be printed, and has nothing to be printed as. -/
def stops (g : NamespaceGroup) : Bool := g.survives && g.isHeadless

/-- A group as it is printed: the fragments one after the other at the top level, and else below the
head of the namespace. -/
def fragment (g : NamespaceGroup) : Fragment :=
  let texts := g.members.map Fragment.code
  if g.path = [] then ⟨none, Text.join "\n\n" texts, []⟩
  else
    match g.declared with
    | none => ⟨none, layoutNamespace [] ("export namespace " ++ g.path) texts, []⟩
    | some d => ⟨d.area, layoutNamespace d.comment d.headText texts, []⟩

end NamespaceGroup

/-- The report on a namespace that is made up. -/
def madeUpReport (path : Text) : Report :=
  ⟨.info, .label path, "Namespace",
    "path " ++ path ++ " has no definition for members, created automatically"⟩

section Printing

variable {g : NamespaceGroup}

theorem NamespaceGroup.survives_iff :
    g.survives = true ↔
      g.members ≠ [] ∧
        ¬(g.path ≠ [] ∧ g.declared = none ∧ ∀ f ∈ g.members, f.isPlainStatic = true) := by
  simp only [survives, Bool.and_eq_true, Bool.or_eq_true, Bool.not_eq_true', not_and_or, not_not,
    List.isEmpty_iff, ← Bool.not_eq_true, List.all_eq_true, Option.isSome_iff_ne_none, or_assoc]

theorem NamespaceGroup.survives_of_undeclared (hp : g.path ≠ []) (hd : g.declared = none) :
    g.survives = !g.members.all Fragment.isPlainStatic := by
  rw [NamespaceGroup.survives, hd]
  cases g.members <;> simp [hp]

theorem renderGroup_top (hp : g.path = []) :
    renderGroup g = pure (if g.members.isEmpty then none else some g.fragment) := by
  rw [renderGroup, if_pos hp, NamespaceGroup.fragment, if_pos hp, List.isEmpty_map]
  split_ifs <;> rfl

theorem renderGroup_undeclared (hp : g.path ≠ []) (hd : g.declared = none) :
    renderGroup g =
      if g.members.all Fragment.isPlainStatic then do
        Noted.debug "merge.namespaces"
          ("Dropping " ++ g.path ++ ", it only holds static members")
        return none
      else do
        (Noted.note (.report (madeUpReport g.path)) : Work Unit)
        return some g.fragment := by
  rw [renderGroup, if_neg hp, NamespaceGroup.fragment, if_neg hp, hd]
  rfl

theorem renderGroup_declared {d : Declaration} (hp : g.path ≠ []) (hd : g.declared = some d) :
    renderGroup g =
      if g.members.isEmpty then do
        Noted.debug "merge.namespaces" ("Dropping empty namespace " ++ g.path)
        return none
      else do
        let head ← (d.head : Work Text)
        return some
          ⟨d.area, layoutNamespace d.comment head (g.members.map Fragment.code), []⟩ := by
  rw [renderGroup, if_neg hp, hd, List.isEmpty_map]

variable (g)

/-- A group is printed exactly if it survives, and then needs a head where it is declared. -/
theorem outcome_renderGroup :
    Work.outcome (renderGroup g) =
      if g.survives then if g.isHeadless then .error .missingHead else .ok (some g.fragment)
      else .ok none := by
  by_cases hp : g.path = []
  · have hheadless : g.isHeadless = false := by simp [NamespaceGroup.isHeadless, hp]
    have hsurvives : g.survives = !g.members.isEmpty := by simp [NamespaceGroup.survives, hp]
    rw [renderGroup_top hp, hheadless, hsurvives]
    cases g.members <;> rfl
  · cases hd : g.declared with
    | none =>
      have hheadless : g.isHeadless = false := by simp [NamespaceGroup.isHeadless, hd]
      rw [renderGroup_undeclared hp hd, hheadless, NamespaceGroup.survives_of_undeclared hp hd]
      cases g.members.all Fragment.isPlainStatic <;> rfl
    | some d =>
      have hheadless : g.isHeadless = d.isHeadless := by
        simp [NamespaceGroup.isHeadless, hp, hd]
      have hsurvives : g.survives = !g.members.isEmpty := by
        simp [NamespaceGroup.survives, hd]
      have hfragment : g.fragment =
          ⟨d.area, layoutNamespace d.comment d.headText (g.members.map Fragment.code), []⟩ := by
        rw [NamespaceGroup.fragment, if_neg hp, hd]
      rw [renderGroup_declared hp hd, hheadless, hsurvives, hfragment]
      cases g.members.isEmpty with
      | true => rfl
      | false =>
        refine (outcome_bind _ _).trans ?_
        rw [outcome_liftM_except, head_eq]
        cases d.isHeadless <;> rfl

theorem reports_liftM_except {α : Type} (x : Except Fault α) :
    (liftM x : Work α).run.reports = [] := by
  cases x <;> rfl

/-- Only a namespace that is made up is reported. -/
theorem reports_renderGroup :
    (renderGroup g).run.reports =
      if g.survives && g.isMadeUp then [madeUpReport g.path] else [] := by
  by_cases hp : g.path = []
  · have hmadeUp : g.isMadeUp = false := by simp [NamespaceGroup.isMadeUp, hp]
    rw [renderGroup_top hp, hmadeUp, Bool.and_false]
    rfl
  · cases hd : g.declared with
    | none =>
      have hmadeUp : g.isMadeUp = true := by simp [NamespaceGroup.isMadeUp, hp, hd]
      rw [renderGroup_undeclared hp hd, hmadeUp, NamespaceGroup.survives_of_undeclared hp hd]
      cases g.members.all Fragment.isPlainStatic <;> rfl
    | some d =>
      have hmadeUp : g.isMadeUp = false := by simp [NamespaceGroup.isMadeUp, hd]
      rw [renderGroup_declared hp hd, hmadeUp, Bool.and_false]
      cases g.members.isEmpty with
      | true => rfl
      | false =>
        refine (reports_run_bind _ _).trans ?_
        rw [reports_liftM_except]
        cases Work.outcome (liftM d.head : Work Text) <;> rfl

theorem exists_outcome_renderGroup (h : g.stops = false) :
    ∃ f, Work.outcome (renderGroup g) = .ok f := by
  rw [outcome_renderGroup]
  cases hs : g.survives with
  | false => exact ⟨none, rfl⟩
  | true =>
    have hh : g.isHeadless = false := by simpa [NamespaceGroup.stops, hs] using h
    exact ⟨some g.fragment, by rw [hh]; rfl⟩

/-- A group that stops the work is not reported. -/
theorem of_stops_renderGroup (h : g.stops = true) :
    (renderGroup g).run.reports = [] ∧ ∃ e, Work.outcome (renderGroup g) = .error e := by
  obtain ⟨hs, hh⟩ := Bool.and_eq_true_iff.1 h
  have hmadeUp : g.isMadeUp = false := by
    cases hd : g.declared with
    | none => simp [NamespaceGroup.isHeadless, hd] at hh
    | some d => simp [NamespaceGroup.isMadeUp, hd]
  rw [reports_renderGroup, hmadeUp, Bool.and_false, outcome_renderGroup, hs, hh]
  exact ⟨rfl, .missingHead, rfl⟩

end Printing

/-! ### Printing all groups -/

/-- The paths whose groups are printed, in order. -/
def printedPaths (namespaces : List Declaration) (fragments : List Fragment) : List Text :=
  (groupPaths namespaces fragments).filter fun p => (groupAt namespaces fragments p).survives

/-- A path other than the top level that no namespace declares, with nothing but plain statics. -/
def IsStaticsOnly (namespaces : List Declaration) (fragments : List Fragment) (path : Text) :
    Prop :=
  path ≠ [] ∧ (∀ d ∈ namespaces, d.name ≠ path) ∧
    ∀ f ∈ fragments, f.joinedPath = path → f.isPlainStatic = true

section All

variable {namespaces : List Declaration} {fragments : List Fragment} {path : Text}

/-- The paths that are printed are those of the fragments, except those of plain statics. -/
theorem mem_printedPaths_iff :
    path ∈ printedPaths namespaces fragments ↔
      (∃ f ∈ fragments, f.joinedPath = path) ∧ ¬IsStaticsOnly namespaces fragments path := by
  have hstatics : IsStaticsOnly namespaces fragments path ↔
      path ≠ [] ∧ namespaceAt? namespaces path = none ∧
        ∀ f ∈ fragmentsAt fragments path, f.isPlainStatic = true := by
    simp [IsStaticsOnly, namespaceAt?_eq_none_iff, fragmentsAt]
  have hmembers : (∃ f ∈ fragments, f.joinedPath = path) ↔ fragmentsAt fragments path ≠ [] := by
    simp [fragmentsAt_eq_nil_iff]
  rw [printedPaths, List.mem_filter, NamespaceGroup.survives_iff, hstatics, hmembers]
  refine and_iff_right_of_imp fun h => ?_
  exact mem_groupPaths.2 (Or.inr (hmembers.2 h.1))

/-- Going through the fragments path by path loses none and repeats none. -/
theorem perm_fragmentsAt_printedPaths :
    ((printedPaths namespaces fragments).flatMap (fragmentsAt fragments)).Perm
      (fragments.filter fun f => f.joinedPath ∈ printedPaths namespaces fragments) := by
  have hnodup : (printedPaths namespaces fragments).Nodup := nodup_groupPaths.filter _
  refine (flatMap_filter_perm Fragment.joinedPath fragments hnodup).trans (List.Perm.of_eq ?_)
  exact List.filter_congr fun f _ => decide_eq_decide.2 Iff.rfl

/-- The groups that survive are printed in order, unless one of them has no head. -/
theorem outcome_intoNamespaces (namespaces : List Declaration) (fragments : List Fragment) :
    Work.outcome (intoNamespaces namespaces fragments) =
      if (printedPaths namespaces fragments).any fun p =>
          (groupAt namespaces fragments p).isHeadless then
        .error .missingHead
      else
        .ok ((printedPaths namespaces fragments).map fun p =>
          (groupAt namespaces fragments p).fragment) := by
  rw [intoNamespaces, outcome_filterMap_mapM fun g _ => outcome_renderGroup g, groupByPath_eq,
    List.any_map, List.filter_map, List.map_map, printedPaths, List.any_filter]
  rfl

/-- The reports are on the namespaces that are made up, as far as the printing goes. -/
theorem reports_intoNamespaces (namespaces : List Declaration) (fragments : List Fragment) :
    (intoNamespaces namespaces fragments).run.reports =
      (((printedPaths namespaces fragments).takeWhile fun p =>
          !(groupAt namespaces fragments p).isHeadless).filter fun p =>
        (groupAt namespaces fragments p).isMadeUp).map madeUpReport := by
  have hreports (p : Text) : (renderGroup (groupAt namespaces fragments p)).run.reports =
      if (groupAt namespaces fragments p).isMadeUp && (groupAt namespaces fragments p).survives then
        [madeUpReport p] else [] := by
    rw [reports_renderGroup, Bool.and_comm]
    rfl
  have hbind : (intoNamespaces namespaces fragments).run.reports =
      ((groupByPath namespaces fragments).mapM renderGroup).run.reports := by
    refine (reports_run_bind _ _).trans ?_
    cases Work.outcome ((groupByPath namespaces fragments).mapM renderGroup) <;>
      exact List.append_nil _
  have hstops : (fun p => !(groupAt namespaces fragments p).stops) = fun p =>
      !(groupAt namespaces fragments p).survives || !(groupAt namespaces fragments p).isHeadless :=
    funext fun p => Bool.not_and ..
  rw [hbind, groupByPath_eq, reports_run_mapM exists_outcome_renderGroup of_stops_renderGroup,
    List.takeWhile_map, List.flatMap_map, printedPaths, List.takeWhile_filter, List.filter_filter]
  simp only [hreports, Function.comp_def, hstops, flatMap_ite_singleton]

end All

/-! ### The partition -/

/-- Fragments are divided among the namespaces. -/
structure IsPartition (namespaces : List Declaration) (fragments : List Fragment) : Prop where
  /-- No path is printed twice. -/
  nodup : (printedPaths namespaces fragments).Nodup
  /-- The paths are printed in order of first appearance, the declared ones first. -/
  ordered :
    (printedPaths namespaces fragments).Sublist
      (namespaces.map Declaration.name ++ fragments.map Fragment.joinedPath).eraseDups
  /-- Those paths of fragments are printed that have a namespace, are the top level, or have more
  than plain statics in them. -/
  mem_iff : ∀ path, path ∈ printedPaths namespaces fragments ↔
    (∃ f ∈ fragments, f.joinedPath = path) ∧ ¬IsStaticsOnly namespaces fragments path
  /-- The fragments of the printed paths are there once each, path by path. -/
  kept :
    ((printedPaths namespaces fragments).flatMap (fragmentsAt fragments)).Perm
      (fragments.filter fun f => f.joinedPath ∈ printedPaths namespaces fragments)
  /-- One result is printed for each of the paths, in order and with the fragments of the path,
  unless the namespace that is declared for one of them has no head. -/
  printed :
    Work.outcome (intoNamespaces namespaces fragments) =
      if (printedPaths namespaces fragments).any fun p =>
          (groupAt namespaces fragments p).isHeadless then
        .error .missingHead
      else
        .ok ((printedPaths namespaces fragments).map fun p =>
          (groupAt namespaces fragments p).fragment)
  /-- A report tells of each printed path but the top level that no namespace declares, up to the
  first one that has no head, and of nothing else. -/
  reported :
    (intoNamespaces namespaces fragments).run.reports =
      (((printedPaths namespaces fragments).takeWhile fun p =>
          !(groupAt namespaces fragments p).isHeadless).filter fun p =>
        (groupAt namespaces fragments p).isMadeUp).map madeUpReport

/-- Grouping by path divides the fragments among the namespaces. -/
theorem isPartition_intoNamespaces (namespaces : List Declaration) (fragments : List Fragment) :
    IsPartition namespaces fragments where
  nodup := nodup_groupPaths.filter _
  ordered := List.filter_sublist
  mem_iff _ := mem_printedPaths_iff
  kept := perm_fragmentsAt_printedPaths
  printed := outcome_intoNamespaces namespaces fragments
  reported := reports_intoNamespaces namespaces fragments

/-- A namespace without a head cannot be printed with its fragments. -/
theorem not_printed_of_headless_namespace :
    let d : Declaration := { area := none, path := [], name := "N", heads := [] }
    let f : Fragment := ⟨none, "let x: number", ["N"]⟩
    f.joinedPath = d.name ∧ f.isPlainStatic = false ∧
      Work.outcome (intoNamespaces [d] [f]) = .error .missingHead := by
  decide

/-- Two fragments of a declared path with one of another path between them, and statics. -/
example :
    let area : Area := ⟨0, 0, [], [], [], ["public", "static"], none, [], [], false⟩
    let d : Declaration :=
      { area := none, path := [], name := "N", heads := ["export namespace N"] }
    printedPaths [d]
      [⟨none, "a", ["M"]⟩, ⟨none, "b", ["N"]⟩, ⟨area, "c", ["S"]⟩, ⟨none, "e", ["M"]⟩] =
        ["N".toList, "M".toList] := by
  decide

end DocDecl

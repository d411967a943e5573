import DocDecl.Generation.Basic
import DocDecl.Proofs.LineEnds.Collected

/-!
# Declarations and line ends

What an area declares is read off its tags, the head behind it and its cleaned comment, which are
the same where the lines of the source end with carriage returns. So apart from members, whose type
may be that of a literal, the declarations differ in nothing but their areas.

## Main definitions

* `Declaration.dosLines` : a declaration there.

## Main results

* `declareNamespaces_dosLines`, `declareClasses_dosLines`, `value_declareFunctions_dosLines`,
  `value_declareConstructors_dosLines`, `value_declareTypedefs_dosLines`,
  `value_declareCallbacks_dosLines`, `value_declareModules_dosLines` : the families.
* `inSourceOrder_map_dosLines` : the declarations keep their order.
-/

namespace DocDecl

/-- The declaration, with carriage returns at the line ends of its source. -/
def Declaration.dosLines (source : Text) (d : Declaration) : Declaration :=
  { d with area := d.area.map (Area.dosLines source) }

variable (source : Text)

/-! ### Lists of areas -/

theorem filter_role_dosLines (r : Role) (as : List Area) :
    ((as.map (Area.dosLines source)).filter fun a => a.role = some r) =
      (as.filter fun a => a.role = some r).map (Area.dosLines source) := List.filter_map

theorem map_declare_dosLines {declare : Area → Declaration}
    (h : ∀ a, declare (a.dosLines source) = (declare a).dosLines source) (as : List Area) :
    (as.map (Area.dosLines source)).map declare =
      (as.map declare).map (Declaration.dosLines source) := by
  rw [List.map_map, List.map_map]
  exact List.map_congr_left fun a _ => h a

theorem value_mapM_declare_dosLines {declare : Area → Noted Declaration}
    (h : ∀ a, (declare (a.dosLines source)).value = (declare a).value.dosLines source)
    (as : List Area) :
    ((as.map (Area.dosLines source)).mapM declare).value =
      (as.mapM declare).value.map (Declaration.dosLines source) := by
  rw [Noted.value_mapM, Noted.value_mapM]
  exact map_declare_dosLines source h as

theorem value_mapM_declare?_dosLines {declare : Area → Noted (Option Declaration)}
    (h : ∀ a, (declare (a.dosLines source)).value =
      (declare a).value.map (Declaration.dosLines source)) (as : List Area) :
    ((as.map (Area.dosLines source)).mapM declare).value.filterMap id =
      ((as.mapM declare).value.filterMap id).map (Declaration.dosLines source) := by
  rw [Noted.value_mapM, Noted.value_mapM, List.map_map, List.filterMap_map, List.filterMap_map,
    List.map_filterMap]
  exact List.filterMap_congr fun a _ => h a

/-! ### Parts of declarations -/

theorem Area.isDeprecated_dosLines (a : Area) :
    (a.dosLines source).isDeprecated = a.isDeprecated :=
  Area.hasTag_dosLines (by simp [isBreak]) source a

theorem value_checkedReturnType_dosLines (a : Area) (name : Text) :
    (checkedReturnType (a.dosLines source) name).value = (checkedReturnType a name).value := by
  have hasync : (a.dosLines source).hasTag "async" = a.hasTag "async" :=
    Area.hasTag_dosLines (by simp [isBreak]) source a
  have hreturn := hasReturnTag_dosLines a.comment
  have htype := returnType_dosLines a.comment
  have hdef : (a.dosLines source).definition = a.definition := rfl
  have hcomment : (a.dosLines source).comment = dosLines a.comment := rfl
  simp only [checkedReturnType, hasync, hdef, hcomment, hreturn, htype]
  split_ifs <;> rfl

/-! ### Families -/

theorem declareNamespaces_dosLines (as : List Area) :
    declareNamespaces (as.map (Area.dosLines source)) =
      (declareNamespaces as).map (Declaration.dosLines source) := by
  rw [declareNamespaces, areasWithRole, filter_role_dosLines, declareNamespaces, areasWithRole]
  refine map_declare_dosLines source (fun a => ?_) _
  simp only [declareNamespace, Declaration.dosLines, Area.dosLines, cleanComment_dosLines]
  rfl

theorem declareClasses_dosLines (as : List Area) :
    declareClasses (as.map (Area.dosLines source)) =
      (declareClasses as).map (Declaration.dosLines source) := by
  rw [declareClasses, areasWithRole, filter_role_dosLines, declareClasses, areasWithRole]
  refine map_declare_dosLines source (fun a => ?_) _
  simp only [declareClass, Declaration.dosLines, Area.dosLines, cleanComment_dosLines]
  rfl

theorem value_declareFunctions_dosLines (as : List Area) :
    (declareFunctions (as.map (Area.dosLines source))).value =
      (declareFunctions as).value.map (Declaration.dosLines source) := by
  rw [declareFunctions, areasWithRole, filter_role_dosLines, declareFunctions, areasWithRole]
  refine value_mapM_declare_dosLines source (fun a => ?_) _
  simp only [declareFunction, Noted.value_bind, Noted.value_pure,
    value_checkedReturnType_dosLines, Area.isDeprecated_dosLines, Declaration.dosLines]
  simp only [Area.dosLines, parameters_dosLines, cleanComment_dosLines]
  rfl

theorem value_declareConstructors_dosLines (as : List Area) :
    (declareConstructors (as.map (Area.dosLines source))).value =
      (declareConstructors as).value.map (Declaration.dosLines source) := by
  have hfilter : ((as.map (Area.dosLines source)).filter fun a =>
      a.role = some .classBody && a.hasTag "constructor") =
      (as.filter fun a => a.role = some .classBody && a.hasTag "constructor").map
        (Area.dosLines source) := by
    rw [List.filter_map]
    refine congrArg _ (List.filter_congr fun a _ => ?_)
    rw [Function.comp_apply, Area.hasTag_dosLines (by simp [isBreak])]
    rfl
  rw [declareConstructors, hfilter, declareConstructors]
  refine value_mapM_declare_dosLines source (fun a => ?_) _
  simp only [declareConstructor, Noted.value_bind, Noted.value_pure, Area.isDeprecated_dosLines,
    Declaration.dosLines]
  simp only [Area.dosLines, parameters_dosLines, cleanComment_dosLines]
  rfl

theorem value_declareTypedefs_dosLines (as : List Area) :
    (declareTypedefs (as.map (Area.dosLines source))).value =
      (declareTypedefs as).value.map (Declaration.dosLines source) := by
  rw [declareTypedefs, filter_role_dosLines, declareTypedefs]
  refine value_mapM_declare?_dosLines source (fun a => ?_) _
  have hvalue : (a.dosLines source).value = a.value := rfl
  have hcomment : (a.dosLines source).comment = dosLines a.comment := rfl
  simp only [declareTypedef, Noted.value_bind, hvalue, hcomment, properties_dosLines,
    cleanComment_dosLines]
  by_cases hname : (TypeName.ofValue a.value).name.isEmpty = true
  · rw [if_pos hname, if_pos hname]
    rfl
  · rw [if_neg hname, if_neg hname]
    rfl

theorem value_declareCallbacks_dosLines (as : List Area) :
    (declareCallbacks (as.map (Area.dosLines source))).value =
      (declareCallbacks as).value.map (Declaration.dosLines source) := by
  rw [declareCallbacks, filter_role_dosLines, declareCallbacks]
  refine value_mapM_declare?_dosLines source (fun a => ?_) _
  have hvalue : (a.dosLines source).value = a.value := rfl
  have hcomment : (a.dosLines source).comment = dosLines a.comment := rfl
  simp only [declareCallback, Noted.value_bind, hvalue, hcomment, parameters_dosLines,
    returnType_dosLines, cleanComment_dosLines]
  by_cases hname : (TypeName.ofValue a.value).name.isEmpty = true
  · rw [if_pos hname, if_pos hname]
    rfl
  · rw [if_neg hname, if_neg hname]
    rfl

theorem value_declareModules_dosLines (options : Options) (as : List Area) :
    (declareModules options (as.map (Area.dosLines source))).value =
      (declareModules options as).value.map (Declaration.dosLines source) := by
  rw [declareModules, filter_role_dosLines, declareModules]
  cases as.filter fun a => a.role = some .moduleBlock with
  | nil => rfl
  | cons a as =>
    have hmodule : declareModule options (a.dosLines source) =
        (declareModule options a).dosLines source := by
      simp only [declareModule, Declaration.dosLines, Area.dosLines, cleanComment_dosLines,
        tagValues_dosLines]
      rfl
    exact congrArg (fun d => [d]) hmodule

/-! ### Their order -/

variable {source}

theorem position_dosLines (d : Declaration) :
    (d.dosLines source).position = dosOffset source d.position := by
  rw [Declaration.position, Declaration.position, Declaration.dosLines]
  cases d.area <;> rfl

/-- Declarations in the source keep their order. -/
theorem inSourceOrder_map_dosLines {ds : List Declaration}
    (hds : ∀ d ∈ ds, d.position ≤ source.length) :
    inSourceOrder (ds.map (Declaration.dosLines source)) =
      (inSourceOrder ds).map (Declaration.dosLines source) := by
  rw [inSourceOrder, inSourceOrder, List.map_mergeSort]
  intro d hd e he
  rw [position_dosLines, position_dosLines, decide_eq_decide,
    dosOffset_le_dosOffset_iff (hds d hd) (hds e he)]

end DocDecl

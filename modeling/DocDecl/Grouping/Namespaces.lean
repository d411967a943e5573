import DocDecl.Grouping.Fragment
import DocDecl.Layout.Blocks

/-!
# Fragments in their namespaces

Fragments are grouped by their path, in order of first appearance, the declared namespaces first.
Every group is printed as one namespace; the group of the empty path stays at the top level. A path
that no namespace declares gets one made up, unless nothing but plain statics is in it.

## Main definitions

* `renderStatics` : public static members as fragments of their namespace.
* `promoteStatics` : the same, where nothing can fail.
* `NamespaceGroup`, `groupByPath` : the fragments of each path.
* `renderGroup` : a group as it is printed, if it is.
* `intoNamespaces` : the fragments of all groups.

## Main results

* `renderStatics_eq` : every public static is printed.
-/

namespace DocDecl

/-! ### Promoted statics -/

/-- The statement for a public static member: a function, a constant or a variable. -/
def staticHead (a : Area) (m : Declaration) : Except Fault Text :=
  if m.role = some .method then .ok ("function " ++ m.signature)
  else if m.role = some .field then
    .ok (if a.hasTag "readonly" then "const " ++ m.signature else "let " ++ m.signature)
  else .error (.unhandledRole .static m.role m.name)

/-- The fragment of a member, if it is a public static. -/
def staticFragment (m : Declaration) : Except Fault (Option Fragment) :=
  match m.area with
  | some a =>
    if m.isPromotedStatic then do
      let head ← staticHead a m
      return some
        ⟨a, layoutDeclaration m.comment (if m.override ≠ [] then m.override else head), m.path⟩
    else .ok none
  | none => .ok none

/-- Public static members as fragments of their namespace. -/
def renderStatics (ms : List Declaration) : Except Fault (List Fragment) := do
  return (← ms.mapM staticFragment).filterMap id

/-- The statement for a public static member, which is a method or a field. -/
def staticStatement (a : Area) (m : Declaration) : Text :=
  if m.role = some .method then "function " ++ m.signature
  else if a.hasTag "readonly" then "const " ++ m.signature
  else "let " ++ m.signature

/-- The fragment of a member, if it is a public static. None of these is of another role than the
two that have a statement. -/
def promotedFragment? (m : Declaration) : Option Fragment :=
  match m.area with
  | some a =>
    if m.isPromotedStatic then
      some ⟨a, layoutDeclaration m.comment
        (if m.override ≠ [] then m.override else staticStatement a m), m.path⟩
    else none
  | none => none

/-- Public static members as fragments of their namespace. -/
def promoteStatics (ms : List Declaration) : List Fragment := ms.filterMap promotedFragment?

/-- A public static is a method or a field. -/
theorem role_of_isPromotedStatic {m : Declaration} (h : m.isPromotedStatic = true) :
    m.role = some .method ∨ m.role = some .field := by
  rw [Declaration.isPromotedStatic] at h
  cases ha : m.area with
  | none => simp [ha] at h
  | some a =>
    rw [ha] at h
    simpa using (Bool.and_eq_true_iff.1 h).1

theorem staticHead_of_isPromotedStatic {a : Area} {m : Declaration}
    (h : m.isPromotedStatic = true) : staticHead a m = .ok (staticStatement a m) := by
  rcases role_of_isPromotedStatic h with hm | hf
  · rw [staticHead, staticStatement, if_pos hm, if_pos hm]
  · have hm : m.role ≠ some .method := by rw [hf]; decide
    rw [staticHead, staticStatement, if_neg hm, if_neg hm, if_pos hf]

theorem staticFragment_eq (m : Declaration) : staticFragment m = .ok (promotedFragment? m) := by
  rw [staticFragment, promotedFragment?]
  cases m.area with
  | none => rfl
  | some a =>
    by_cases h : m.isPromotedStatic = true
    · simp only [if_pos h, staticHead_of_isPromotedStatic h]
      rfl
    · simp only [if_neg h]

/-- Statics never meet a role without a statement. -/
theorem renderStatics_eq (ms : List Declaration) : renderStatics ms = .ok (promoteStatics ms) := by
  have hms : ms.mapM staticFragment = .ok (ms.map promotedFragment?) := by
    induction ms with
    | nil => rfl
    | cons m ms ih =>
      rw [List.mapM_cons, staticFragment_eq, ih]
      rfl
  rw [renderStatics, hms, promoteStatics]
  simp [bind, Except.bind, pure, Except.pure, List.filterMap_map]

/-! ### Groups -/

/-- The fragments of one path. -/
structure NamespaceGroup where
  /-- The path as one text. -/
  path : Text
  /-- The namespace that is declared for the path. -/
  declared : Option Declaration := none
  /-- The fragments, in order. -/
  members : List Fragment := []
  deriving DecidableEq, Repr

/-- Declares the namespace of a path, unless one is declared already. -/
def addNamespace (d : Declaration) : List NamespaceGroup → List NamespaceGroup
  | [] => [{ path := d.name, declared := some d }]
  | g :: gs =>
    if g.path = d.name then { g with declared := g.declared.or (some d) } :: gs
    else g :: addNamespace d gs

/-- Puts a fragment into the group of its path. A new group comes last. -/
def addFragment (f : Fragment) : List NamespaceGroup → List NamespaceGroup
  | [] => [{ path := f.joinedPath, members := [f] }]
  | g :: gs =>
    if g.path = f.joinedPath then { g with members := g.members ++ [f] } :: gs
    else g :: addFragment f gs

/-- The groups of declared namespaces and fragments. -/
def groupByPath (namespaces : List Declaration) (fragments : List Fragment) :
    List NamespaceGroup :=
  fragments.foldl (fun gs f => addFragment f gs)
    (namespaces.foldl (fun gs d => addNamespace d gs) [])

/-! ### Printing groups -/

/-- The fragment of a group, if it is printed. -/
def renderGroup (g : NamespaceGroup) : Work (Option Fragment) := do
  let texts := g.members.map Fragment.code
  if g.path = [] then
    if texts.isEmpty then return none
    else return some ⟨none, Text.join "\n\n" texts, []⟩
  else
    match g.declared with
    | none =>
      if g.members.all Fragment.isPlainStatic then
        Noted.debug "merge.namespaces"
          ("Dropping " ++ g.path ++ ", it only holds static members")
        return none
      else
        Noted.info (.label g.path) "Namespace"
          ("path " ++ g.path ++ " has no definition for members, created automatically")
        return some ⟨none, layoutNamespace [] ("export namespace " ++ g.path) texts, []⟩
    | some d =>
      if texts.isEmpty then
        Noted.debug "merge.namespaces" ("Dropping empty namespace " ++ g.path)
        return none
      else
        let head ← d.head
        return some ⟨d.area, layoutNamespace d.comment head texts, []⟩

/-- The fragments of all groups. -/
def intoNamespaces (namespaces : List Declaration) (fragments : List Fragment) :
    Work (List Fragment) := do
  return (← (groupByPath namespaces fragments).mapM renderGroup).filterMap id

end DocDecl

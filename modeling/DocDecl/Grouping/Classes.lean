import DocDecl.Comment.Classification
import DocDecl.Grouping.Fragment
import DocDecl.Layout.Blocks
import DocDecl.Text.Letter

/-!
# Members in their classes

Every member is put into the last declared container whose path is that of its owner. A member whose
owner was never declared gets an interface made up for it when the owner's name is capitalised; this
owns the later members of that path as well. Functions never own members. Public statics belong to
the namespace and are left out here, and so are private members unless they are wanted.

## Main definitions

* `Container` : a declaration with the members put into it.
* `placeMember`, `placeMembers` : members put into containers.
* `renderContainer` : a container as it is printed, if it is.
* `intoClasses` : the fragments of classes, interfaces and functions.
-/

namespace DocDecl

/-- A declaration with the members put into it. -/
structure Container where
  /-- The declaration. -/
  declaration : Declaration
  /-- Its members, in order. -/
  members : List Declaration := []
  deriving DecidableEq, Repr

namespace Container

/-- Whether a container owns the members of a path. -/
def owns (c : Container) (path : Text) : Bool :=
  c.declaration.role ≠ some .function && c.declaration.fullPath = path

/-- A container with one more member. In an interface a member has no modifiers. -/
def add (c : Container) (m : Declaration) : Container :=
  let m := if c.declaration.isInterface then { m with heads := [m.signature] } else m
  { c with members := c.members ++ [m] }

end Container

/-! ### Placing members -/

/-- Whether a path segment names a class: it begins with a character that is its own upper case. -/
def isClassName : Text → Bool
  | [] => false
  | c :: _ => !hasUpperCase c

/-- Puts a member into the last container that owns its path. -/
def addToOwner (m : Declaration) : List Container → Option (List Container)
  | [] => none
  | c :: cs =>
    match addToOwner m cs with
    | some cs' => some (c :: cs')
    | none => if c.owns m.ownerPath then some (c.add m :: cs) else none

/-- The interface that is made up for members whose owner was not declared. -/
def madeUpInterface (path : List Text) : Declaration :=
  let (path, name) := Text.unsnoc path
  { area := none
    path := path
    name := name
    heads := ["interface " ++ name]
    isInterface := true
    role := some .classBody }

/-- Whether a member is left out because it is private. -/
def Declaration.isHidden (d : Declaration) (includePrivate : Bool) : Bool :=
  (d.area.map Area.isPrivate).getD false && !includePrivate

/-- Puts a member into its container. -/
def placeMember (includePrivate : Bool) (cs : List Container) (m : Declaration) :
    Noted (List Container) :=
  if m.isPromotedStatic then return cs
  else if m.isHidden includePrivate then do
    Noted.info (.ofArea? m.area) "Class Member"
      (m.ownerPath ++ "." ++ m.name ++ " is private and will not be documented")
    return cs
  else
    match addToOwner m cs with
    | some cs' => return cs'
    | none =>
      if isClassName (m.path.getLastD []) then do
        Noted.debug "merge.classes" ("Synthesised interface " ++ m.ownerPath)
        return cs ++ [(⟨madeUpInterface m.path, []⟩ : Container).add m]
      else do
        Noted.error (.ofArea? m.area) "Class Member"
          ("name " ++ m.name ++ " @memberof parameter has undefined object path of \"" ++
            m.ownerPath ++ "\"")
        return cs

/-- Puts members into their containers, one after the other. -/
def placeMembers (includePrivate : Bool) (cs : List Container) (ms : List Declaration) :
    Noted (List Container) :=
  ms.foldlM (placeMember includePrivate) cs

/-! ### Printing containers -/

/-- A member in the body of its container. -/
def renderMember (m : Declaration) : Except Fault Text :=
  if m.role = some .constructor ∨ m.role = some .method ∨ m.role = some .field then
    .ok (commentLines m.comment ++
      if m.override ≠ [] then m.override else Text.unlines m.heads)
  else .error (.unhandledRole .member m.role m.name)

/-- Whether the area of a class lets it be printed. A private class is dropped unless private
declarations are wanted; either is reported. -/
def classIsShown (includePrivate : Bool) (d : Declaration) : Noted Bool :=
  match d.area with
  | none => return true
  | some a => do
    let _ ← tagsAgree a true
    if !a.isPrivate then return true
    else if includePrivate then
      Noted.info (.area a) "Class" (d.fullPath ++ " is marked @private and is included")
      return true
    else
      Noted.error (.area a) "Class" (d.fullPath ++ " is marked @private and is dropped")
      return false

/-- A class or an interface as it is printed, if it is. One without members is printed only if it is
overridden. -/
def renderClass (includePrivate : Bool) (c : Container) : Work (Option Text) := do
  let d := c.declaration
  if !(← classIsShown includePrivate d) then return none
  else if !c.members.isEmpty then
    let head ← d.head
    let members ← c.members.mapM fun m => (renderMember m : Work Text)
    return some (layoutContainer d.comment head members)
  else if d.override ≠ [] then return some (layoutDeclaration d.comment d.override)
  else
    let subject :=
      match d.area with
      | some a => .area a
      | none => .label d.fullPath
    Noted.info subject "Class"
      ("path " ++ d.fullPath ++ " has no defined members, nothing will be documented.")
    return none

/-- A container as it is printed, if it is. -/
def renderContainer (includePrivate : Bool) (c : Container) : Work (Option Text) :=
  if c.declaration.role = some .function then do
    return some (layoutDeclaration c.declaration.comment (← c.declaration.head))
  else renderClass includePrivate c

/-- The fragment of a container, if it is printed. -/
def containerFragment (includePrivate : Bool) (c : Container) : Work (Option Fragment) := do
  let code ← renderContainer includePrivate c
  return code.map fun t => ⟨c.declaration.area, t, c.declaration.path⟩

/-- The fragments of classes, interfaces and functions, with the members in their places. -/
def intoClasses (includePrivate : Bool) (classes members : List Declaration) :
    Work (List Fragment) := do
  let cs ← placeMembers includePrivate (classes.map fun d => ⟨d, []⟩) members
  return (← cs.mapM (containerFragment includePrivate)).filterMap id

end DocDecl

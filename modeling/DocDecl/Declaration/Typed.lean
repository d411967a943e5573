import DocDecl.Comment.Classification
import DocDecl.Comment.Cleaning
import DocDecl.Declaration.Basic
import DocDecl.Parameter.Documented

/-!
# Declarations of types and callbacks

A type definition with properties, or of an object, is an interface, any other an alias. A callback
is a function. The value of the tag may begin with a type in braces; then comes the name, behind the
names of its owners.

## Main definitions

* `TypeName`, `TypeName.ofValue` : what the value of the tag says.
* `declareTypedefs`, `declareCallbacks` : the declarations.
-/

namespace DocDecl

/-- What the value of a type tag says. -/
structure TypeName where
  /-- The names of the owners. -/
  path : List Text
  /-- The name of the type. -/
  name : Text
  /-- The type that is defined, or the empty text. -/
  declared : Text
  deriving DecidableEq, Repr

namespace TypeName

/-- The type in braces that a text begins with, and what follows. -/
def leadingType? (t : Text) : Option (Text × Text) :=
  if t.head? = some '{' then
    (group? t).map fun (g, r) => (Text.trim (insideGroup g), Text.trim r)
  else none

/-- What the value of a type tag says. A tilde stands between the owner and the name; without one,
the last segment is the name. -/
def ofValue (value : Text) : TypeName :=
  let t := Text.trim value
  let (declared, t) := (leadingType? t).getD ([], t)
  let word := Text.firstWord t
  match Text.rcut? "~" word with
  | some (owner, name) =>
    ⟨Text.splitOn '.' (owner.map fun c => if c = '~' then '.' else c), name, declared⟩
  | none =>
    let (path, name) := Text.unsnoc (Text.splitOn '.' word)
    ⟨path, name, declared⟩

/-- Whether the type is an alias: a type in braces that is no object. -/
def isAlias (n : TypeName) : Bool :=
  !n.declared.isEmpty && !("object" : Text).isPrefixOf (Text.lower n.declared)

end TypeName

/-- The declaration of a type. One without a name is reported. -/
def declareTypedef (a : Area) : Noted (Option Declaration) := do
  let _ ← tagsAgree a false
  let n := TypeName.ofValue a.value
  if n.name.isEmpty then
    Noted.error (.area a) "Typedef" "typedef carries no name"
    return none
  else
    let fields := properties a.comment
    let isAlias := fields.isEmpty && n.isAlias
    return some
      { area := some a
        path := n.path
        name := n.name
        heads :=
          [if isAlias then "type " ++ n.name ++ " = " ++ declaredType n.declared
            else "interface " ++ n.name]
        comment := cleanComment [] a.comment
        fields := fields
        isInterface := !isAlias
        role := some .typedef }

/-- The declaration of a callback, ambient unless it has an owner. One without a name is
reported. -/
def declareCallback (a : Area) : Noted (Option Declaration) := do
  let _ ← tagsAgree a false
  let n := TypeName.ofValue a.value
  if n.name.isEmpty then
    Noted.error (.area a) "Callback" "callback carries no name"
    return none
  else
    return some
      { area := some a
        path := n.path
        name := n.name
        heads := [Text.onlyIf n.path.isEmpty "declare " ++ "function " ++ n.name]
        comment := cleanComment ["* @callback"] a.comment
        fields := parameters a.comment
        returns := returnType a.comment
        role := some .callback }

/-- The declarations of the documented types. -/
def declareTypedefs (as : List Area) : Noted (List Declaration) := do
  let ds ← (as.filter fun a => a.role = some .typedef).mapM declareTypedef
  return ds.filterMap id

/-- The declarations of the documented callbacks. -/
def declareCallbacks (as : List Area) : Noted (List Declaration) := do
  let ds ← (as.filter fun a => a.role = some .callback).mapM declareCallback
  return ds.filterMap id

end DocDecl

import DocDecl.Declaration.Member
import DocDecl.Declaration.Module
import DocDecl.Declaration.Named
import DocDecl.Declaration.Typed

/-!
# Families of declarations

Each family of declarations is made from one group of the collected areas.

## Main definitions

* `Family` : the families.
* `Family.areas`, `Family.declare` : the group that a family is made from, and its declarations.
-/

namespace DocDecl

/-- The families of declarations. -/
inductive Family where
  | members
  | constructors
  | namespaces
  | classes
  | functions
  | typedefs
  | callbacks
  | modules
  deriving DecidableEq, Repr

namespace Family

/-- The word for a family. -/
def word : Family → Text
  | members => "members"
  | constructors => "constructors"
  | namespaces => "namespaces"
  | classes => "classes"
  | functions => "functions"
  | typedefs => "typedefs"
  | callbacks => "callbacks"
  | modules => "modules"

/-- All families. -/
def all : List Family :=
  [members, constructors, namespaces, classes, functions, typedefs, callbacks, modules]

/-- The family that a word names. -/
def ofWord? (w : Text) : Option Family := all.find? fun f => f.word = w

/-- The group of areas that a family is made from. -/
def areas (c : Collected) : Family → List Area
  | members => c.members
  | typedefs => c.types
  | callbacks => c.types
  | modules => c.modules
  | _ => c.names

/-- The declarations of a family. Areas of other roles are left out. -/
def declare (options : Options) (as : List Area) : Family → Noted (List Declaration)
  | members => declareMembers options.expandDefaults as
  | constructors => declareConstructors as
  | namespaces => return declareNamespaces as
  | classes => return declareClasses as
  | functions => declareFunctions as
  | typedefs => declareTypedefs as
  | callbacks => declareCallbacks as
  | modules => declareModules options as

end Family

end DocDecl

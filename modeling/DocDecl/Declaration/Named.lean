import DocDecl.Comment.Cleaning
import DocDecl.Declaration.Basic
import DocDecl.Parameter.Alignment
import DocDecl.Parameter.Rendering

/-!
# Declarations of namespaces, classes and functions

The value of a name tag is a dotted name: the last segment names a class or a function, the others
its owner. A namespace keeps the whole value as its name.

## Main definitions

* `declareNamespaces`, `declareClasses`, `declareFunctions` : the declarations of named areas.
-/

namespace DocDecl

/-- The markers that are dropped from the comment of a container: its parameters and what it returns
are those of the constructor. -/
def containerMarkers : List Text := "* @param" :: "* @return" :: classMarkers

/-- The areas with a role. -/
def areasWithRole (r : Role) (as : List Area) : List Area := as.filter fun a => a.role = some r

/-- The declaration of a namespace. -/
def declareNamespace (a : Area) : Declaration :=
  { area := some a
    path := []
    name := a.value
    heads := ["export namespace " ++ a.value]
    comment := cleanComment containerMarkers a.comment
    role := some .nameSpace }

/-- The declarations of the documented namespaces. -/
def declareNamespaces (as : List Area) : List Declaration :=
  (areasWithRole .nameSpace as).map declareNamespace

/-- The declaration of a class, exported unless it has an owner. -/
def declareClass (a : Area) : Declaration :=
  let (path, name) := Text.unsnoc (Text.splitOn '.' a.value)
  { area := some a
    path := path
    name := name
    heads := [Text.onlyIf path.isEmpty "export " ++ "class " ++ name]
    comment := cleanComment containerMarkers a.comment
    role := some .classBody }

/-- The declarations of the documented classes. -/
def declareClasses (as : List Area) : List Declaration :=
  (areasWithRole .classBody as).map declareClass

/-- The declaration of a function, ambient unless it has an owner. -/
def declareFunction (a : Area) : Noted Declaration := do
  let (path, name) := Text.unsnoc (Text.splitOn '.' a.value)
  let fields ← align (arguments? a.definition) (parameters a.comment) a.isDeprecated a.value
  let returns ← checkedReturnType a name
  let signature := "function " ++ name ++ renderParameters fields ++ ": " ++ returns
  return { area := some a
           path := path
           name := name
           heads := [Text.onlyIf path.isEmpty "declare " ++ signature]
           comment := cleanComment ["* @function"] a.comment
           fields := fields
           returns := returns
           role := some .function
           signature := signature }

/-- The declarations of the documented functions. -/
def declareFunctions (as : List Area) : Noted (List Declaration) :=
  (areasWithRole .function as).mapM declareFunction

end DocDecl

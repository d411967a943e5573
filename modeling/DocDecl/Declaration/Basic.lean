import DocDecl.Comment.Area
import DocDecl.Parameter.Basic

/-!
# Declarations

A declaration is what one comment area declares: its name below a path of owners, the heads that may
be printed for it, and its parts.

## Main definitions

* `Declaration` : what an area declares.
* `Declaration.ownerPath`, `Declaration.fullPath` : the path of the owner, and that of the
  declaration itself.
* `Declaration.override` : the declaration that the area gives word for word.
* `Declaration.isPromotedStatic` : a public static member, which belongs to the namespace.
-/

namespace DocDecl

/-- What one comment area declares. -/
structure Declaration where
  /-- The area, unless the declaration was made up for its members. -/
  area : Option Area
  /-- The names of the owners, from the outermost on. -/
  path : List Text
  /-- The name. -/
  name : Text
  /-- The lines that declare it. -/
  heads : List Text
  /-- The comment to print above it. -/
  comment : Text := []
  /-- Its parameters or properties. -/
  fields : List Field := []
  /-- The type that it returns. -/
  returns : Text := "void"
  /-- Whether it is an interface. -/
  isInterface : Bool := false
  /-- What it is. -/
  role : Option Role := none
  /-- The head without modifiers. -/
  signature : Text := []
  /-- The imports of a module. -/
  imports : List Text := []
  /-- The exports of a module. -/
  exports : List Text := []
  deriving DecidableEq, Repr

namespace Declaration

/-- The path of the owner as one text. -/
def ownerPath (d : Declaration) : Text := Text.join "." d.path

/-- The path of the declaration itself. -/
def fullPath (d : Declaration) : Text := Text.join "." (d.path ++ [d.name])

/-- The declaration that the area gives word for word, or the empty text. -/
def override (d : Declaration) : Text := (d.area.map Area.override).getD []

/-- Whether a declaration is a public static member, which belongs to the namespace. -/
def isPromotedStatic (d : Declaration) : Bool :=
  match d.area with
  | some a =>
    (d.role = some .method || d.role = some .field) &&
      a.modifiers.take 2 = ["public".toList, "static".toList]
  | none => false

end Declaration

end DocDecl

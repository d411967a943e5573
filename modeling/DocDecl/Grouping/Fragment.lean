import DocDecl.Declaration.Basic
import DocDecl.Report.Journal

/-!
# Fragments

A fragment is the text of a declaration with the path of the namespace that it belongs to. Not every
declaration can be printed: it may lack a head, or be of a role that its place does not take.

## Main definitions

* `Fragment` : printed text and its path.
* `Fault`, `Fault.message` : why a declaration cannot be printed.
* `Work` : work that notes reports and may meet a fault.
* `Declaration.head` : the line that declares a declaration.
-/

namespace DocDecl

/-- Printed text and the path of the namespace that it belongs to. -/
structure Fragment where
  /-- The area that the text comes from, if it comes from one. -/
  area : Option Area
  /-- The text. -/
  code : Text
  /-- The path of the namespace. -/
  path : List Text := []
  deriving DecidableEq, Repr

namespace Fragment

/-- The path as one text. -/
def joinedPath (f : Fragment) : Text := Text.join "." f.path

/-- Whether a fragment is a static member that its area does not override. -/
def isPlainStatic (f : Fragment) : Bool :=
  match f.area with
  | some a => a.isStatic && a.override.isEmpty
  | none => false

end Fragment

/-! ### Faults -/

/-- The place that a declaration is printed in. -/
inductive Place where
  | member
  | static
  | typedef
  | callback
  deriving DecidableEq, Repr

/-- The word for a place. -/
def Place.word : Place → Text
  | member => "member"
  | static => "static"
  | typedef => "typedef"
  | callback => "callback"

/-- Why a declaration cannot be printed. -/
inductive Fault where
  /-- The place does not take declarations of the role. -/
  | unhandledRole (place : Place) (role : Option Role) (name : Text)
  /-- The declaration has no head. -/
  | missingHead
  deriving DecidableEq, Repr

/-- A role as it is told in messages. -/
def Role.told (r : Role) : Text :=
  "<Role." ++ r.word.map Char.toUpper ++ ": '" ++ r.word ++ "'>"

/-- The wording of a fault. -/
def Fault.message : Fault → Text
  | unhandledRole place role name =>
    "Unhandled " ++ place.word ++ " role " ++ (role.map Role.told).getD "None" ++ " for " ++ name
  | missingHead => "list index out of range"

/-- Work that notes reports and may meet a fault. -/
abbrev Work (α : Type) := ExceptT Fault Noted α

/-- The line that declares a declaration: its override, or its first head. -/
def Declaration.head (d : Declaration) : Except Fault Text :=
  if d.override ≠ [] then .ok d.override
  else
    match d.heads with
    | h :: _ => .ok h
    | [] => .error .missingHead

end DocDecl

import DocDecl.Grouping.Fragment
import DocDecl.Layout.Blocks
import DocDecl.Parameter.Rendering

/-!
# Types and callbacks as fragments

## Main definitions

* `typedefFragment`, `intoTypedefs` : interfaces and aliases.
* `callbackFragment`, `intoCallbacks` : function declarations.
-/

namespace DocDecl

/-- The fragment of a type: its override, an interface with its properties, or an alias. -/
def typedefFragment (d : Declaration) : Except Fault Fragment :=
  if d.role ≠ some .typedef then .error (.unhandledRole .typedef d.role d.name)
  else do
    let head ← d.head
    let code :=
      if d.override = [] ∧ d.isInterface then
        layoutContainer d.comment head (d.fields.map layoutProperty)
      else layoutDeclaration d.comment head
    return ⟨d.area, code, d.path⟩

/-- The fragments of types. -/
def intoTypedefs (ds : List Declaration) : Except Fault (List Fragment) := ds.mapM typedefFragment

/-- The fragment of a callback: its override, or a function declaration. -/
def callbackFragment (d : Declaration) : Except Fault Fragment :=
  if d.role ≠ some .callback then .error (.unhandledRole .callback d.role d.name)
  else do
    let head ← d.head
    let head :=
      if d.override = [] then head ++ renderParameters d.fields ++ ": " ++ d.returns else head
    return ⟨d.area, layoutDeclaration d.comment head, d.path⟩

/-- The fragments of callbacks. -/
def intoCallbacks (ds : List Declaration) : Except Fault (List Fragment) :=
  ds.mapM callbackFragment

end DocDecl

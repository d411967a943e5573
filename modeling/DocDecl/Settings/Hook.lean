import DocDecl.Text.Margin
import DocDecl.Text.Quoted

/-!
# Hooks

A hook is given by reference: the name of a module and the name of one of its functions, with a
colon between them. Modules are imported from outside, so an importer is a parameter of everything
that resolves references. A reference can fail in three ways: it lacks a half, its module cannot be
imported, or the module has no such function.

## Main definitions

* `Hook` : what a function makes of texts.
* `Importer` : how modules are imported.
* `HookFault`, `HookFault.message` : why a reference leads nowhere.
* `Importer.resolve` : the function that a reference leads to.
* `Importer.ofModules`, `standardImporter` : imports from a list of modules.
-/

namespace DocDecl

/-! ### Functions and modules -/

/-- A function, by what it makes of a text, and of two. -/
structure Hook where
  /-- What it makes of a source. -/
  onSource : Text → Text
  /-- What it makes of declarations, given their source. -/
  onOutput : Text → Text → Text

/-- How modules are imported: the functions of a module by their names, or why the module cannot be
imported. -/
abbrev Importer := Text → Except Text (Text → Option Hook)

/-! ### References -/

/-- Why a reference leads nowhere. -/
inductive HookFault where
  /-- The name of the module or of the function is missing. -/
  | incomplete (reference : Text)
  /-- The module cannot be imported. -/
  | noModule (name reason : Text)
  /-- The module has no such function. -/
  | noFunction (reference : Text)
  deriving DecidableEq, Repr

/-- The wording of a fault. -/
def HookFault.message : HookFault → Text
  | incomplete reference =>
    "Hook " ++ Text.quoted reference ++ " must look like 'package.module:function'"
  | noModule name reason => "Cannot import hook module " ++ Text.quoted name ++ ": " ++ reason
  | noFunction reference => "Hook " ++ Text.quoted reference ++ " is not callable"

namespace Importer

/-- The function that a reference leads to. -/
def resolve (importer : Importer) (reference : Text) : Except HookFault Hook :=
  let (module, function) := (Text.cut? ":" reference).getD (reference, [])
  if module = [] ∨ function = [] then .error (.incomplete reference)
  else
    match importer module with
    | .error reason => .error (.noModule module reason)
    | .ok functions =>
      match functions function with
      | some hook => .ok hook
      | none => .error (.noFunction reference)

/-! ### Lists of modules -/

/-- Imports from a list of modules, none of which has modules in it. -/
def ofModules (modules : List (Text × List (Text × Hook))) : Importer := fun name =>
  let segments := Text.splitOn '.' name
  let first := segments.headD []
  match modules.lookup first, segments.tail with
  | none, _ => .error ("No module named " ++ Text.quoted first)
  | some functions, [] => .ok fun function => functions.lookup function
  | some _, next :: _ =>
    .error ("No module named " ++ Text.quoted (first ++ "." ++ next) ++ "; " ++
      Text.quoted first ++ " is not a package")

end Importer

/-- The modules of the standard library that the front ends find, with functions of theirs that take
a source, or declarations and their source. -/
def standardModules : List (Text × List (Text × Hook)) :=
  [("textwrap", [("dedent", { onSource := withoutMargin, onOutput := fun output _ => output })]),
    ("operator", [("add", { onSource := id, onOutput := fun output source => output ++ source })]),
    ("math", [("floor", { onSource := id, onOutput := fun output _ => output })]),
    ("string", [])]

/-- Imports from the standard library. -/
def standardImporter : Importer := .ofModules standardModules

end DocDecl

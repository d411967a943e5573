import DocDecl.Text.Basic

/-!
# Options

The options of a run, with their defaults.

## Main definitions

* `Options` : the plain options.
-/

namespace DocDecl

/-- The plain options of a run. -/
structure Options where
  /-- The tag whose values are the imports of a module. -/
  importTag : Text := "timport"
  /-- The tag whose values are the exports of a module. -/
  exportTag : Text := "texport"
  /-- Whether private classes and members are declared. -/
  includePrivate : Bool := false
  /-- Whether the type of a property is read off its default. -/
  expandDefaults : Bool := true
  deriving DecidableEq, Repr

end DocDecl

import DocDecl.Parameter.Basic

/-!
# Parameter lists

A parameter list is printed on one line, or on a line for each parameter when a type holds a brace.
A required parameter cannot follow an optional one, so an optional parameter before a required one
is declared as a union with `undefined`.

## Main definitions

* `renderField`, `renderFields` : the entries of a parameter list.
* `renderParameters` : the list in its brackets.

## Main results

* `length_renderFields` : there is one entry for each parameter.
-/

namespace DocDecl

/-- Whether a parameter has to be given. -/
def Field.isRequired (f : Field) : Bool := !f.optional && !f.rest

/-- The entry of a parameter, given the parameters behind it. -/
def renderField (f : Field) (later : List Field) : Text :=
  if f.rest then "..." ++ f.name ++ ": " ++ f.type
  else if f.optional then
    if later.any Field.isRequired then f.name ++ ": " ++ f.type ++ " | undefined"
    else f.name ++ "?: " ++ f.type
  else f.name ++ ": " ++ f.type

/-- The entries of a parameter list, in order. -/
def renderFields : List Field → List Text
  | [] => []
  | f :: fs => renderField f fs :: renderFields fs

theorem length_renderFields (fs : List Field) : (renderFields fs).length = fs.length := by
  induction fs with
  | nil => rfl
  | cons f fs ih => simp [renderFields, ih]

/-- A parameter list in its brackets. -/
def renderParameters (fs : List Field) : Text :=
  if fs.any fun f => '{' ∈ f.type then
    "(\n" ++ Text.join ",\n" ((renderFields fs).map ("  " ++ ·)) ++ "\n)"
  else "(" ++ Text.join ", " (renderFields fs) ++ ")"

end DocDecl

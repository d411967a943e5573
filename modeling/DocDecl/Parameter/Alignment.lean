import DocDecl.Head.Arguments
import DocDecl.Parameter.Documented
import DocDecl.Report.Journal

/-!
# Parameters of a definition

The arguments of a definition are paired with the documented parameters: a name with the parameter
of that name, a destructuring pattern with the parameter in the same place. The declared list
follows the definition; where the documentation does not fit it, this is reported.

## Main definitions

* `alignOne`, `align` : the field for an argument and the fields for all of them.
* `namesAgree` : whether the documentation fits the definition.
* `checkedReturnType` : the declared type of what a function returns.

## Main results

* `length_align` : each argument gets one field.
-/

namespace DocDecl

/-- The field for the argument in a given place. -/
def alignOne (documented : List Field) (index : Nat) : Argument → Field
  | .destructured =>
    (documented[index]?).getD { type := "object", name := "arg" ++ Text.ofNat index }
  | .name n =>
    (documented.reverse.find? fun f => f.name = n).getD { type := "any", name := n }
  | .rest n =>
    match documented.reverse.find? fun f => f.name = n with
    | none => { type := "any[]", name := n, rest := true }
    | some f => if f.rest then f else { f with type := f.type ++ "[]", rest := true }

/-- The fields for the arguments from a given place on. -/
def alignFrom (documented : List Field) : Nat → List Argument → List Field
  | _, [] => []
  | i, a :: as => alignOne documented i a :: alignFrom documented (i + 1) as

theorem length_alignFrom (documented : List Field) (i : Nat) (as : List Argument) :
    (alignFrom documented i as).length = as.length := by
  induction as generalizing i with
  | nil => rfl
  | cons a as ih => simp [alignFrom, ih]

/-- Whether documented names fit those of a definition, place by place. A destructuring pattern fits
any name. -/
def namesAgree : List Text → List Text → Bool
  | [], [] => true
  | d :: ds, a :: as => (a = "\x7b\x7d".toList || d = a) && namesAgree ds as
  | _, _ => false

/-- The fields for the arguments of a definition, or the documented ones where the definition has no
parameter list. Differing names are reported unless the block is deprecated. -/
def align (arguments : Option (List Argument)) (documented : List Field) (deprecated : Bool)
    (subject : Text) : Noted (List Field) := do
  match arguments with
  | none => return documented
  | some as =>
    let declared := documented.map Field.name
    let actual := as.map Argument.label
    Noted.onlyIf (!deprecated && !namesAgree declared actual)
      (Noted.info (.label subject) "Parameter Mismatch"
        ("documented parameters (" ++ Text.join ", " declared ++
          ") do not match the definition (" ++ Text.join ", " actual ++ ")"))
    return alignFrom documented 0 as

theorem length_align (as : List Argument) (documented : List Field) (deprecated : Bool)
    (subject : Text) :
    (align (some as) documented deprecated subject).value.length = as.length := by
  simp [align, length_alignFrom]

/-- The type that a function is declared to return. Asynchronous code returns a promise: without a
return tag one of nothing, and a return tag that gives no promise is reported unless the block is
deprecated. -/
def checkedReturnType (a : Area) (name : Text) : Noted Text := do
  let returns := returnType a.comment
  if !isAsync a.definition && !a.hasTag "async" then return returns
  else if !hasReturnTag a.comment then return "Promise<void>"
  else
    Noted.onlyIf (!("Promise" : Text).isPrefixOf returns && !a.isDeprecated)
      (Noted.info (.label (a.value ++ "#" ++ name)) "Invalid Return"
        ("Async functions should always return a Promise. Instead returned " ++ returns))
    return returns

end DocDecl

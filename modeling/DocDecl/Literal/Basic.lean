import DocDecl.Text.Word

/-!
# Literals

The default of a documented property is an object literal of plain data: objects, arrays, strings,
numbers, truth values and null. The type of such a value is written as a declaration type.

## Main definitions

* `Literal` : a plain value.
* `putMember` : an object with a member set.
* `isIdentifier` : whether a key can stand without quotes.
* `Literal.type` : the declaration type of a value.

## Main results

* `map_fst_putMember` : a member that is set again keeps its place.
-/

namespace DocDecl

/-- A plain value. A number is kept as it is written. -/
inductive Literal where
  | object (members : List (Text × Literal))
  | array (items : List Literal)
  | string (t : Text)
  | number (t : Text)
  | boolean (b : Bool)
  | null
  deriving Repr

/-- Sets a member of an object. A key that is there already keeps its place. -/
def putMember {α : Type} (key : Text) (v : α) : List (Text × α) → List (Text × α)
  | [] => [(key, v)]
  | (k, w) :: ms => if k = key then (k, v) :: ms else (k, w) :: putMember key v ms

theorem map_fst_putMember {α : Type} (key : Text) (v : α) (ms : List (Text × α)) :
    (putMember key v ms).map Prod.fst =
      if key ∈ ms.map Prod.fst then ms.map Prod.fst else ms.map Prod.fst ++ [key] := by
  induction ms with
  | nil => simp [putMember]
  | cons m ms ih =>
    obtain ⟨k, w⟩ := m
    by_cases h : k = key
    · simp [putMember, h]
    · simp only [putMember, h, if_false, List.map_cons, ih, List.mem_cons, Ne.symm h, false_or]
      split <;> simp

/-! ### Keys -/

/-- The class of characters that an identifier begins with. -/
def isIdentifierStart (c : Char) : Bool := c.isAlpha || c == '_' || c == '$'

/-- Whether a key can stand without quotes. -/
def isIdentifier : Text → Bool
  | [] => false
  | c :: t => isIdentifierStart c && t.all isNameChar

/-- A key as it is written in a declaration. -/
def keyText (key : Text) : Text :=
  if isIdentifier key then key else "'" ++ Text.replace "'" "\\'" key ++ "'"

/-! ### Types -/

/-- The type of an array, given the types of its items. -/
def arrayType (items : List Text) : Text :=
  match items.eraseDups with
  | [] => "any[]"
  | [t] => t ++ "[]"
  | ts => "(" ++ Text.join "|" ts ++ ")[]"

/-- The type of an object, given the lines of its members. -/
def objectType (members : List Text) : Text :=
  if members = [] then "\x7b\x7d" else Text.unlines ([['{']] ++ members ++ [['}']])

namespace Literal

mutual

/-- The declaration type of a value, where `indent` is put in front of the members of an object. -/
def type (indent : Text) : Literal → Text
  | string _ => "string"
  | number _ => "number"
  | boolean _ => "boolean"
  | null => "any"
  | array items => arrayType (itemTypes indent items)
  | object members => objectType (memberLines indent members)

/-- The types of the items of an array. -/
def itemTypes (indent : Text) : List Literal → List Text
  | [] => []
  | v :: vs => type indent v :: itemTypes indent vs

/-- The lines of the members of an object. -/
def memberLines (indent : Text) : List (Text × Literal) → List Text
  | [] => []
  | (key, v) :: ms =>
    (indent ++ keyText key ++ ": " ++ Text.replace "\n" ("\n" ++ indent) (type indent v)) ::
      memberLines indent ms

end

end Literal

end DocDecl

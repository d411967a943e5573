import DocDecl.Delimiter.Group
import DocDecl.Text.Blank
import DocDecl.Text.Word

/-!
# Parameters and properties

A documented parameter has a type in braces, a name, perhaps a default, and a description. A name in
square brackets is optional.

## Main definitions

* `Field` : a parameter or property as it is declared.
* `ParamParts`, `ParamParts.ofLine` : the parts of a tag line.
-/

namespace DocDecl

/-- A parameter or a property. -/
structure Field where
  /-- Its type. -/
  type : Text
  /-- Its name. -/
  name : Text
  /-- Its default, if it has one. -/
  default? : Option Text := none
  /-- Its description. -/
  description : Text := []
  /-- Whether it may be left out. -/
  optional : Bool := false
  /-- Whether it takes all remaining arguments. -/
  rest : Bool := false
  deriving DecidableEq, Repr

/-- The parts of a parameter or property line. -/
structure ParamParts where
  /-- The type in braces. -/
  type? : Option Text := none
  /-- The name. -/
  name? : Option Text := none
  /-- Whether the name stands in square brackets. -/
  optional : Bool := false
  /-- The default, or the empty text. -/
  default : Text := []
  /-- The description. -/
  description : Text := []
  deriving DecidableEq, Repr

namespace ParamParts

/-- The class of characters of a dotted name. -/
def isPathChar (c : Char) : Bool := isNameChar c || c == '.'

/-- The description behind a name, without the dash in front of it. -/
def descriptionOf (t : Text) : Text :=
  match Text.trimLeft t with
  | '-' :: r =>
    if (r.head?.map isBlank).getD false then Text.trim r else Text.trim ('-' :: r)
  | r => Text.trim r

/-- An optional name with its default, in square brackets, and what follows. -/
def optionalName? (t : Text) : Option (Text × Text × Text) :=
  match Text.trimLeft t with
  | '[' :: t =>
    let t := Text.trimLeft t
    let name := t.takeWhile isPathChar
    if name = [] then none
    else
      match Text.trimLeft (t.dropWhile isPathChar) with
      | ']' :: r => some (name, [], r)
      | '=' :: r =>
        match r.dropWhile (· ≠ ']') with
        | ']' :: r' => some (name, Text.trim (r.takeWhile (· ≠ ']')), r')
        | _ => none
      | _ => none
  | _ => none

/-- A name with a default that follows without a blank, and what follows. -/
def plainName? (t : Text) : Option (Text × Text × Text) :=
  let t := Text.trimLeft t
  let name := t.takeWhile isPathChar
  let r := t.dropWhile isPathChar
  if name = [] then none
  else
    match r with
    | '=' :: d =>
      let default := d.takeWhile fun c => !isBlank c
      if default = [] then some (name, [], r) else some (name, default, d.dropWhile (!isBlank ·))
    | _ => some (name, [], r)

/-- The parts of a parameter or property line. Without a type in braces there are none. -/
def ofLine (line : Text) : ParamParts :=
  match group? (line.dropWhile (· ≠ '{')) with
  | none => {}
  | some (g, r) =>
    let type := Text.trim (insideGroup g)
    match optionalName? r with
    | some (name, default, r) => ⟨some type, some name, true, default, descriptionOf r⟩
    | none =>
      match plainName? r with
      | some (name, default, r) => ⟨some type, some name, false, default, descriptionOf r⟩
      | none => { type? := some type }

end ParamParts

end DocDecl

import DocDecl.Parameter.Basic
import DocDecl.TypeExpr

/-!
# The documented parameters of a block

Every parameter or property block gives a field. A dotted name describes a part of the field that
its first segment names: the parts make up an object type, which replaces the type of the field. A
part of a field that is not documented has no effect, and a name that is documented again keeps its
place and takes the later description.

## Main definitions

* `TypeTree` : the parts of a field, along dotted names.
* `Field.ofBlock?` : the field of one block.
* `documentedFields` : the fields of a block for one tag.
-/

namespace DocDecl

/-! ### Object types -/

/-- The parts of a field. -/
inductive TypeTree where
  | node (type : Text) (optional : Bool) (children : List (Text × TypeTree))

namespace TypeTree

/-- A part of which nothing is said. -/
def unknown : TypeTree := node "any" false []

/-- Changes the part with a given name. A new part comes last. -/
def update (name : Text) (f : TypeTree → TypeTree) :
    List (Text × TypeTree) → List (Text × TypeTree)
  | [] => [(name, f unknown)]
  | (n, t) :: cs => if n = name then (n, f t) :: cs else (n, t) :: update name f cs

/-- Describes the part at the end of a path. -/
def describe (type : Text) (optional : Bool) : List Text → TypeTree → TypeTree
  | [], node _ _ cs => node type optional cs
  | name :: path, node t o cs => node t o (update name (describe type optional path) cs)

mutual

/-- The type of a part: its own, or the object type of its parts. -/
def render : TypeTree → Text
  | node type _ [] => type
  | node _ _ (c :: cs) => "\x7b" ++ Text.join "," (renderParts (c :: cs)) ++ "\x7d"

/-- The parts of an object type. -/
def renderParts : List (Text × TypeTree) → List Text
  | [] => []
  | (name, node type optional cs) :: rest =>
    (name ++ Text.onlyIf optional "?" ++ ":" ++ render (node type optional cs)) ::
      renderParts rest

end

end TypeTree

/-! ### Fields -/

/-- The field of a parameter or property block. Dots in front of the type or the name make it take
all remaining arguments; its type is then an array. -/
def Field.ofBlock? (block : Text) : Option Field :=
  let parts := ParamParts.ofLine block
  match parts.type?, parts.name? with
  | some (c :: type), some (d :: name) =>
    let type := c :: type
    let name := d :: name
    let restByType := ("..." : Text).isPrefixOf type
    let bare := Text.after? "..." name
    let rest := restByType || bare.isSome
    some
      { type := declaredType type ++ Text.onlyIf (rest && !restByType) "[]"
        name := bare.getD name
        default? := if parts.default = [] then none else some parts.default
        description := parts.description
        optional := parts.optional
        rest := rest }
  | _, _ => none

/-- Puts a field into a list. A field of the same name is replaced in its place. -/
def putField (f : Field) : List Field → List Field
  | [] => [f]
  | g :: gs => if g.name = f.name then f :: gs else g :: putField f gs

/-- What a part says of the field of a given name: the path to where it stands there. -/
def Field.pathBelow? (n : Text) (p : Field) : Option (List Text × Field) :=
  match Text.splitOn '.' p.name with
  | root :: path => if root = n then some (path, p) else none
  | [] => none

/-- The parts that fields describe, each at its path. -/
def TypeTree.ofPaths (own : List (List Text × Field)) : TypeTree :=
  own.foldl (fun t (path, p) => t.describe p.type p.optional path) unknown

/-- The field with the type that its parts make up, if it has parts. -/
def withParts (parts : List Field) (f : Field) : Field :=
  let own := parts.filterMap (Field.pathBelow? f.name)
  if own = [] then f else { f with type := (TypeTree.ofPaths own).render }

/-- The fields that the blocks of a tag describe, one by one. -/
def blockFields (comment tag : Text) : List Field :=
  (tagBlocks comment tag).filterMap Field.ofBlock?

/-- The fields that stand for themselves, each name once. -/
def ownFields (fields : List Field) : List Field :=
  (fields.filter fun f => '.' ∉ f.name).foldl (fun fs f => putField f fs) []

/-- The fields that describe parts of others. -/
def partFields (fields : List Field) : List Field := fields.filter fun f => '.' ∈ f.name

/-- The fields that the blocks of a tag document, in order of their first blocks. -/
def documentedFields (comment tag : Text) : List Field :=
  let items := blockFields comment tag
  (ownFields items).map (withParts (partFields items))

/-- The documented parameters of a block. -/
def parameters (comment : Text) : List Field := documentedFields comment "param"

/-- The documented properties of a block. -/
def properties (comment : Text) : List Field := documentedFields comment "property"

end DocDecl

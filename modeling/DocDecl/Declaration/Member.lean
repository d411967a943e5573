import DocDecl.Comment.Classification
import DocDecl.Comment.Cleaning
import DocDecl.Declaration.Basic
import DocDecl.Layout.Blocks
import DocDecl.Literal.Reader
import DocDecl.Parameter.Alignment
import DocDecl.Parameter.Rendering

/-!
# Declarations of members

A member is a method when its head has a parameter list and its block no type tag, and else a field.
The type of a field is that of its type tag, or is read off the object literal that is its default.
A literal may hold documented members of its own; these make up the type of the field and are not
declared a second time.

## Main definitions

* `ownerPathOf` : the owners that a tag value names.
* `Expansion`, `expansionOf` : what the default of a member tells about its type.
* `documentedType` : the type that the documented members of a literal make up.
* `declareMembers` : the members of a class body.
* `declareConstructors` : the constructors of the documented classes.

## Main results

* `literal_ne_nil_of_documentsMembers` : only a default can hold documented members.
-/

namespace DocDecl

/-- The owners that the value of a member tag names. -/
def ownerPathOf (value : Text) : List Text :=
  let value := value.map fun c => if c = '#' ∨ c = '~' then '.' else c
  let path := (Text.splitOn '.' value).filter fun s => !s.isEmpty
  if path.getLast? = some "prototype".toList then path.dropLast else path

/-! ### Defaults -/

/-- Whether the default of a member holds documented members, and these are wanted. -/
def documentsMembers (expand : Bool) (a : Area) : Bool :=
  expand && (Text.contains "@memberof" a.literal || Text.contains "@memberOf" a.literal)

theorem literal_ne_nil_of_documentsMembers {expand : Bool} {a : Area}
    (h : documentsMembers expand a = true) : a.literal ≠ [] := by
  intro hl
  simp [documentsMembers, hl, Text.contains, Text.find?] at h

/-- What the default of a member tells about its type. -/
inductive Expansion where
  /-- Nothing, or nothing is wanted. -/
  | nothing
  /-- Its documented members make up the type. -/
  | documented
  /-- It is a plain value. -/
  | plain (v : Literal)
  /-- It is no plain value. -/
  | unparsable

/-- What the default of a member tells about its type. -/
def expansionOf (expand : Bool) (a : Area) : Expansion :=
  if !expand || a.literal.isEmpty then .nothing
  else if documentsMembers expand a then .documented
  else
    match parseLiteral? a.literal with
    | some v => .plain v
    | none => .unparsable

/-- The type of a field, read off its default, where `inner` is the type that its documented members
make up. -/
def defaultType (expand : Bool) (inner : Noted Text) (a : Area) (name : Text) : Noted Text :=
  match expansionOf expand a with
  | .nothing => return []
  | .documented => inner
  | .plain v => return v.type bodyTab
  | .unparsable => do
    Noted.info (.label (a.value ++ "#" ++ name)) "Unparsable Literal"
      "default value is not a plain literal, the type is left undeclared"
    return []

/-! ### Members -/

/-- The signature of a field. -/
def fieldSignature (name type : Text) : Text := if type = [] then name else name ++ ": " ++ type

/-- The signature of a method. -/
def methodSignature (a : Area) (name : Text) (args : List Argument) : Noted Text := do
  let fields ← align (some args) (parameters a.comment) a.isDeprecated (a.value ++ "#" ++ name)
  let returns ← checkedReturnType a name
  return name ++ renderParameters fields ++ ": " ++ returns

/-- The role and the signature of a member. -/
def memberSignature (expand : Bool) (inner : Noted Text) (a : Area) (name : Text) :
    Noted (Role × Text) :=
  if a.hasTag "type" then return (.field, fieldSignature name (fieldType a.comment))
  else
    match if a.role = some .method then arguments? a.definition else none with
    | some args => do return (.method, ← methodSignature a name args)
    | none => do return (.field, fieldSignature name (← defaultType expand inner a name))

/-- The declaration of a member. A member without a name is reported. -/
def declareMember (expand : Bool) (inner : Noted Text) (a : Area) :
    Noted (Option Declaration) :=
  match memberName a.definition with
  | [] => do
    Noted.error (.area a) "Class Member"
      ("cannot resolve a member name from " ++ Text.quoted a.definition)
    return none
  | name => do
    let (role, signature) ← memberSignature expand inner a name
    return some
      { area := some a
        path := ownerPathOf a.value
        name := name
        heads := [Text.trim (Text.join " " a.modifiers ++ " " ++ signature)]
        comment := cleanComment [] a.comment
        role := some role
        signature := signature }

/-- Whether an area is that of a member. -/
def Area.isMember (a : Area) : Bool := a.role = some .method || a.role = some .field

/-- The path of the members that a declaration owns. -/
def Declaration.memberPath (d : Declaration) : Text := d.ownerPath ++ "." ++ d.name

/-- The declarations without those of members that the default of a declared owner documents. -/
def withoutExpanded (expand : Bool) (ds : List Declaration) : List Declaration :=
  let owners := (ds.filter fun d => (d.area.map (documentsMembers expand)).getD false).map
    Declaration.memberPath
  ds.filter fun d => !owners.contains d.ownerPath

/-- The declarations of members, where `inner` gives the type that the documented members of a
default make up. -/
def declareMembersWith (expand : Bool) (as : List Area) (inner : (a : Area) → a ∈ as → Noted Text) :
    Noted (List Declaration) := do
  let ds ← as.attach.mapM fun a =>
    if a.1.isMember then declareMember expand (inner a.1 a.2) a.1 else return none
  return withoutExpanded expand (ds.filterMap id)

/-- The members that a literal documents. -/
def literalMembers (literal : Text) : List Area :=
  (areasOfAll literal ["* @memberof ", "* @memberOf "] {}).map memberRole

theorem length_literalMembers_lt {literal : Text} {a : Area} (ha : a ∈ literalMembers literal)
    (hl : a.literal ≠ []) : a.literal.length < literal.length := by
  simp only [literalMembers, areasOfAll, List.mem_map, List.mem_flatMap] at ha
  obtain ⟨b, ⟨m, _, hb⟩, rfl⟩ := ha
  simp only [memberRole] at hl ⊢
  exact length_areas_literal_lt hb hl

/-- The object type of declared members, each below its comment. -/
def membersType (ds : List Declaration) : Text :=
  if ds = [] then "\x7b\x7d"
  else
    "\x7b\n" ++ Text.unlines (ds.map fun d =>
      indentLines bodyTab (commentLines d.comment ++ d.signature)) ++ "\n\x7d"

/-- The type that the documented members of a literal make up. -/
def documentedType (expand : Bool) (literal : Text) : Noted Text := do
  let ds ← declareMembersWith expand (literalMembers literal) fun a ha =>
    if h : documentsMembers expand a = true then
      have := length_literalMembers_lt ha (literal_ne_nil_of_documentsMembers h)
      documentedType expand a.literal
    else return []
  Noted.debug "analyzers.members"
    ("Expanded " ++ Text.ofNat ds.length ++ " documented members of an object literal")
  return membersType ds
termination_by literal.length

/-- The declarations of the members of class bodies. -/
def declareMembers (expand : Bool) (as : List Area) : Noted (List Declaration) :=
  declareMembersWith expand as fun a _ =>
    if documentsMembers expand a then documentedType expand a.literal else return []

/-! ### Constructors -/

/-- The declaration of the constructor of a class. -/
def declareConstructor (a : Area) : Noted Declaration := do
  let fields ← align (arguments? a.definition) (parameters a.comment) a.isDeprecated
    (a.value ++ "#constructor")
  let head := ("constructor" : Text) ++ renderParameters fields
  return { area := some a
           path := Text.splitOn '.' a.value
           name := "constructor"
           heads := [head]
           comment := cleanComment classMarkers a.comment
           role := some .constructor
           signature := head }

/-- The declarations of the constructors of the documented classes. -/
def declareConstructors (as : List Area) : Noted (List Declaration) :=
  (as.filter fun a => a.role = some .classBody && a.hasTag "constructor").mapM declareConstructor

end DocDecl

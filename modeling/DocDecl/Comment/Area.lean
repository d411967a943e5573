import DocDecl.Comment.Tag

/-!
# Comment areas

A comment area is one documentation block with the code behind it. Its role says what the block
documents.

## Main definitions

* `Role` : what a block documents.
* `Area` : a block, the value of the tag that it was found by, and the head of the code behind it.
* `Area.hasTag`, `Area.isPrivate`, `Area.isDeprecated`, `Area.isStatic` : what a block says.
-/

namespace DocDecl

/-- What a documentation block documents. -/
inductive Role where
  | nameSpace
  | classBody
  | function
  | typedef
  | callback
  | field
  | method
  | constructor
  | moduleBlock
  deriving DecidableEq, Repr

/-- The word for a role. -/
def Role.word : Role → Text
  | nameSpace => "namespace"
  | classBody => "class"
  | function => "function"
  | typedef => "typedef"
  | callback => "callback"
  | field => "field"
  | method => "method"
  | constructor => "constructor"
  | moduleBlock => "module"

/-- All roles. -/
def Role.all : List Role :=
  [.nameSpace, .classBody, .function, .typedef, .callback, .field, .method, .constructor,
    .moduleBlock]

/-- The role that a word names. -/
def Role.ofWord? (w : Text) : Option Role := Role.all.find? fun r => r.word = w

theorem Role.ofWord?_word (r : Role) : Role.ofWord? r.word = some r := by
  cases r <;> decide

/-- One documentation block with the code behind it. -/
structure Area where
  /-- Where the block starts, or where a tag stands that no block holds. -/
  start : Nat
  /-- Where the block ends. -/
  stop : Nat
  /-- The text of the block, without the override. -/
  comment : Text
  /-- The value of the tag that the block was found by. -/
  value : Text
  /-- The head of the code behind the block. -/
  definition : Text := []
  /-- Visibility and scope of a member. -/
  modifiers : List Text := []
  /-- What the block documents, once that is known. -/
  role : Option Role := none
  /-- The declaration that the block gives word for word, or the empty text. -/
  override : Text := []
  /-- The object literal that the code assigns, or the empty text. -/
  literal : Text := []
  /-- Whether the tag stands outside of any documentation block. -/
  malformed : Bool := false
  deriving DecidableEq, Repr

namespace Area

/-- Whether the block holds a tag. -/
def hasTag (a : Area) (name : Text) : Bool := Tag.isIn name a.comment

/-- Whether the block is marked as deprecated. -/
def isDeprecated (a : Area) : Bool := a.hasTag "deprecated"

/-- Whether the block is marked as private. -/
def isPrivate (a : Area) : Bool := a.hasTag "private"

/-- Whether the block documents a static member. -/
def isStatic (a : Area) : Bool := a.modifiers.contains "static".toList

end Area

end DocDecl

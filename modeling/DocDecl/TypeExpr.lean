import DocDecl.Comment.Tag
import DocDecl.Delimiter.Group
import DocDecl.Delimiter.Split
import DocDecl.Text.Letter

/-!
# Documented types

A documented type is brought into the form that declarations use: unions alternative by alternative,
rest types as arrays, links as dotted names, and the common type names in their spelling.

## Main definitions

* `plainType` : the form of a type that is no union and no rest type.
* `declaredType` : the form of any type.
* `returnType`, `fieldType` : the types that the tags of a block give.
-/

namespace DocDecl

/-- The spelling of type names that are written in any case. -/
def typeSpellings : List (Text × Text) :=
  [("function", "Function"), ("date", "Date"), ("node", "Node")]

/-- The collections, which may have type arguments. -/
def collectionNames : List Text := ["WeakSet", "WeakMap", "Set", "Map"]

/-- The form of a collection type, with or without arguments. -/
def collectionType? (t : Text) : Option Text :=
  collectionNames.findSome? fun name =>
    let key := Text.lower name
    if Text.lower t = key then some name
    else if (key ++ "<").isPrefixOf (Text.lower t) then some (name ++ t.drop key.length)
    else none

/-- The form of a type name. -/
def namedType (t : Text) : Text :=
  match typeSpellings.find? fun s => s.1 = Text.lower t with
  | some s => s.2
  | none =>
    match collectionType? t with
    | some u => u
    | none =>
      if Text.lower t = "array" then "any[]"
      else if ("array<" : Text).isPrefixOf (Text.lower t) then "Array" ++ t.drop 5
      else if t = "*" then "any"
      else t

/-- The form of a type that is no union and no rest type. A link to a member of an instance is the
type of that member. -/
def plainType (t : Text) : Text :=
  let t := Text.replace "~" "." (Text.replace "module:" "" (Text.replace "external:" "" t))
  match Text.cut? "#" t with
  | some (owner, []) => owner
  | some (owner, m) => "typeof " ++ owner ++ ".prototype." ++ m
  | none => namedType t

/-- The alternatives of a type: the parts between bars, inside the brackets if these enclose all of
it. -/
def alternatives (t : Text) : List Text :=
  splitTopLevel (some '|') (if isParenthesised t then insideGroup t else t)

theorem length_insideGroup_le (g : Text) : (insideGroup g).length ≤ g.length := by
  simp only [insideGroup, List.length_dropLast, List.length_tail]
  omega

theorem length_lt_of_mem_alternatives {t a : Text} (h : a ∈ alternatives t)
    (hl : 1 < (alternatives t).length) : a.length < t.length := by
  have := length_lt_of_mem_splitTopLevel h hl
  split at this
  · have := length_insideGroup_le t
    omega
  · exact this

/-- The array of a type. A union is put into brackets first. -/
def restType (element : Text) : Text :=
  if '|' ∈ element ∧ element.head? ≠ some '(' then "(" ++ element ++ ")[]" else element ++ "[]"

/-- The form of a documented type in declarations. -/
def declaredType (type : Text) : Text :=
  if h : '|' ∈ Text.trim type ∧ 1 < (alternatives (Text.trim type)).length then
    let fixed := Text.join "|" ((alternatives (Text.trim type)).attach.map fun a =>
      have := length_lt_of_mem_alternatives a.2 h.2
      declaredType a.1)
    if isParenthesised (Text.trim type) then "(" ++ fixed ++ ")" else fixed
  else
    match _hr : Text.after? "..." (Text.trim type) with
    | some r => restType (declaredType r)
    | none => plainType (Text.trim type)
termination_by type.length
decreasing_by
  · have := Text.length_trim_le type
    omega
  · have h1 := Text.length_trim_le type
    have h2 := Text.length_of_after? _hr
    have h3 : ("..." : Text).length = 3 := rfl
    omega

/-! ### Types in tags -/

/-- The body of the first group in braces, without surrounding blanks. -/
def bracedType? (t : Text) : Option Text :=
  (group? (t.dropWhile (· ≠ '{'))).map fun (g, _) => Text.trim (insideGroup g)

/-- The type of the first return tag, as it is written. -/
def writtenReturn? (comment : Text) : Option Text :=
  match Tag.afterFirst? ["returns", "return"] comment with
  | none => none
  | some r =>
    match bracedType? (r.takeWhile (· ≠ '\n')) with
    | none => none
    | some [] => none
    | some t => some (t.takeWhile (· ≠ '#'))

/-- The type that the first return tag gives. Without one, nothing is returned. -/
def returnType (comment : Text) : Text := ((writtenReturn? comment).map declaredType).getD "void"

/-- Whether a block has a return tag. -/
def hasReturnTag (comment : Text) : Bool :=
  (Tag.afterFirst? ["returns", "return"] comment).isSome

/-- The type of the first type tag, as it is written, in braces or as one word. -/
def writtenFieldType? (comment : Text) : Option Text :=
  match tagBlocks comment "type" with
  | [] => none
  | b :: _ =>
    let t := Text.trim (b.drop 5)
    match (bracedType? t).getD (Text.firstWord t) with
    | [] => none
    | t => some t

/-- The type that the first type tag gives, or the empty text. -/
def fieldType (comment : Text) : Text := ((writtenFieldType? comment).map declaredType).getD []

end DocDecl

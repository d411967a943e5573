import DocDecl.Comment.Cleaning
import DocDecl.Declaration.Basic
import DocDecl.Report.Journal
import DocDecl.Settings.Options
import DocDecl.TypeExpr

/-!
# Declarations of modules

The first module block gives the module, its imports and its exports; any other is reported.

## Main definitions

* `exportStatement` : the statement for the value of an export tag.
* `declareModules` : the declaration of the module.
-/

namespace DocDecl

/-- A type in braces and one name: the value of a typed export. -/
def typedExport? (t : Text) : Option (Text × Text) :=
  match t with
  | '{' :: t =>
    match t.dropWhile (· ≠ '}') with
    | _ :: r =>
      let r := Text.trimLeft r
      let name := r.takeWhile isNameChar
      if name ≠ [] ∧ Text.isBlankText (r.dropWhile isNameChar) then
        some (t.takeWhile (· ≠ '}'), name)
      else none
    | [] => none
  | _ => none

/-- The statement for the value of an export tag: a function, a constant of a type, or the value
word for word. -/
def exportStatement (t : Text) : Text :=
  match typedExport? t with
  | some (type, name) =>
    let type := declaredType type
    if type = "Function".toList then "export function " ++ name ++ "(): void"
    else "export const " ++ name ++ ": " ++ type
  | none => "export " ++ t

/-- The values of a tag, each on the first line of its block. -/
def tagValues (comment tag : Text) : List Text :=
  ((tagBlocks comment tag).map fun b =>
    Text.trim ((b.takeWhile (· ≠ '\n')).drop (tag.length + 1))).filter fun t => !t.isEmpty

/-- The declaration of a module. -/
def declareModule (options : Options) (a : Area) : Declaration :=
  { area := some a
    path := []
    name := a.value
    heads := ["declare module '" ++ a.value ++ "'"]
    comment := cleanComment
      ["* @module", "* @" ++ options.importTag, "* @" ++ options.exportTag] a.comment
    role := some .moduleBlock
    imports := (tagValues a.comment options.importTag).map ("import " ++ ·)
    exports := (tagValues a.comment options.exportTag).map exportStatement }

/-- Reports the modules behind the first. -/
def reportExtraModules (first : Area) : List Area → Noted Unit
  | [] => return ()
  | a :: as => do
    Noted.error (.area a) "Module"
      ("module " ++ Text.quoted a.value ++ " ignored, " ++ Text.quoted first.value ++
        " is already declared")
    reportExtraModules first as

/-- The declaration of the first module. -/
def declareModules (options : Options) (as : List Area) : Noted (List Declaration) :=
  match as.filter fun a => a.role = some .moduleBlock with
  | [] => return []
  | a :: as => do
    reportExtraModules a as
    return [declareModule options a]

end DocDecl

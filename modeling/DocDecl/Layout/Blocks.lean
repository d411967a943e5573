import DocDecl.Parameter.Basic
import DocDecl.Text.Blank

/-!
# Layout of declarations

A declaration is printed below its comment. The body of a container is indented; a class and an
interface have one member after another, a namespace and a module leave a line between them. No
printed text ends with a line feed.

## Main definitions

* `indentLines` : a text with its lines indented.
* `layoutDeclaration`, `layoutProperty` : single declarations.
* `layoutContainer`, `layoutNamespace`, `layoutModule` : declarations with a body.
-/

namespace DocDecl

/-- The text without surrounding blanks, with every line indented that is not blank. -/
def indentLines (tab t : Text) : Text :=
  Text.unlines ((Text.lines (Text.trim t)).map fun l => if Text.isBlankText l then [] else tab ++ l)

/-- The indentation of bodies. -/
def bodyTab : Text := "  "

/-- The text without line feeds at its end. -/
def trimFeeds : Text → Text
  | [] => []
  | c :: t =>
    match trimFeeds t with
    | [] => if c = '\n' then [] else [c]
    | r => c :: r

/-- Texts with a line feed behind each. -/
def withFeeds (ts : List Text) : Text := ts.flatMap fun t => t ++ ['\n']

/-- The comment on lines of its own, if there is one. -/
def commentLines (comment : Text) : Text := if comment = [] then [] else comment ++ "\n"

/-- A declaration below its comment. -/
def layoutDeclaration (comment head : Text) : Text := trimFeeds (commentLines comment ++ head)

/-- A class or an interface: one member after another. -/
def layoutContainer (comment head : Text) (members : List Text) : Text :=
  commentLines comment ++ head ++ " \x7b\n" ++
    withFeeds (members.map (indentLines bodyTab)) ++ "\x7d"

/-- Blocks with an empty line between each two, indented. -/
def spacedBlocks (blocks : List Text) : Text :=
  Text.join "\n\n" (blocks.map (indentLines bodyTab))

/-- A namespace. -/
def layoutNamespace (comment head : Text) (members : List Text) : Text :=
  commentLines comment ++ head ++ " \x7b\n" ++ spacedBlocks members ++ "\n\x7d"

/-- A module, below its imports and with its exports at the end of the body. -/
def layoutModule (comment head : Text) (blocks imports exports : List Text) : Text :=
  withFeeds imports ++ Text.onlyIf (!imports.isEmpty) "\n" ++ commentLines comment ++ head ++
    " \x7b\n" ++ spacedBlocks blocks ++ "\n" ++ withFeeds (exports.map (indentLines bodyTab)) ++
    "\x7d"

/-- A property of an interface below its description and its default. -/
def layoutProperty (f : Field) : Text :=
  let default :=
    match f.default? with
    | some d => " * @default " ++ d ++ "\n"
    | none => []
  trimFeeds ("/**\n * " ++ f.description ++ "\n" ++ default ++ " */\n" ++ f.name ++
    Text.onlyIf f.optional "?" ++ ": " ++ f.type)

end DocDecl

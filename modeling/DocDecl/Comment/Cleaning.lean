import DocDecl.Comment.Tag
import DocDecl.Delimiter.Group

/-!
# Cleaning a documentation block

A block is printed again above its declaration, without the lines that the declaration itself now
tells: structural tags are dropped, types are taken out of parameter and return lines, and the mark
of a description is removed. A block of which only the frame remains is not printed.

## Main definitions

* `droppedMarkers` : the markers whose lines are always dropped.
* `withoutTagType` : a line without the type behind its tag.
* `cleanLine?`, `cleanComment` : a line and a block as they are printed.
-/

namespace DocDecl

/-- The markers whose lines are dropped from every block. -/
def droppedMarkers : List Text :=
  ["* @memberof", "* @memberOf", "* @name", "* @namespace", "* @constructor", "* @typedef",
    "* @type", "* @property"]

/-- The markers that are dropped from a class as well. The space behind them keeps longer tags. -/
def classMarkers : List Text := ["* @class ", "* @alias "]

/-- Divides a line behind its first parameter or return tag and the blanks that follow it. -/
def cutAtTypedTag? : Text → Option (Text × Text)
  | [] => none
  | c :: t =>
    let here := ((Text.after? "* " (c :: t)).bind (Tag.afterAt? ["param", "returns", "return"])).map
      fun r => ((c :: t).take (t.length + 1 - (Text.trimLeft r).length), Text.trimLeft r)
    here.or ((cutAtTypedTag? t).map fun p => (c :: p.1, p.2))

/-- The line without the type behind its tag. -/
def withoutTagType (line : Text) : Text :=
  match cutAtTypedTag? line with
  | some (before, t) =>
    if t.head? = some '{' then
      match afterGroup? t with
      | some r => Text.trimRight before ++ r
      | none => line
    else line
  | none => line

/-- A line as it is printed, unless it is dropped. -/
def cleanLine? (markers : List Text) (line : Text) : Option Text :=
  let body := Text.trim line
  if ("/**" : Text).isPrefixOf body then some "/**"
  else if ("*/" : Text).isSuffixOf body then some " */"
  else if markers.any fun m => Text.contains m (Text.trimRight line ++ " ") then none
  else if Text.contains "* @param" line || Text.contains "* @return" line then
    some (' ' :: Text.trim (withoutTagType line))
  else if Text.contains "* @desc" line then
    some (' ' :: Text.trim (Text.replaceFirst " @desc" "" line))
  else some (' ' :: body)

/-- A block as it is printed, or the empty text when only its frame remains. -/
def cleanComment (markers : List Text) (comment : Text) : Text :=
  let ls := (Text.lines comment).filterMap (cleanLine? (droppedMarkers ++ markers))
  if ls.length < 3 then [] else Text.unlines ls

end DocDecl

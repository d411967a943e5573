import DocDecl.Text.Blank

/-!
# The normal form of generated text

Generated text has line feeds only, no blanks at the ends of lines, no empty line at the beginning,
no two empty lines in a row, and exactly one line feed at the end unless it is empty.

## Main definitions

* `unixLines` : every kind of line end as a line feed.
* `foldEmptyLines` : runs of empty lines as one.
* `normalForm` : the normal form of a text.
-/

namespace DocDecl

/-- Every kind of line end as a line feed. -/
def unixLines (t : Text) : Text := Text.replace "\r" "\n" (Text.replace "\r\n" "\n" t)

/-- The lines with runs of empty lines as one, where `afterEmpty` tells whether an empty line goes
before or nothing at all. -/
def foldEmptyLines (afterEmpty : Bool) : List Text → List Text
  | [] => []
  | l :: ls =>
    if l = [] then
      if afterEmpty then foldEmptyLines true ls else [] :: foldEmptyLines true ls
    else l :: foldEmptyLines false ls

/-- The lines without the empty ones at the end. -/
def dropEmptyEnd (ls : List Text) : List Text := (ls.reverse.dropWhile (· = [])).reverse

/-- The normal form of a text. -/
def normalForm (t : Text) : Text :=
  let ls := dropEmptyEnd (foldEmptyLines true ((Text.lines (unixLines t)).map Text.trimRight))
  if ls = [] then [] else Text.unlines ls ++ "\n"

end DocDecl

import DocDecl.Text.Basic

/-!
# Paths

A path is written as names between slashes. Empty names and single dots mean nothing. A location is
where a path leads, told by names from the working directory or from the root of all files on; the
parent directory is written as two dots.

## Main definitions

* `Path` : a path as it is written.
* `Path.ofText`, `Path.text` : its reading and its writing.
* `Location`, `Location.enter`, `Location.ofPath` : where a path leads.
-/

namespace DocDecl

/-- A path as it is written. -/
structure Path where
  /-- Whether it starts at the root of all files. -/
  isAbsolute : Bool := false
  /-- The names on the way. -/
  names : List Text
  deriving DecidableEq, Repr

namespace Path

/-- Whether a name leads anywhere. -/
def isStep (name : Text) : Bool := name ≠ [] && name ≠ ['.']

/-- The path that a text writes. -/
def ofText (t : Text) : Path := ⟨t.head? = some '/', (Text.splitOn '/' t).filter isStep⟩

/-- A path in writing. -/
def text (p : Path) : Text :=
  if p.isAbsolute then '/' :: Text.join "/" p.names
  else if p.names = [] then "."
  else Text.join "/" p.names

/-- The last name of a path. -/
def name (p : Path) : Text := p.names.getLastD []

/-- The path of a file in a directory. -/
def child (p : Path) (name : Text) : Path := { p with names := p.names ++ [name] }

end Path

/-! ### Locations -/

/-- Where a path leads, as names from the working directory on, or from the root of all files on,
which has a slash for a name. -/
abbrev Location := List Text

namespace Location

/-- The name of the parent directory. -/
def up : Text := ['.', '.']

/-- The root of all files. -/
def root : Location := [['/']]

/-- The location behind one more name. -/
def enter (l : Location) (name : Text) : Location :=
  if name = up ∧ l = root then root
  else if name = up ∧ l.getLast?.any (· ≠ up) then l.dropLast
  else l ++ [name]

/-- Where a path starts. -/
def start (p : Path) : Location := if p.isAbsolute then root else []

/-- Where a path leads, whether or not there is anything on the way. -/
def ofPath (p : Path) : Location := p.names.foldl enter (start p)

/-- A location as a path. -/
def path : Location → Path
  | ['/'] :: names => ⟨true, names⟩
  | names => ⟨false, names⟩

/-- A location in writing. -/
def text (l : Location) : Text := (path l).text

/-- Whether a location is the working directory, a directory around it, or the root. -/
def isAround (l : Location) : Bool := l = root || l.all (· = up)

end Location

end DocDecl

import DocDecl.File.Path
import DocDecl.Layout.NormalForm

/-!
# Files

Files are given by their locations and texts. A directory is there when it is on the way to a file,
or when it is named on its own. Every line break is read as a line feed.

## Main definitions

* `Files` : the files and their texts.
* `Files.resolve?` : where a path leads, if everything on the way is a directory.
* `Files.read?`, `Files.write`, `Files.append` : the text of a file, and changes to it.

## Main results

* `Files.get?_write` : what is written is found again, and nothing else changes.
-/

namespace DocDecl

/-- Files and their texts. -/
structure Files where
  /-- The location and the text of every file. -/
  entries : List (Location × Text)
  /-- Directories that need not hold a file. -/
  directories : List Location := []
  deriving DecidableEq, Repr

namespace Files

/-- The text of a file, as it is stored. -/
def get? (fs : Files) (l : Location) : Option Text := fs.entries.lookup l

/-- Whether a location is a directory. -/
def isDirectory (fs : Files) (l : Location) : Bool :=
  l.isAround || fs.directories.contains l ||
    fs.entries.any fun e => l.isPrefixOf e.1 && e.1 ≠ l

/-- Where names lead from a location on, if everything on the way is a directory. -/
def walk? (fs : Files) (l : Location) : List Text → Option Location
  | [] => some l
  | name :: names => if fs.isDirectory l then walk? fs (l.enter name) names else none

/-- Where a path leads, if everything on the way is a directory. -/
def resolve? (fs : Files) (p : Path) : Option Location :=
  fs.walk? (Location.start p) p.names

/-- The text of a file, with every line break as a line feed. -/
def read? (fs : Files) (l : Location) : Option Text := (fs.get? l).map unixLines

/-- Whether a path leads to a file. -/
def holdsFile (fs : Files) (p : Path) : Bool := ((fs.resolve? p).bind fs.get?).isSome

/-- Whether a path leads to a directory. -/
def holdsDirectory (fs : Files) (p : Path) : Bool := (fs.resolve? p).any fs.isDirectory

/-- Gives a file a new text. A new file comes last. -/
def writeIn (l : Location) (t : Text) : List (Location × Text) → List (Location × Text)
  | [] => [(l, t)]
  | e :: es => if e.1 = l then (l, t) :: es else e :: writeIn l t es

/-- Gives a file a new text. -/
def write (fs : Files) (l : Location) (t : Text) : Files :=
  { fs with entries := writeIn l t fs.entries }

/-- Adds text at the end of a file, which is made if it is not there. -/
def append (fs : Files) (l : Location) (t : Text) : Files :=
  fs.write l ((fs.get? l).getD [] ++ t)

/-- The files that were not there before. -/
def newSince (old fs : Files) : List (Location × Text) :=
  fs.entries.filter fun e => (old.get? e.1).isNone

theorem get?_write (fs : Files) (l m : Location) (t : Text) :
    (fs.write l t).get? m = if m = l then some t else fs.get? m := by
  obtain ⟨es, ds⟩ := fs
  simp only [write, get?]
  induction es with
  | nil =>
    by_cases h : m = l
    · simp [writeIn, h]
    · simp [writeIn, List.lookup_cons, h, beq_eq_false_iff_ne.2 h]
  | cons e es ih =>
    obtain ⟨k, v⟩ := e
    by_cases hk : k = l
    · subst hk
      by_cases h : m = k
      · simp [writeIn, h]
      · simp [writeIn, List.lookup_cons, h, beq_eq_false_iff_ne.2 h]
    · by_cases h : m = k
      · subst h
        simp [writeIn, hk]
      · simp only [writeIn, hk, if_false, List.lookup_cons, beq_eq_false_iff_ne.2 h, ih]

end Files

end DocDecl

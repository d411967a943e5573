import DocDecl.CommandLine.Run

/-!
# The program

The files that the command line speaks of are read, the run is made on their texts, and what it
changes is written.

## Main definitions

* `gatherFiles` : the files that a run may read.
* `main` : the program.
-/

namespace DocDecl

/-- A location as the system knows it. -/
def systemPath (l : Location) : String := String.ofList l.text

/-- The paths of the directories on the way to a file, and that of the file. -/
def pathsTo (p : Path) : List Path :=
  (List.range (p.names.length + 1)).map fun n => { p with names := p.names.take n }

/-- Reads a file if it is there. -/
def gatherFile (files : Files) (l : Location) : IO Files := do
  let path := (← IO.currentDir) / systemPath l
  if ← path.isDir then return { files with directories := l :: files.directories }
  else if ← path.pathExists then
    return files.write l (← IO.FS.readFile path).toList
  else return files

/-- The files that a run may read: those of its paths, and the settings of a directory. -/
def gatherFiles (a : Arguments) : IO Files := do
  let settings := a.settings.getD ⟨false, []⟩
  let paths := [a.source, settings, settings.child settingsFileName] ++ a.logFile.toList
  ((paths.flatMap pathsTo).map Location.ofPath).foldlM gatherFile { entries := [] }

/-- Writes the files that a run has changed. -/
def writeFiles (old new : Files) : IO Unit :=
  new.entries.forM fun (l, t) => do
    if old.get? l ≠ some t then
      IO.FS.createDirAll (systemPath l.dropLast)
      IO.FS.writeFile (systemPath l) (String.ofList t)

end DocDecl

open DocDecl in
/-- The program. -/
def main (argv : List String) : IO UInt32 := do
  let argv := argv.map String.toList
  let files ←
    match Arguments.parse argv with
    | .ok a => gatherFiles a
    | .error _ => pure { entries := [] }
  match runCommand argv files with
  | .ok r =>
    writeFiles files r.files
    IO.print (String.ofList r.printed)
    IO.eprint (String.ofList r.told)
    return UInt32.ofNat r.ending.status
  | .error f =>
    IO.eprintln (String.ofList f.message)
    return 1

import DocDecl.CommandLine.Arguments
import DocDecl.Generation.Session
import DocDecl.Settings.Loading

/-!
# Runs from the command line

A run reads a source file and writes its declarations to a file, or prints them. On the way it tells
what it does, and in the end it sums up the reports. The exit status is one if something went wrong,
and two if the command line is wrong.

## Main definitions

* `Ending` : how a run ends.
* `RunResult` : what a run leaves behind.
* `Arguments.run`, `runCommand` : a run with given arguments, and with those of a command line.
-/

namespace DocDecl

/-- How a run ends. -/
inductive Ending where
  /-- Help was asked for. -/
  | helped
  /-- The command line is wrong. -/
  | misused
  /-- There is no source file. -/
  | noSource (p : Path)
  /-- There are no settings where they should be. -/
  | noSettings (p : Path)
  /-- The settings are refused. -/
  | badSettings (f : SettingsFault)
  /-- Declarations were made, with or without errors. -/
  | finished (hadErrors : Bool)
  deriving DecidableEq, Repr

/-- The exit status of a run. -/
def Ending.status : Ending → Nat
  | helped => 0
  | misused => 2
  | noSource _ => 1
  | noSettings _ => 1
  | badSettings _ => 1
  | finished hadErrors => if hadErrors then 1 else 0

/-- What a run leaves behind. -/
structure RunResult where
  /-- How it ended. -/
  ending : Ending
  /-- What was printed. -/
  printed : Text := []
  /-- What was told to the user. -/
  told : Text := []
  /-- The files afterwards. -/
  files : Files

/-- How the program is called. -/
def usage : Text :=
  "usage: tsdecgen [-h] [-v] -f SOURCE [-t TARGET] [-d LEVEL] [-c SETTINGS] [--log-file FILE]\n"

/-- Why a run ends before there are declarations. -/
def Ending.message : Ending → Text
  | misused => usage
  | noSource p => "Source file " ++ p.text ++ " does not exist.\n"
  | noSettings p => "Config file " ++ p.text ++ " does not exist.\n"
  | badSettings f => f.message ++ "\n"
  | _ => []

/-- A run that ends before there are declarations. -/
def RunResult.early (ending : Ending) (files : Files) : RunResult :=
  { ending := ending, told := ending.message, files := files }

/-- The lines of a log. -/
def logText (rs : List Record) : Text := rs.flatMap fun r => r.logLine ++ ['\n']

/-- The lines that are told to the user. -/
def consoleText (threshold : Level) (rs : List Record) : Text :=
  (rs.filter (Record.isShown threshold)).flatMap fun r => r.consoleLine ++ ['\n']

namespace Arguments

/-- Adds to the log file, if there is one. -/
def logTo (a : Arguments) (t : Text) (files : Files) : Files :=
  match a.logFile with
  | some p => files.append (Location.ofPath p) t
  | none => files

/-- The settings of a run. -/
def loadSettings (a : Arguments) (files : Files) (importer : Importer := standardImporter) :
    Except Ending Settings :=
  let load (p : Path) := (Settings.load files p importer).mapError Ending.badSettings
  match a.settings with
  | some p =>
    if files.holdsFile p || files.holdsDirectory p then load p else .error (.noSettings p)
  | none => load ⟨false, []⟩

/-- The text of the source file. -/
def readSource (a : Arguments) (files : Files) : Except Ending Text :=
  match (files.resolve? a.source).bind files.read? with
  | some t => .ok t
  | none => .error (.noSource a.source)

/-- Writes the declarations to their file, or prints them. -/
def deliver (a : Arguments) (output : Text) (files : Files) : Text × Files :=
  match a.target with
  | some p => ("File " ++ p.name ++ " successfully created.\n",
      files.write (Location.ofPath p) output)
  | none => (output, files)

/-- A run on a source with given settings. -/
def generate (a : Arguments) (settings : Settings) (source : Text) (files : Files) :
    Except GenerationFault RunResult :=
  let x := DocDecl.generate settings 0 source
  let start : Record := ⟨.info, "generator", "Generating declarations for " ++ a.source.text⟩
  let log := start :: recordsOf x.entries
  let conclusion := Session.conclusionLog a.detail x.reports
  x.value.map fun output =>
    let (printed, files) := a.deliver output (a.logTo (logText log) files)
    { ending := .finished (exitStatus x.reports ≠ 0)
      printed := printed
      told := consoleText (Level.threshold a.verbose a.detail) (log ++ conclusion)
      files := a.logTo (logText conclusion) files }

/-- A run with given arguments. The log file is there from the beginning on. -/
def run (a : Arguments) (files : Files) (importer : Importer := standardImporter) :
    Except GenerationFault RunResult :=
  let files := a.logTo [] files
  let given : Except Ending (Text × Settings) := do
    let source ← a.readSource files
    return (source, ← a.loadSettings files importer)
  match given with
  | .ok (source, settings) => a.generate settings source files
  | .error ending => .ok (.early ending files)

end Arguments

/-- A run with the arguments of a command line. -/
def runCommand (argv : List Text) (files : Files) (importer : Importer := standardImporter) :
    Except GenerationFault RunResult :=
  match Arguments.parse argv with
  | .ok a => a.run files importer
  | .error .helpWanted => .ok { ending := .helped, printed := usage, files := files }
  | .error .badUsage => .ok (.early .misused files)

end DocDecl

import DocDecl.CommandLine.Flag
import DocDecl.File.Path
import DocDecl.Pattern.Parser
import DocDecl.Text.Blank

/-!
# Arguments

The arguments of a run are read off the words of the command line. A source is needed, operands are
not taken, and of a flag that is given several times the last one counts.

## Main definitions

* `integer?` : a whole number.
* `Arguments` : the arguments of a run.
* `Draft`, `Draft.takeWords` : what the words of a command line give.
* `Arguments.parse` : the arguments of a command line.
-/

namespace DocDecl

/-! ### Whole numbers -/

/-- A whole number without a sign. Single underscores may stand between digits. -/
def unsigned? (t : Text) : Option Nat := do
  let runs ← (Text.splitOn '_' t).mapM fun run =>
    if run = [] then none else run.mapM decimalValue?
  return valueOf 10 runs.flatten

/-- A whole number, with blanks around it. -/
def integer? (t : Text) : Option Int :=
  match Text.trim t with
  | '-' :: r => (unsigned? r).map fun n => -(n : Int)
  | '+' :: r => (unsigned? r).map Int.ofNat
  | r => (unsigned? r).map Int.ofNat

/-- A level of detail, from zero to three. -/
def detailLevel? (t : Text) : Option Nat :=
  match integer? t with
  | some (.ofNat n) => if n ≤ 3 then some n else none
  | _ => none

/-! ### Arguments -/

/-- Why there are no arguments. -/
inductive ArgumentsFault where
  /-- Help is asked for. -/
  | helpWanted
  /-- The command line is wrong. -/
  | badUsage
  deriving DecidableEq, Repr

/-- What a command line has given so far. -/
structure Draft where
  /-- Whether details of the work are shown. -/
  verbose : Bool := false
  /-- The file to read. -/
  source : Option Text := none
  /-- The file to write. -/
  target : Option Text := none
  /-- How much the summary tells. -/
  detail : Nat := 2
  /-- Where the settings are. -/
  settings : Option Text := none
  /-- The file for the log. -/
  logFile : Option Text := none
  /-- Whether there was a word that is not taken. -/
  hasExtra : Bool := false
  deriving DecidableEq, Repr

/-- What the command line gives with one more use of a flag. -/
def Draft.take (d : Draft) (u : FlagUse) : Except ArgumentsFault Draft :=
  match u.flag with
  | .help => .error .helpWanted
  | .verbose => .ok { d with verbose := true }
  | .source => .ok { d with source := u.value }
  | .target => .ok { d with target := u.value }
  | .settings => .ok { d with settings := u.value }
  | .logFile => .ok { d with logFile := u.value }
  | .detail =>
    match u.value.bind detailLevel? with
    | some n => .ok { d with detail := n }
    | none => .error .badUsage

/-- What the command line gives with several more uses of flags. -/
def Draft.takeAll (d : Draft) (us : List FlagUse) : Except ArgumentsFault Draft :=
  us.foldlM Draft.take d

/-- The uses that a flag with joined text stands for. -/
def usesOf (f : Flag) : Option JoinedText → Option (List FlagUse × SpreadEnd)
  | none => some ([], .pending f)
  | some j =>
    if !j.isMarked then spreadLetters f j.text
    else if f.takesValue then some ([⟨f, some j.text⟩], .complete)
    else none

/-- What the command line gives with more words. -/
def Draft.takeWords (d : Draft) : List Word → Except ArgumentsFault Draft
  | [] => .ok d
  | .flag f joined :: ws =>
    match usesOf f joined with
    | none => .error .badUsage
    | some (us, .complete) => do (← d.takeAll us).takeWords ws
    | some (us, .stray) => do
      let d ← d.takeAll us
      Draft.takeWords { d with hasExtra := true } ws
    | some (us, .pending g) =>
      if g.takesValue then
        match ws with
        | .operand v :: ws => do (← d.takeAll (us ++ [⟨g, some v⟩])).takeWords ws
        | _ => .error .badUsage
      else do (← d.takeAll (us ++ [⟨g, none⟩])).takeWords ws
  | _ :: ws => Draft.takeWords { d with hasExtra := true } ws

/-- The arguments of a run. -/
structure Arguments where
  /-- Whether details of the work are shown. -/
  verbose : Bool
  /-- The file to read. -/
  source : Path
  /-- The file to write; without one the declarations are printed. -/
  target : Option Path
  /-- How much the summary tells. -/
  detail : Nat
  /-- Where the settings are; without it, in the working directory. -/
  settings : Option Path
  /-- The file for the log. -/
  logFile : Option Path
  deriving DecidableEq, Repr

/-- The path of an argument; the empty text is none. -/
def pathOf? (t : Option Text) : Option Path := (t.filter (· ≠ [])).map Path.ofText

/-- The arguments that a command line has given. -/
def Draft.finish (d : Draft) : Except ArgumentsFault Arguments :=
  match d.hasExtra, d.source with
  | false, some source =>
    .ok {
      verbose := d.verbose
      source := Path.ofText source
      target := pathOf? d.target
      detail := d.detail
      settings := pathOf? d.settings
      logFile := pathOf? d.logFile }
  | _, _ => .error .badUsage

/-- The arguments of a command line. -/
def Arguments.parse (argv : List Text) : Except ArgumentsFault Arguments :=
  match Word.ofTexts? argv with
  | some words => do (← ({} : Draft).takeWords words).finish
  | none => .error .badUsage

end DocDecl

import DocDecl.Text.Basic
import DocDecl.Text.Word

/-!
# Flags

The words of a command line are flags and operands. A flag is written with one dash and a letter, or
with two dashes and a name, of which the beginning is enough if no other name begins like it. Its
value is the next word, or is joined to it: behind an equals sign, or directly behind the letter.
Letters of flags that take no value may be followed by more letters.

## Main definitions

* `Flag`, `Flag.spellings` : the flags and how they are written.
* `Word`, `Word.ofText?`, `Word.ofTexts?` : what a word of the command line is.
* `FlagUse`, `spreadLetters` : the flags that joined letters stand for.
-/

namespace DocDecl

/-- The flags of the command line. -/
inductive Flag where
  | help
  | verbose
  | source
  | target
  | detail
  | settings
  | logFile
  deriving DecidableEq, Repr

namespace Flag

/-- Whether a flag takes a value. -/
def takesValue : Flag → Bool
  | help => false
  | verbose => false
  | _ => true

/-- How the flags are written. -/
def spellings : List (Text × Flag) :=
  [("-h", help), ("--help", help), ("-v", verbose), ("--verbose", verbose), ("-f", source),
    ("--from", source), ("-t", target), ("--to", target), ("-d", detail), ("--debug", detail),
    ("-c", settings), ("--config", settings), ("--log-file", logFile)]

/-- The flag that is written like this. -/
def ofSpelling? (t : Text) : Option Flag := spellings.lookup t

end Flag

/-! ### Words -/

/-- Text that is joined to a flag. -/
structure JoinedText where
  /-- Whether an equals sign stands before it. -/
  isMarked : Bool
  /-- The text. -/
  text : Text
  deriving DecidableEq, Repr

/-- What a word of the command line is. -/
inductive Word where
  | operand (t : Text)
  | flag (f : Flag) (joined : Option JoinedText)
  /-- Something with a dash that is no flag. -/
  | stray
  /-- Two dashes, behind which there are no flags. -/
  | separator
  deriving DecidableEq, Repr

/-- Whether a text is a negative number. -/
def isNegativeNumber (t : Text) : Bool :=
  match t with
  | '-' :: r =>
    let r := if r.getLast? = some '\n' then r.dropLast else r
    match r.dropWhile isDecimal with
    | [] => !r.isEmpty
    | '.' :: ds => !ds.isEmpty && ds.all isDecimal
    | _ => false
  | _ => false

/-- A word that begins with two dashes. It fails if several flags begin like it. -/
def longWord? (w : Text) : Option (Option Word) :=
  let (name, joined) : Text × Option JoinedText :=
    match Text.cut? "=" w with
    | some (name, value) => (name, some ⟨true, value⟩)
    | none => (w, none)
  match Flag.spellings.filter fun s => name.isPrefixOf s.1 with
  | [] => some none
  | [s] => some (some (.flag s.2 joined))
  | _ => none

/-- A word that begins with one dash and a letter. -/
def shortWord? (w : Text) : Option Word :=
  (Flag.ofSpelling? (w.take 2)).map fun f => .flag f (some ⟨false, w.drop 2⟩)

/-- A word with an equals sign behind the whole spelling of a flag. -/
def markedWord? (w : Text) : Option Word := do
  let (name, value) ← Text.cut? "=" w
  return .flag (← Flag.ofSpelling? name) (some ⟨true, value⟩)

/-- What a word is that begins with a dash. It fails if several flags begin like it. -/
def dashedWord? (w : Text) : Option Word :=
  let other : Word := if isNegativeNumber w || ' ' ∈ w then .operand w else .stray
  match (Flag.ofSpelling? w).map fun f => Word.flag f none with
  | some word => some word
  | none =>
    match markedWord? w with
    | some word => some word
    | none =>
      if ("--" : Text).isPrefixOf w then (longWord? w).map fun word => word.getD other
      else some ((shortWord? w).getD other)

/-- What a word is. It fails if several flags begin like it. -/
def Word.ofText? (w : Text) : Option Word :=
  match w with
  | '-' :: _ :: _ => dashedWord? w
  | w => some (.operand w)

/-- What the words of a command line are. -/
def Word.ofTexts? : List Text → Option (List Word)
  | [] => some []
  | w :: ws =>
    if w = ['-', '-'] then some (.separator :: ws.map .operand)
    else do
      let word ← Word.ofText? w
      return word :: (← Word.ofTexts? ws)

/-! ### Joined letters -/

/-- A flag with its value, if it takes one. -/
structure FlagUse where
  /-- The flag. -/
  flag : Flag
  /-- Its value. -/
  value : Option Text := none
  deriving DecidableEq, Repr

/-- What follows the uses of joined letters. -/
inductive SpreadEnd where
  | complete
  /-- The last flag has nothing joined to it. -/
  | pending (f : Flag)
  /-- A letter is no flag. -/
  | stray
  deriving DecidableEq, Repr

/-- The uses that a flag and the text directly behind it stand for. It fails where a flag without a
value gets one. -/
def spreadLetters (f : Flag) : Text → Option (List FlagUse × SpreadEnd)
  | [] => some ([], .pending f)
  | c :: t =>
    if f.takesValue then some ([⟨f, some (c :: t)⟩], .complete)
    else if c = '-' then none
    else
      match Flag.ofSpelling? ['-', c] with
      | none => some ([⟨f, none⟩], .stray)
      | some g =>
        if t.head? = some '=' then
          if g.takesValue then some ([⟨f, none⟩, ⟨g, some t.tail⟩], .complete) else none
        else (spreadLetters g t).map fun r => (⟨f, none⟩ :: r.1, r.2)

end DocDecl

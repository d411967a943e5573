import DocDecl.Pattern.Escape
import DocDecl.Text.Identifier

/-!
# Symbols of patterns

The text of a pattern is divided into symbols: characters and classes, anchors, brackets with what
they open, bars, quantifiers and references. Where white space is left out, there are comments.

## Main definitions

* `Opening` : what an opening bracket opens.
* `PatternSymbol` : the symbols of a pattern.
* `symbolAt` : the symbol that a text begins with.
-/

namespace DocDecl

/-! ### Symbols -/

/-- What an opening bracket opens. -/
inductive Opening where
  /-- A group whose match is kept. -/
  | kept (name : Option Text)
  /-- A group for which flags are changed. -/
  | scoped (add del : PatternFlags)
  /-- A group that is not tried a second time. -/
  | atomic
  /-- What has to stand, or must not stand, behind the place. -/
  | ahead (negated : Bool)
  /-- What has to stand, or must not stand, in front of the place. -/
  | behind (negated : Bool)
  /-- The patterns for a group that took part in the match, and for one that did not. -/
  | conditional (number : Nat)
  /-- The same for a group that is given by its name. -/
  | namedConditional (name : Text)

/-- The symbols of a pattern. -/
inductive PatternSymbol where
  | set (s : CharSet)
  | dot
  | anchor (a : Anchor)
  | open (o : Opening)
  | close
  | bar
  | quantifier (mode : RepeatMode) (least : Nat) (most : Option Nat)
  | reference (number : Nat)
  | namedReference (name : Text)
  | flags (add : PatternFlags)
  | comment

/-- The symbol of a single character. -/
def PatternSymbol.char (code : Nat) : PatternSymbol := set ⟨[.char code], false⟩

/-! ### Comments -/

/-- How many characters there are up to a closing bracket, with it. A backslash takes the next
character along. -/
def commentLength? : Text → Option Nat
  | [] => none
  | ')' :: _ => some 1
  | '\\' :: _ :: t => (commentLength? t).map (· + 2)
  | _ :: t => (commentLength? t).map (· + 1)

/-- How many characters there are up to the end of the line, with it. A backslash takes the next
character along, which there has to be. -/
def lineCommentLength : Text → Except PatternFault Nat
  | [] => .ok 0
  | '\n' :: _ => .ok 1
  | ['\\'] => .error .endOfPattern
  | '\\' :: _ :: t => (lineCommentLength t).map (· + 2)
  | _ :: t => (lineCommentLength t).map (· + 1)

/-! ### Flags -/

/-- The flags of letters. Of those that choose the classes of characters there is one at most. -/
def flagsOf (letters : Text) : Except PatternFault PatternFlags :=
  let flags := letters.filterMap PatternFlag.ofLetter?
  if flags.contains .ascii ∧ flags.contains .unicode then .error .badFlags else .ok flags

/-- Whether a letter is that of a flag. -/
def isFlagLetter (c : Char) : Bool := (PatternFlag.ofLetter? c).isSome

/-- The symbol for flags, given the text behind the question mark, and how many characters it
takes. -/
def flagsAt (t : Text) : Except PatternFault (PatternSymbol × Nat) := do
  let letters := t.takeWhile isFlagLetter
  let add ← flagsOf letters
  match t.dropWhile isFlagLetter with
  | ')' :: _ =>
    if letters = [] then throw .unknownExtension else return (.flags add, letters.length + 1)
  | ':' :: _ => return (.open (.scoped add []), letters.length + 1)
  | '-' :: r =>
    let taken := r.takeWhile isFlagLetter
    let del := taken.filterMap PatternFlag.ofLetter?
    if taken = [] ∨ (r.dropWhile isFlagLetter).head? ≠ some ':' ∨ del.any (·.choosesClasses) ∨
        add.any del.contains then throw .badFlags
    else return (.open (.scoped add del), letters.length + taken.length + 2)
  | _ => throw .unknownExtension

/-! ### Brackets -/

/-- The name of a group up to a closing sign. -/
def groupNameAt (closer : Char) (t : Text) : Except PatternFault Text :=
  let name := t.takeWhile (· ≠ closer)
  if isUnicodeIdentifier name ∧ name.length < t.length then .ok name else .error .badGroupName

/-- The condition on a group up to the closing bracket: its name or its number. -/
def conditionAt (t : Text) : Except PatternFault (Opening × Nat) :=
  let name := t.takeWhile (· ≠ ')')
  if name.length = t.length ∨ name = [] then .error .badGroupName
  else if isUnicodeIdentifier name then .ok (.namedConditional name, name.length + 1)
  else if name.all Char.isDigit ∧ decimalOf name ≠ 0 then
    .ok (.conditional (decimalOf name), name.length + 1)
  else .error .badGroupName

/-- The symbol for an opening bracket, given what follows it, and how many characters it takes. -/
def openingAt (t : Text) : Except PatternFault (PatternSymbol × Nat) :=
  match t with
  | '?' :: '=' :: _ => .ok (.open (.ahead false), 2)
  | '?' :: '!' :: _ => .ok (.open (.ahead true), 2)
  | '?' :: '<' :: '=' :: _ => .ok (.open (.behind false), 3)
  | '?' :: '<' :: '!' :: _ => .ok (.open (.behind true), 3)
  | '?' :: '>' :: _ => .ok (.open .atomic, 2)
  | '?' :: '#' :: t =>
    match commentLength? t with
    | some n => .ok (.comment, n + 2)
    | none => .error .unterminatedComment
  | '?' :: '(' :: t => do
    let (condition, n) ← conditionAt t
    return (.open condition, n + 2)
  | '?' :: 'P' :: '<' :: t => do
    let name ← groupNameAt '>' t
    return (.open (.kept (some name)), name.length + 4)
  | '?' :: 'P' :: '=' :: t => do
    let name ← groupNameAt ')' t
    return (.namedReference name, name.length + 4)
  | '?' :: t => do
    let (s, n) ← flagsAt t
    return (s, n + 1)
  | _ => .ok (.open (.kept none), 0)

/-! ### Quantifiers -/

/-- How a repetition is tried, by the sign behind its quantifier, and how many characters that
takes. -/
def modeAt : Text → RepeatMode × Nat
  | '?' :: _ => (.lazy, 1)
  | '+' :: _ => (.possessive, 1)
  | _ => (.greedy, 0)

/-- The bounds in braces, given the text behind the opening one, and how many characters they take
with the closing one. -/
def boundsAt? (t : Text) : Option (Nat × Option Nat × Nat) :=
  if t.head? = some '}' then none
  else
    let lo := t.takeWhile Char.isDigit
    match t.dropWhile Char.isDigit with
    | '}' :: _ => some (decimalOf lo, some (decimalOf lo), lo.length + 1)
    | ',' :: r =>
      let hi := r.takeWhile Char.isDigit
      match r.dropWhile Char.isDigit with
      | '}' :: _ =>
        some (decimalOf lo, if hi = [] then none else some (decimalOf hi),
          lo.length + hi.length + 2)
      | _ => none
    | _ => none

/-- A bound is less than this. -/
def repetitionLimit : Nat := 0xffffffff

/-- Bounds that can be used. -/
def checkBounds (least : Nat) (most : Option Nat) : Except PatternFault Unit :=
  if repetitionLimit ≤ least ∨ most.any (repetitionLimit ≤ ·) then .error .tooManyRepetitions
  else if most.any (· < least) then .error .minAboveMax
  else .ok ()

/-- A quantifier with its mode. -/
def quantifierAt (least : Nat) (most : Option Nat) (n : Nat) (t : Text) : PatternSymbol × Nat :=
  let (mode, m) := modeAt (t.drop n)
  (.quantifier mode least most, n + m)

/-! ### Escapes -/

/-- The symbol for digits behind a backslash. -/
def digitSymbol (d : Char) (t : Text) : Except PatternFault (PatternSymbol × Nat) :=
  match digitEscape? d t with
  | some (.code n, k) => .ok (.char n, k)
  | some (.group number, k) => .ok (.reference number, k)
  | none => .error .badEscape

/-- The symbol behind a backslash, and how many characters it takes. -/
def escapeAt (t : Text) : Except PatternFault (PatternSymbol × Nat) :=
  match t with
  | [] => .error .endOfPattern
  | d :: t =>
    match kindOf? d, anchorOf? d with
    | some item, _ => .ok (.set ⟨[item], false⟩, 1)
    | none, some a => .ok (.anchor a, 1)
    | none, none =>
      if d.isDigit then digitSymbol d t
      else do
        let (code, n) ← escapedCode d t
        return (.char code, n + 1)

/-! ### The first symbol of a text -/

/-- Whether a character is left out where white space is. -/
def isSkipped (c : Char) : Bool := c = ' ' || ('\t' ≤ c && c ≤ '\r')

/-- The symbol that begins with a character, and how many more characters it takes. -/
def symbolAt (verbose : Bool) (c : Char) (t : Text) : Except PatternFault (PatternSymbol × Nat) :=
  if verbose ∧ isSkipped c then .ok (.comment, 0)
  else if verbose ∧ c = '#' then return (.comment, ← lineCommentLength t)
  else
    match c with
    | '\\' => escapeAt t
    | '[' => do
      let (s, n) ← setAt t
      return (.set s, n)
    | '(' => openingAt t
    | ')' => .ok (.close, 0)
    | '|' => .ok (.bar, 0)
    | '.' => .ok (.dot, 0)
    | '^' => .ok (.anchor .lineStart, 0)
    | '$' => .ok (.anchor .lineEnd, 0)
    | '*' => .ok (quantifierAt 0 none 0 t)
    | '+' => .ok (quantifierAt 1 none 0 t)
    | '?' => .ok (quantifierAt 0 (some 1) 0 t)
    | '{' =>
      match boundsAt? t with
      | some (least, most, n) => do
        checkBounds least most
        return quantifierAt least most n t
      | none => .ok (.char '{'.toNat, 0)
    | c => .ok (.char c.toNat, 0)

end DocDecl

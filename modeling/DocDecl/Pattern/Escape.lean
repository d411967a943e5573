import DocDecl.Pattern.Basic

/-!
# Characters and classes in patterns

Behind a backslash stands a character by its code, the letter of a class or of an anchor, or a sign
that loses its meaning. In square brackets stand the items of a class.

## Main definitions

* `PatternFault` : why a text is no pattern.
* `digitEscape?`, `escapedCode` : what digits and other characters behind a backslash stand for.
* `setAt` : the class behind an opening bracket.
-/

namespace DocDecl

/-! ### Faults -/

/-- Why a text is no pattern. -/
inductive PatternFault where
  | badEscape
  | endOfPattern
  | unterminatedSet
  | badRange
  | unknownExtension
  | unterminatedComment
  | badFlags
  | lateFlags
  | badGroupName
  | unknownGroup
  | openGroup
  | redefinedGroup
  | groupInLookBehind
  | variableLookBehind
  | thirdBranch
  | missingParenthesis
  | unbalancedParenthesis
  | nothingToRepeat
  | multipleRepeat
  | minAboveMax
  | tooManyRepetitions
  deriving DecidableEq, Repr

/-! ### Escapes -/

/-- The class that a letter stands for behind a backslash. -/
def kindOf? : Char → Option SetItem
  | 'w' => some (.kind .word false)
  | 'W' => some (.kind .word true)
  | 's' => some (.kind .blank false)
  | 'S' => some (.kind .blank true)
  | 'd' => some (.kind .digit false)
  | 'D' => some (.kind .digit true)
  | _ => none

/-- The anchor that a letter stands for behind a backslash. -/
def anchorOf? : Char → Option Anchor
  | 'A' => some .textStart
  | 'Z' => some .textEnd
  | 'b' => some .wordBoundary
  | 'B' => some .noWordBoundary
  | _ => none

/-- The control character that a letter stands for behind a backslash. -/
def controlOf? : Char → Option Char
  | 'a' => some '\x07'
  | 'f' => some '\x0c'
  | 'n' => some '\n'
  | 'r' => some '\r'
  | 't' => some '\t'
  | 'v' => some '\x0b'
  | _ => none

/-- The value of a hexadecimal digit. -/
def hexValue? (c : Char) : Option Nat :=
  if c.isDigit then some (c.toNat - 0x30)
  else if 'a' ≤ c ∧ c ≤ 'f' then some (c.toNat - 0x57)
  else if 'A' ≤ c ∧ c ≤ 'F' then some (c.toNat - 0x37)
  else none

/-- The number that digits spell in a base. -/
def valueOf (base : Nat) (ds : List Nat) : Nat := ds.foldl (fun n d => n * base + d) 0

/-- The number that digits spell. -/
def decimalOf (ds : Text) : Nat := valueOf 10 (ds.map fun d => d.toNat - 0x30)

/-- The greatest code of a character. -/
def greatestCode : Nat := 0x10ffff

/-- The code that is spelled by `width` hexadecimal digits. -/
def hexCode? (width : Nat) (t : Text) : Option Nat := do
  let ds ← (t.take width).mapM hexValue?
  let n := valueOf 16 ds
  if ds.length = width ∧ n ≤ greatestCode then some n else none

/-- The class of octal digits. -/
def isOctal (c : Char) : Bool := '0' ≤ c && c ≤ '7'

/-- The code that is spelled by octal digits. -/
def octalCode (ds : Text) : Nat := valueOf 8 (ds.map fun d => d.toNat - 0x30)

/-- The greatest code that is spelled by octal digits. -/
def greatestOctal : Nat := 0o377

/-- The code that is spelled by octal digits, if it is not too great. -/
def checkedOctal? (ds : Text) : Option Nat :=
  if octalCode ds ≤ greatestOctal then some (octalCode ds) else none

/-- What digits behind a backslash stand for. -/
inductive DigitEscape where
  /-- A character, by its code in octal digits. -/
  | code (n : Nat)
  /-- A group, by its number. -/
  | group (number : Nat)

/-- What the digit behind a backslash stands for, with those behind it, and how many characters that
takes: a code behind a zero and in three octal digits, and else the number of a group in at most two
digits. It is nothing where the code is too great. -/
def digitEscape? (d : Char) (t : Text) : Option (DigitEscape × Nat) :=
  if d = '0' then
    let ds := (t.take 2).takeWhile isOctal
    some (.code (octalCode ds), ds.length + 1)
  else
    match t with
    | e :: t =>
      if e.isDigit then
        if isOctal d ∧ isOctal e ∧ (t.head?.map isOctal).getD false then
          (checkedOctal? (d :: e :: t.take 1)).map fun n => (.code n, 3)
        else some (.group (decimalOf [d, e]), 2)
      else some (.group (decimalOf [d]), 1)
    | [] => some (.group (decimalOf [d]), 1)

/-- The code of a single character behind a backslash, and how many characters it takes beyond the
first. -/
def escapedCode (c : Char) (t : Text) : Except PatternFault (Nat × Nat) :=
  match controlOf? c with
  | some d => .ok (d.toNat, 0)
  | none =>
    let width := if c = 'x' then some 2 else if c = 'u' then some 4
      else if c = 'U' then some 8 else none
    match width with
    | some w =>
      match hexCode? w t with
      | some n => .ok (n, w)
      | none => .error .badEscape
    | none => if c.isAlphanum then .error .badEscape else .ok (c.toNat, 0)

/-! ### Classes -/

/-- One item of a class and how many characters it takes beyond the first. -/
def setItemAt (c : Char) (t : Text) : Except PatternFault (SetItem × Nat) :=
  if c ≠ '\\' then .ok (.char c.toNat, 0)
  else
    match t with
    | [] => .error .endOfPattern
    | d :: t =>
      match kindOf? d with
      | some item => .ok (item, 1)
      | none =>
        if d = 'b' then .ok (.char '\x08'.toNat, 1)
        else if isOctal d then do
          let ds := (d :: t).take 3 |>.takeWhile isOctal
          match checkedOctal? ds with
          | some n => return (.char n, ds.length)
          | none => throw .badEscape
        else do
          let (code, n) ← escapedCode d t
          return (.char code, n + 1)

/-- The range between two items. -/
def rangeOf (lo hi : SetItem) : Except PatternFault SetItem :=
  match lo, hi with
  | .char a, .char b => if a ≤ b then .ok (.range a b) else .error .badRange
  | _, _ => .error .badRange

/-- How far a class has been read. -/
inductive SetState where
  /-- Nothing since the opening bracket, where a closing one stands for itself. -/
  | first
  /-- An item may begin here. -/
  | between
  /-- An item that may turn out to be the low end of a range. -/
  | item (i : SetItem)
  /-- The low end of a range and its dash. -/
  | range (lo : SetItem)

/-- The items up to the closing bracket, and how many characters have been read with it. The number
`skip` tells how many more characters belong to the item before. -/
def setItems : Nat → SetState → Text → Except PatternFault (List SetItem × Nat)
  | _, _, [] => .error .unterminatedSet
  | skip + 1, st, _ :: t => (setItems skip st t).map fun r => (r.1, r.2 + 1)
  | 0, st, c :: t => do
    let more (found : List SetItem) (skip : Nat) (st : SetState) :
        Except PatternFault (List SetItem × Nat) :=
      (setItems skip st t).map fun r => (found ++ r.1, r.2 + 1)
    match st with
    | .item i =>
      if c = ']' then .ok ([i], 1)
      else if c = '-' then more [] 0 (.range i)
      else
        let (j, n) ← setItemAt c t
        more [i] n (.item j)
    | .range lo =>
      if c = ']' then .ok ([lo, .char '-'.toNat], 1)
      else
        let (hi, n) ← setItemAt c t
        more [← rangeOf lo hi] n .between
    | .between =>
      if c = ']' then .ok ([], 1)
      else
        let (j, n) ← setItemAt c t
        more [] n (.item j)
    | .first =>
      let (j, n) ← setItemAt c t
      more [] n (.item j)

/-- The class behind an opening bracket, and how many characters it takes. -/
def setAt (t : Text) : Except PatternFault (CharSet × Nat) := do
  match t with
  | '^' :: t =>
    let (items, n) ← setItems 0 .first t
    return (⟨items, true⟩, n + 1)
  | t =>
    let (items, n) ← setItems 0 .first t
    return (⟨items, false⟩, n)

end DocDecl

import DocDecl.Document.Node

/-!
# Data in JSON

Data that other programs send comes as JSON: null, truth values, numbers, text in double quotes,
lists and mappings. The words for what is no number are read as well.

## Main definitions

* `jsonString`, `jsonNumber?`, `jsonTokens` : the tokens of a text.
* `readJson` : a value at the beginning of tokens.
* `Document.ofJson?` : the data of a text.
-/

namespace DocDecl

/-! ### Tokens -/

/-- The class of JSON spaces. -/
def isJsonSpace (c : Char) : Bool := c == ' ' || c == '\t' || c == '\n' || c == '\r'

/-- The character that a letter stands for behind a backslash. -/
def jsonEscape? : Char → Option Char
  | '"' => some '"'
  | '\\' => some '\\'
  | '/' => some '/'
  | 'b' => some '\x08'
  | 'f' => some '\x0c'
  | 'n' => some '\n'
  | 'r' => some '\r'
  | 't' => some '\t'
  | _ => none

/-- The code unit that four hexadecimal digits spell. -/
def codeUnit? (t : Text) : Option Nat := do
  let ds ← (t.take 4).mapM hexValue?
  if ds.length = 4 then some (valueOf 16 ds) else none

/-- The character of two code units, the first from the upper and the second from the lower half of
the surrogates. -/
def pairedChar? (upper lower : Nat) : Option Char :=
  if 0xd800 ≤ upper ∧ upper < 0xdc00 ∧ 0xdc00 ≤ lower ∧ lower < 0xe000 then
    some (Char.ofNat (0x10000 + (upper - 0xd800) * 0x400 + (lower - 0xdc00)))
  else none

/-- The character behind a backslash, and how many characters spell it. -/
def jsonEscaped? (t : Text) : Option (Char × Nat) :=
  match t with
  | [] => none
  | 'u' :: r => do
    let unit ← codeUnit? r
    if unit.isValidChar then some (Char.ofNat unit, 5)
    else do
      let s ← Text.after? "\\u" (r.drop 4)
      return (← pairedChar? unit (← codeUnit? s), 11)
  | c :: _ => (jsonEscape? c).map (·, 1)

/-- Text up to its closing quote, and how many characters it takes with the quote. The number `skip`
tells how many characters still belong to the piece before. -/
def jsonString : Nat → Text → Option (Text × Nat)
  | _, [] => none
  | skip + 1, _ :: t => (jsonString skip t).map fun r => (r.1, r.2 + 1)
  | 0, c :: t =>
    if c = '"' then some ([], 1)
    else if c = '\\' then
      match jsonEscaped? t with
      | some (d, n) => (jsonString n t).map fun r => (d :: r.1, r.2 + 1)
      | none => none
    else if c.toNat < 0x20 then none
    else (jsonString 0 t).map fun r => (c :: r.1, r.2 + 1)

/-- The number at the beginning of a text: its digits before and behind the point, its exponent, and
what follows. -/
def jsonDigits? (t : Text) : Option (Text × Option Text × Option Int × Text) :=
  let whole := match t with
    | '0' :: _ => ['0']
    | t => t.takeWhile Char.isDigit
  if whole = [] then none
  else
    let t := t.drop whole.length
    let (part, t) : Option Text × Text :=
      match t with
      | '.' :: r =>
        if r.head?.any Char.isDigit then
          (some (r.takeWhile Char.isDigit), r.dropWhile Char.isDigit)
        else (none, t)
      | _ => (none, t)
    let (e, t) : Option Int × Text :=
      match t with
      | c :: r =>
        let (negative, ds) := signed r
        if (c = 'e' ∨ c = 'E') ∧ ds.head?.any Char.isDigit then
          let n := decimalOf (ds.takeWhile Char.isDigit)
          (some (if negative then -(n : Int) else n), ds.dropWhile Char.isDigit)
        else (none, t)
      | [] => (none, t)
    some (whole, part, e, t)

/-- The number at the beginning of a text, and how many characters it takes. It is a fraction if it
has a point or an exponent. -/
def jsonNumber? (t : Text) : Option (Document × Nat) :=
  let (negative, r) : Bool × Text :=
    match t with
    | '-' :: r => (true, r)
    | r => (false, r)
  match jsonDigits? r with
  | none => none
  | some (whole, none, none, rest) =>
    let n : Int := decimalOf whole
    some (.int (if negative then -n else n), t.length - rest.length)
  | some (whole, part, e, rest) =>
    let part := part.getD []
    some (.fraction (fractionText negative (decimalOf (whole ++ part)) (e.getD 0 - part.length)),
      t.length - rest.length)

/-- The words of JSON, and of what is no number. -/
def jsonWords : List (Text × Document) :=
  [("null", .null), ("true", .bool true), ("false", .bool false), ("NaN", .fraction "nan"),
    ("Infinity", .fraction "inf"), ("-Infinity", .fraction "-inf")]

/-- A token of JSON. -/
inductive JsonToken where
  | value (d : Document)
  | openList
  | closeList
  | openMap
  | closeMap
  | colon
  | comma
  deriving Repr

/-- The token that begins with a character, and how many more characters it takes. -/
def jsonToken? (c : Char) (t : Text) : Option (JsonToken × Nat) :=
  match c with
  | '[' => some (.openList, 0)
  | ']' => some (.closeList, 0)
  | '{' => some (.openMap, 0)
  | '}' => some (.closeMap, 0)
  | ':' => some (.colon, 0)
  | ',' => some (.comma, 0)
  | '"' => (jsonString 0 t).map fun r => (.value (.text r.1), r.2)
  | c =>
    match jsonWords.find? fun w => w.1.isPrefixOf (c :: t) with
    | some w => some (.value w.2, w.1.length - 1)
    | none => (jsonNumber? (c :: t)).map fun r => (.value r.1, r.2 - 1)

/-- The tokens of a text. The number `skip` tells how many characters still belong to the token
before. -/
def jsonTokens : Nat → Text → Option (List JsonToken)
  | _, [] => some []
  | skip + 1, _ :: t => jsonTokens skip t
  | 0, c :: t =>
    if isJsonSpace c then jsonTokens 0 t
    else
      match jsonToken? c t with
      | some (k, n) => (jsonTokens n t).map (k :: ·)
      | none => none

/-! ### Values -/

/-- A value that was read from tokens, and the tokens behind it. -/
structure ReadJson (α : Type) (ts : List JsonToken) where
  /-- What was read. -/
  value : α
  /-- The tokens behind it. -/
  rest : List JsonToken
  shorter : rest.length < ts.length

/-- What was read, with one more token in front of it. -/
def ReadJson.behind {α : Type} {ts : List JsonToken} (t : JsonToken) (x : ReadJson α ts) :
    ReadJson α (t :: ts) :=
  ⟨x.value, x.rest, Nat.lt_succ_of_lt x.shorter⟩

/-- What was read, with another value. -/
def ReadJson.map {α β : Type} {ts : List JsonToken} (f : α → β) (x : ReadJson α ts) :
    ReadJson β ts :=
  ⟨f x.value, x.rest, x.shorter⟩

mutual

/-- A value. -/
def readJson (ts : List JsonToken) : Option (ReadJson Document ts) :=
  match ts with
  | .value d :: r => some ⟨d, r, Nat.lt_succ_self _⟩
  | .openList :: .closeList :: r => some ⟨.list [], r, by simp only [List.length_cons]; omega⟩
  | .openList :: r => (readJsonItems [] r).map fun x => (x.map Document.list).behind _
  | .openMap :: .closeMap :: r => some ⟨.mapping [], r, by simp only [List.length_cons]; omega⟩
  | .openMap :: r => (readJsonEntries [] r).map fun x => (x.map Document.mapping).behind _
  | _ => none
termination_by (ts.length, 0)

/-- The items of a list, up to its end. -/
def readJsonItems (items : List Document) (ts : List JsonToken) :
    Option (ReadJson (List Document) ts) := do
  let x ← readJson ts
  have := x.shorter
  match h : x.rest with
  | .closeList :: r => return ⟨items ++ [x.value], r, by rw [h, List.length_cons] at this; omega⟩
  | .comma :: r =>
    have hr : r.length < ts.length := by rw [h, List.length_cons] at this; omega
    let y ← readJsonItems (items ++ [x.value]) r
    return ⟨y.value, y.rest, Nat.lt_trans y.shorter hr⟩
  | _ => none
termination_by (ts.length, 1)

/-- The entries of a mapping, up to its end. -/
def readJsonEntries (es : List (Document × Document)) (ts : List JsonToken) :
    Option (ReadJson (List (Document × Document)) ts) :=
  match ts with
  | .value (.text k) :: .colon :: r => do
    let x ← readJson r
    have := x.shorter
    match h : x.rest with
    | .closeMap :: s =>
      return ⟨Document.putEntry (.text k) x.value es, s, by
        rw [h, List.length_cons] at this
        simp only [List.length_cons]
        omega⟩
    | .comma :: s =>
      have hs : s.length < r.length := by rw [h, List.length_cons] at this; omega
      let y ← readJsonEntries (Document.putEntry (.text k) x.value es) s
      return ⟨y.value, y.rest, by
        have := y.shorter
        simp only [List.length_cons]
        omega⟩
    | _ => none
  | _ => none
termination_by (ts.length, 1)

end

/-- The data of a text, if it is JSON. -/
def Document.ofJson? (t : Text) : Option Document := do
  let x ← readJson (← jsonTokens 0 (if t.head? = some '\ufeff' then t.tail else t))
  if x.rest.isEmpty then some x.value else none

end DocDecl

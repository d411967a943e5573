import DocDecl.Document.Basic
import DocDecl.Document.Token
import DocDecl.Text.Word

/-!
# The data of a settings document

The tokens of a document are put together to lists, mappings and scalars. Text without quotes is
null, a truth value or a number where it is written like one. Lists and mappings cannot be keys.

## Main definitions

* `Document.ofPlain` : what text without quotes stands for.
* `Document.ofTokens?` : the data that tokens make up.
* `Document.parse?` : the data of a text.
-/

namespace DocDecl

/-! ### Text without quotes -/

/-- The spellings of null. -/
def nullWords : List Text := ["", "~", "null", "Null", "NULL"]

/-- The spellings of true. -/
def trueWords : List Text := ["yes", "Yes", "YES", "true", "True", "TRUE", "on", "On", "ON"]

/-- The spellings of false. -/
def falseWords : List Text := ["no", "No", "NO", "false", "False", "FALSE", "off", "Off", "OFF"]

/-- The digits of a number in a base, underscores left out, if there are no other characters. -/
def digitsIn? (base : Nat) (t : Text) : Option (List Nat) :=
  (t.filter (· ≠ '_')).mapM fun c => (hexValue? c).filter (· < base)

/-- The number that digits spell in a base. -/
def numberIn? (base : Nat) (t : Text) : Option Nat :=
  (digitsIn? base t).bind fun ds => if ds = [] then none else some (valueOf base ds)

/-- A whole number without a sign, in base two, eight, ten, sixteen or sixty. -/
def wholeNumber? (t : Text) : Option Nat :=
  match t with
  | ['0'] => some 0
  | '0' :: 'b' :: r => numberIn? 2 r
  | '0' :: 'x' :: r => numberIn? 16 r
  | '0' :: r => numberIn? 8 r
  | c :: _ =>
    if c = '_' then none
    else
      match Text.splitOn ':' t with
      | [w] => numberIn? 10 w
      | w :: ws => do
        let first ← numberIn? 10 w
        let rest ← ws.mapM fun p => if p.length ≤ 2 then (numberIn? 10 p).filter (· < 60) else none
        return valueOf 60 (first :: rest)
      | [] => none
  | [] => none

/-- A sign at the beginning, and what follows. -/
def signed (t : Text) : Bool × Text :=
  match t with
  | '-' :: r => (true, r)
  | '+' :: r => (false, r)
  | r => (false, r)

/-- The exponent of a fraction, which has to have a sign. -/
def signedExponent? (t : Text) : Option Int :=
  match t with
  | [] => some 0
  | e :: sign :: ds =>
    if (e = 'e' ∨ e = 'E') ∧ (sign = '+' ∨ sign = '-') ∧ ds ≠ [] ∧ ds.all Char.isDigit then
      some (if sign = '-' then -(decimalOf ds : Int) else decimalOf ds)
    else none
  | _ => none

/-- A decimal fraction with a point, by its digits and the place of the last one. -/
def fraction? (t : Text) : Option (Nat × Int) :=
  let isPart (c : Char) : Bool := c.isDigit || c == '_'
  let whole := t.takeWhile isPart
  match t.dropWhile isPart with
  | '.' :: r =>
    let part := r.takeWhile isPart
    let startsRight := (whole ++ part).head?.map Char.isDigit
    if startsRight = some true ∧ whole.head? ≠ some '_' then do
      let e ← signedExponent? (r.dropWhile isPart)
      let part := part.filter (· ≠ '_')
      return (decimalOf (whole.filter (· ≠ '_') ++ part), e - part.length)
    else none
  | _ => none

/-- What text without quotes stands for. -/
def Document.ofPlain (t : Text) : Document :=
  if t ∈ nullWords then .null
  else if t ∈ trueWords then .bool true
  else if t ∈ falseWords then .bool false
  else
    let (negative, r) := signed t
    match wholeNumber? r with
    | some n => .int (if negative then -(n : Int) else n)
    | none =>
      match fraction? r with
      | some (m, place) => .fraction (fractionText negative m place)
      | none =>
        if r ∈ ([".inf", ".Inf", ".INF"] : List Text) then
          .fraction (Text.onlyIf negative "-" ++ "inf")
        else if t ∈ ([".nan", ".NaN", ".NAN"] : List Text) then .fraction "nan"
        else .text t

/-! ### Lists and mappings -/

/-- A value that was read from tokens, and the tokens behind it. -/
structure ReadNode (α : Type) (ts : List DocToken) where
  /-- What was read. -/
  value : α
  /-- The tokens behind it. -/
  rest : List DocToken
  shorter : rest.length < ts.length

/-- Whether a document can be a key. -/
def Document.isKey : Document → Bool
  | list _ => false
  | mapping _ => false
  | _ => true

/-- Whether an item is empty, by the tokens behind its mark. -/
def isEmptyItem (ends : List DocToken) (ts : List DocToken) : Bool :=
  match ts with
  | [] => true
  | t :: _ => ends.contains t

mutual

/-- A value. -/
def readNode (ts : List DocToken) : Option (ReadNode Document ts) :=
  match ts with
  | .scalar isPlain t :: r =>
    some ⟨if isPlain then Document.ofPlain t else .text t, r, Nat.lt_succ_self _⟩
  | .openList :: r => do
    let x ← readOpenList true [] r
    return ⟨.list x.value, x.rest, Nat.lt_succ_of_lt x.shorter⟩
  | .openMap :: r => do
    let x ← readOpenMap true [] r
    return ⟨.mapping x.value, x.rest, Nat.lt_succ_of_lt x.shorter⟩
  | .listStart :: r => do
    let x ← readList [] r
    return ⟨.list x.value, x.rest, Nat.lt_succ_of_lt x.shorter⟩
  | .mapStart :: r => do
    let x ← readMap [] r
    return ⟨.mapping x.value, x.rest, Nat.lt_succ_of_lt x.shorter⟩
  | _ => none
termination_by (ts.length, 0)

/-- A value, or a list that is not indented further. -/
def readItem (ts : List DocToken) : Option (ReadNode Document ts) :=
  match ts with
  | .entry :: r => do
    let x ← readFlatList [] r
    return ⟨.list x.1.1, x.1.2, Nat.lt_succ_of_le x.2⟩
  | ts => readNode ts
termination_by (ts.length, 2)

/-- The items of a list that is not indented further, from behind the dash of one on. -/
def readFlatList (items : List Document) (ts : List DocToken) :
    Option { x : List Document × List DocToken // x.2.length ≤ ts.length } :=
  if isEmptyItem [.entry, .key, .value, .blockEnd] ts then
    match ts with
    | .entry :: r => do
      let x ← readFlatList (items ++ [.null]) r
      return ⟨x.1, Nat.le_succ_of_le x.2⟩
    | ts => some ⟨(items ++ [.null], ts), Nat.le_refl _⟩
  else do
    let d ← readNode ts
    match h : d.rest with
    | .entry :: r =>
      have h' : r.length < ts.length := by
        have := d.shorter
        rw [h, List.length_cons] at this
        omega
      let x ← readFlatList (items ++ [d.value]) r
      return ⟨x.1, Nat.le_of_lt (Nat.lt_of_le_of_lt x.2 h')⟩
    | r => return ⟨(items ++ [d.value], r), h ▸ Nat.le_of_lt d.shorter⟩
termination_by (ts.length, 1)

/-- The items of a list up to its end. -/
def readList (items : List Document) (ts : List DocToken) :
    Option (ReadNode (List Document) ts) :=
  match ts with
  | .blockEnd :: r => some ⟨items, r, Nat.lt_succ_self _⟩
  | .entry :: r =>
    if isEmptyItem [.entry, .blockEnd] r then do
      let x ← readList (items ++ [.null]) r
      return ⟨x.value, x.rest, Nat.lt_succ_of_lt x.shorter⟩
    else do
      let d ← readNode r
      have := d.shorter
      let x ← readList (items ++ [d.value]) d.rest
      return ⟨x.value, x.rest, Nat.lt_succ_of_lt (Nat.lt_trans x.shorter d.shorter)⟩
  | _ => none
termination_by (ts.length, 1)

/-- The entries of a mapping up to its end. -/
def readMap (es : List (Document × Document)) (ts : List DocToken) :
    Option (ReadNode (List (Document × Document)) ts) :=
  match ts with
  | .blockEnd :: r => some ⟨es, r, Nat.lt_succ_self _⟩
  | .key :: r => do
    let k ← readPart [.key, .value, .blockEnd] r
    let v ← readValuePart [.key, .value, .blockEnd] k.1.2
    if k.1.1.isKey then
      have h : v.1.2.length < (DocToken.key :: r).length :=
        Nat.lt_succ_of_le (Nat.le_trans v.2 k.2)
      let x ← readMap (Document.putEntry k.1.1 v.1.1 es) v.1.2
      return ⟨x.value, x.rest, Nat.lt_trans x.shorter h⟩
    else none
  | _ => none
termination_by (ts.length, 1)

/-- A key or value, which may be empty. Outside brackets it may be a list that is not indented
further. -/
def readPart (ends : List DocToken) (ts : List DocToken) :
    Option { x : Document × List DocToken // x.2.length ≤ ts.length } :=
  if isEmptyItem ends ts then some ⟨(.null, ts), Nat.le_refl _⟩
  else do
    let d ← if ends.contains .blockEnd then readItem ts else readNode ts
    return ⟨(d.value, d.rest), Nat.le_of_lt d.shorter⟩
termination_by (ts.length, 3)

/-- The value behind a key, which may be missing. -/
def readValuePart (ends : List DocToken) (ts : List DocToken) :
    Option { x : Document × List DocToken // x.2.length ≤ ts.length } :=
  match ts with
  | .value :: r => do
    let x ← readPart ends r
    return ⟨x.1, Nat.le_succ_of_le x.2⟩
  | ts => some ⟨(.null, ts), Nat.le_refl _⟩
termination_by (ts.length, 4)

/-- The items of a list in brackets. A single pair is a mapping of its own. -/
def readOpenList (isFirst : Bool) (items : List Document) (ts : List DocToken) :
    Option (ReadNode (List Document) ts) :=
  match ts with
  | .closeList :: r => some ⟨items, r, Nat.lt_succ_self _⟩
  | t :: r =>
    if isFirst then readOpenItem items (t :: r)
    else if t = .comma then
      match r with
      | .closeList :: r' => some ⟨items, r', by simp only [List.length_cons]; omega⟩
      | r => do
        let x ← readOpenItem items r
        return ⟨x.value, x.rest, Nat.lt_succ_of_lt x.shorter⟩
    else none
  | [] => none
termination_by (ts.length, 6)

/-- An item of a list in brackets, and the items behind it. -/
def readOpenItem (items : List Document) (ts : List DocToken) :
    Option (ReadNode (List Document) ts) :=
  match ts with
  | .key :: r => do
    let k ← readPart [.value, .comma, .closeList] r
    let v ← readValuePart [.comma, .closeList] k.1.2
    if k.1.1.isKey then
      have h : v.1.2.length < (DocToken.key :: r).length :=
        Nat.lt_succ_of_le (Nat.le_trans v.2 k.2)
      let x ← readOpenList false (items ++ [.mapping [(k.1.1, v.1.1)]]) v.1.2
      return ⟨x.value, x.rest, Nat.lt_trans x.shorter h⟩
    else none
  | ts => do
    let d ← readNode ts
    have := d.shorter
    let x ← readOpenList false (items ++ [d.value]) d.rest
    return ⟨x.value, x.rest, Nat.lt_trans x.shorter d.shorter⟩
termination_by (ts.length, 5)

/-- The entries of a mapping in braces. A key may stand alone. -/
def readOpenMap (isFirst : Bool) (es : List (Document × Document)) (ts : List DocToken) :
    Option (ReadNode (List (Document × Document)) ts) :=
  match ts with
  | .closeMap :: r => some ⟨es, r, Nat.lt_succ_self _⟩
  | t :: r =>
    if isFirst then readOpenEntry es (t :: r)
    else if t = .comma then
      match r with
      | .closeMap :: r' => some ⟨es, r', by simp only [List.length_cons]; omega⟩
      | r => do
        let x ← readOpenEntry es r
        return ⟨x.value, x.rest, Nat.lt_succ_of_lt x.shorter⟩
    else none
  | [] => none
termination_by (ts.length, 6)

/-- An entry of a mapping in braces, and the entries behind it. -/
def readOpenEntry (es : List (Document × Document)) (ts : List DocToken) :
    Option (ReadNode (List (Document × Document)) ts) :=
  match ts with
  | .key :: r => do
    let k ← readPart [.value, .comma, .closeMap] r
    let v ← readValuePart [.comma, .closeMap] k.1.2
    if k.1.1.isKey then
      have h : v.1.2.length < (DocToken.key :: r).length :=
        Nat.lt_succ_of_le (Nat.le_trans v.2 k.2)
      let x ← readOpenMap false (Document.putEntry k.1.1 v.1.1 es) v.1.2
      return ⟨x.value, x.rest, Nat.lt_trans x.shorter h⟩
    else none
  | ts => do
    let d ← readNode ts
    have := d.shorter
    if d.value.isKey then
      let x ← readOpenMap false (Document.putEntry d.value .null es) d.rest
      return ⟨x.value, x.rest, Nat.lt_trans x.shorter d.shorter⟩
    else none
termination_by (ts.length, 5)

end

/-- The data that the tokens of one document make up. An empty document is null. -/
def Document.ofTokens? (ts : List DocToken) : Option Document :=
  let ts :=
    match ts with
    | .documentStart :: r => r
    | r => r
  match ts with
  | [] => some .null
  | ts => do
    let d ← readNode ts
    have := d.shorter
    match d.rest with
    | [] => return d.value
    | [.documentEnd] => return d.value
    | _ => none

/-- The data of a text, if it is a document. -/
def Document.parse? (t : Text) : Option Document := (DocToken.scan t).bind Document.ofTokens?

end DocDecl

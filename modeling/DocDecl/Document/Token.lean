import DocDecl.Pattern.Escape
import DocDecl.Text.Basic

/-!
# Tokens of a settings document

The structure of a document is given by its indentation and by brackets. A key is known as such only
by the colon behind it, so its place among the tokens is remembered, and the token of the key is
inserted there once the colon is met.

Anchors, tags, directives and block text are not read.

## Main definitions

* `DocToken` : the tokens.
* `plainFrom`, `quotedFrom` : text without and with quotes.
* `ScanState` : how far a document has been read.
* `DocToken.scan` : the tokens of a document.

## Main results

* `mem_insertAt` : inserting keeps the tokens that are there.
-/

namespace DocDecl

/-- The tokens of a settings document. -/
inductive DocToken where
  | scalar (isPlain : Bool) (t : Text)
  | listStart
  | mapStart
  | blockEnd
  | entry
  | key
  | value
  | openList
  | closeList
  | openMap
  | closeMap
  | comma
  | documentStart
  | documentEnd
  deriving DecidableEq, Repr

/-! ### Characters -/

/-- The class of line breaks. -/
def isLineBreak (c : Char) : Bool :=
  c == '\n' || c == '\r' || c == '\x85' || c == '\u2028' || c == '\u2029'

/-- Whether a token that stands before a text ends there. -/
def endsToken : Text → Bool
  | [] => true
  | c :: _ => c == ' ' || c == '\t' || isLineBreak c

/-- The class of characters that a document may hold. -/
def isDocumentChar (c : Char) : Bool :=
  let n := c.toNat
  n == 9 || n == 10 || n == 13 || (0x20 ≤ n && n ≤ 0x7e) || n == 0x85 ||
    (0xa0 ≤ n && n ≤ 0xd7ff) || (0xe000 ≤ n && n ≤ 0xfffd) || 0x10000 ≤ n

/-- A line break as it is kept in text. -/
def keptBreak (c : Char) : Char := if c == '\u2028' || c == '\u2029' then c else '\n'

/-- Whether a text begins with the mark of a new document. -/
def atDocumentMark (t : Text) : Bool :=
  (("---" : Text).isPrefixOf t || ("..." : Text).isPrefixOf t) && endsToken (t.drop 3)

/-! ### Folding lines -/

/-- The breaks of the empty lines that a text begins with, and the text behind them and the blanks
of the next line. Fails at the mark of a new document. -/
def emptyLines (isMargin : Char → Bool) (atLineStart : Bool) : Text → Option (Text × Text)
  | [] => some ([], [])
  | c :: t =>
    if atLineStart && atDocumentMark (c :: t) then none
    else if isMargin c then emptyLines isMargin false t
    else if isLineBreak c then
      (emptyLines isMargin true t).map fun r => (keptBreak c :: r.1, r.2)
    else some ([], c :: t)

/-- What a run of blanks and line breaks stands for, and the text behind it. A single break is a
space, and of several the first is dropped. -/
def foldSpace (isMargin : Char → Bool) (t : Text) : Option (Text × Text) :=
  match t.dropWhile isMargin with
  | c :: r =>
    if isLineBreak c then
      (emptyLines isMargin true r).map fun (breaks, rest) =>
        let first :=
          if keptBreak c ≠ '\n' then [keptBreak c] else if breaks = [] then [' '] else []
        (first ++ breaks, rest)
    else some (t.takeWhile isMargin, c :: r)
  | [] => some (t, [])

/-- The column at the end of a text. -/
def endColumn (t : Text) : Nat := (t.reverse.takeWhile fun c => !isLineBreak c).length

/-! ### Text without quotes -/

/-- The characters that mean something inside brackets wherever they stand. -/
def bracketMarks : List Char := [',', '[', ']', '{', '}']

/-- Whether text without quotes ends before a character. -/
def endsPlain (inBrackets : Bool) (c : Char) (t : Text) : Bool :=
  endsToken [c] ||
    (c == ':' && (endsToken t || (inBrackets && t.head?.any bracketMarks.contains))) ||
    (inBrackets && (c == '?' || bracketMarks.contains c))

/-- Text without quotes from here on, and how many characters it takes. Further lines belong to it
when they are indented by `indent` or stand in brackets. The number `skip` tells how many characters
still belong to the blanks before. -/
def plainFrom (inBrackets : Bool) (indent : Int) : Nat → Text → Text × Nat
  | _, [] => ([], 0)
  | skip + 1, _ :: t =>
    let r := plainFrom inBrackets indent skip t
    (r.1, r.2 + 1)
  | 0, c :: t =>
    if c = ' ' ∨ isLineBreak c then
      match foldSpace (· = ' ') (c :: t) with
      | none => ([], 0)
      | some (v, rest) =>
        let space := (c :: t).take (t.length + 1 - rest.length)
        let goesOn :=
          match rest with
          | [] => false
          | d :: rest' =>
            !(d == '#') && !endsPlain inBrackets d rest' &&
              (inBrackets || !space.any isLineBreak || indent ≤ endColumn space)
        if goesOn then
          let r := plainFrom inBrackets indent (space.length - 1) t
          (v ++ r.1, r.2 + 1)
        else ([], 0)
    else if endsPlain inBrackets c t then ([], 0)
    else
      let r := plainFrom inBrackets indent 0 t
      (c :: r.1, r.2 + 1)

/-! ### Text in quotes -/

/-- The character that a letter stands for behind a backslash. -/
def documentEscape? : Char → Option Char
  | '0' => some '\x00'
  | 'a' => some '\x07'
  | 'b' => some '\x08'
  | 't' => some '\t'
  | '\t' => some '\t'
  | 'n' => some '\n'
  | 'v' => some '\x0b'
  | 'f' => some '\x0c'
  | 'r' => some '\r'
  | 'e' => some '\x1b'
  | ' ' => some ' '
  | '"' => some '"'
  | '\\' => some '\\'
  | '/' => some '/'
  | 'N' => some '\x85'
  | '_' => some '\xa0'
  | 'L' => some '\u2028'
  | 'P' => some '\u2029'
  | _ => none

/-- The character whose code is spelled by `width` hexadecimal digits. -/
def hexChar? (width : Nat) (t : Text) : Option Char := do
  let n ← hexCode? width t
  if n.isValidChar then some (Char.ofNat n) else none

/-- A piece of text in quotes: what it stands for and how many characters it takes beyond the first,
or the end. -/
inductive QuotedPiece where
  | stop
  | piece (t : Text) (more : Nat)

/-- The piece behind a backslash. A line break there is dropped with the blanks of the next line. -/
def escapedPiece (t : Text) : Option QuotedPiece :=
  match t with
  | [] => none
  | d :: t =>
    match documentEscape? d with
    | some c => some (.piece [c] 1)
    | none =>
      let width := if d = 'x' then some 2 else if d = 'u' then some 4
        else if d = 'U' then some 8 else none
      match width with
      | some w => (hexChar? w t).map fun c => .piece [c] (w + 1)
      | none =>
        if isLineBreak d then
          (emptyLines (fun c => c == ' ' || c == '\t') true t).map fun (breaks, rest) =>
            .piece breaks (t.length - rest.length + 1)
        else none

/-- The piece of text in quotes that begins with a character. -/
def quotedPiece (quote c : Char) (t : Text) : Option QuotedPiece :=
  if c = quote then
    if quote = '\'' ∧ t.head? = some '\'' then some (.piece ['\''] 1) else some .stop
  else if quote = '"' ∧ c = '\\' then escapedPiece t
  else if c = ' ' ∨ c = '\t' ∨ isLineBreak c then
    (foldSpace (fun c => c == ' ' || c == '\t') (c :: t)).map fun (v, rest) =>
      .piece v (t.length - rest.length)
  else some (.piece [c] 0)

/-- Text up to its closing quote, and how many characters it takes with the quote. The number `skip`
tells how many characters still belong to the piece before. -/
def quotedFrom (quote : Char) : Nat → Text → Option (Text × Nat)
  | _, [] => none
  | skip + 1, _ :: t => (quotedFrom quote skip t).map fun r => (r.1, r.2 + 1)
  | 0, c :: t =>
    match quotedPiece quote c t with
    | none => none
    | some .stop => some ([], 1)
    | some (.piece v more) => (quotedFrom quote more t).map fun r => (v ++ r.1, r.2 + 1)

/-! ### Scanning -/

/-- A place where a key may turn out to begin. -/
structure KeyPlace where
  /-- How many tokens are in front of it. -/
  place : Nat
  /-- Whether the text there has to be a key. -/
  required : Bool
  /-- Its line. -/
  line : Nat
  /-- Its column. -/
  column : Nat
  /-- Its offset. -/
  offset : Nat

/-- How far a document has been read. -/
structure ScanState where
  /-- The tokens so far. -/
  tokens : List DocToken := []
  /-- The column of the innermost block, or -1. -/
  indent : Int := -1
  /-- The columns of the blocks around it. -/
  outer : List Int := []
  /-- How many brackets are open. -/
  depth : Nat := 0
  /-- Whether a key may begin here. -/
  keyAllowed : Bool := true
  /-- For each number of open brackets, where a key may turn out to begin. -/
  keys : List (Nat × KeyPlace) := []
  /-- The line. -/
  line : Nat := 0
  /-- The column. -/
  column : Nat := 0
  /-- The offset. -/
  offset : Nat := 0

/-- Tokens inserted at a place. -/
def insertAt (place : Nat) (ts us : List DocToken) : List DocToken :=
  us.take place ++ ts ++ us.drop place

theorem mem_insertAt {place : Nat} {ts us : List DocToken} {t : DocToken} :
    t ∈ insertAt place ts us ↔ t ∈ ts ∨ t ∈ us := by
  have h : t ∈ us ↔ t ∈ us.take place ∨ t ∈ us.drop place := by
    rw [← List.mem_append, List.take_append_drop]
  rw [h]
  simp only [insertAt, List.mem_append]
  constructor
  · rintro ((h | h) | h)
    · exact .inr (.inl h)
    · exact .inl h
    · exact .inr (.inr h)
  · rintro (h | h | h)
    · exact .inl (.inr h)
    · exact .inl (.inl h)
    · exact .inr h

namespace ScanState

/-- One more token. -/
def push (s : ScanState) (t : DocToken) : ScanState := { s with tokens := s.tokens ++ [t] }

/-- The state behind some characters. -/
def past (s : ScanState) (t : Text) : ScanState :=
  let breaks := t.countP isLineBreak
  { s with
    line := s.line + breaks
    column := if breaks = 0 then s.column + t.length else endColumn t
    offset := s.offset + t.length }

/-- The place where a key may begin at the present depth. -/
def key? (s : ScanState) : Option KeyPlace := s.keys.lookup s.depth

/-- Forgets where a key may begin at the present depth. Fails if there has to be one. -/
def dropKey (s : ScanState) : Option ScanState :=
  if (s.key?.map KeyPlace.required).getD false then none
  else some { s with keys := s.keys.filter fun k => k.1 ≠ s.depth }

/-- Remembers that a key may begin here. -/
def saveKey (s : ScanState) : Option ScanState :=
  if s.keyAllowed then do
    let s ← s.dropKey
    let required := s.depth = 0 && s.indent = s.column
    let k : KeyPlace := ⟨s.tokens.length, required, s.line, s.column, s.offset⟩
    return { s with keys := (s.depth, k) :: s.keys }
  else return s

/-- Whether a key place is too far back: on another line, or more than 1024 characters away. -/
def isStale (s : ScanState) (k : KeyPlace) : Bool := k.line ≠ s.line || 1024 < s.offset - k.offset

/-- Forgets the key places that are too far back. Fails if there has to be a key. -/
def dropStaleKeys (s : ScanState) : Option ScanState :=
  if s.keys.any fun k => s.isStale k.2 && k.2.required then none
  else some { s with keys := s.keys.filter fun k => !s.isStale k.2 }

/-- Ends the blocks that are indented more than a column, given those that are open. -/
def closeBlocks (column : Int) : Int → List Int → Int × List Int × Nat
  | indent, [] => (indent, [], 0)
  | indent, i :: is =>
    if column < indent then
      let r := closeBlocks column i is
      (r.1, r.2.1, r.2.2 + 1)
    else (indent, i :: is, 0)

/-- Ends the blocks that are indented more than a column. Inside brackets indentation is free. -/
def unwind (s : ScanState) (column : Int) : ScanState :=
  if s.depth ≠ 0 then s
  else
    let (indent, outer, n) := closeBlocks column s.indent s.outer
    { s with indent := indent, outer := outer, tokens := s.tokens ++ List.replicate n .blockEnd }

/-- Begins a block at a column, if that is further in, with a token at a place. -/
def beginBlock (s : ScanState) (column place : Nat) (t : DocToken) : ScanState :=
  if s.indent < column then
    { s with
      indent := column
      outer := s.indent :: s.outer
      tokens := insertAt place [t] s.tokens }
  else s

/-- Opens a bracket. -/
def openBracket (s : ScanState) (t : DocToken) : Option ScanState := do
  let s ← s.saveKey
  return { s with depth := s.depth + 1, keyAllowed := true }.push t

/-- Closes a bracket. -/
def closeBracket (s : ScanState) (t : DocToken) : Option ScanState := do
  let s ← s.dropKey
  return { s with depth := s.depth - 1, keyAllowed := false }.push t

/-- The dash of a list item. -/
def takeEntry (s : ScanState) : Option ScanState :=
  if s.depth = 0 then
    if s.keyAllowed then do
      let s := s.beginBlock s.column s.tokens.length .listStart
      return { (← s.dropKey) with keyAllowed := true }.push .entry
    else none
  else do return { (← s.dropKey) with keyAllowed := true }.push .entry

/-- The mark of a key. -/
def takeKey (s : ScanState) : Option ScanState :=
  if s.depth = 0 && !s.keyAllowed then none
  else do
    let s := if s.depth = 0 then s.beginBlock s.column s.tokens.length .mapStart else s
    return { (← s.dropKey) with keyAllowed := s.depth = 0 }.push .key

/-- The colon of a value. -/
def takeValue (s : ScanState) : Option ScanState :=
  match s.key? with
  | some k =>
    let s :=
      { s with
        keys := s.keys.filter fun k => k.1 ≠ s.depth
        tokens := insertAt k.place [.key] s.tokens
        keyAllowed := false }
    some ((if s.depth = 0 then s.beginBlock k.column k.place .mapStart else s).push .value)
  | none =>
    if s.depth = 0 && !s.keyAllowed then none
    else do
      let s := if s.depth = 0 then s.beginBlock s.column s.tokens.length .mapStart else s
      return { (← s.dropKey) with keyAllowed := s.depth = 0 }.push .value

/-- A mark between documents. -/
def takeMark (s : ScanState) (t : DocToken) : Option ScanState := do
  return { (← (s.unwind (-1)).dropKey) with keyAllowed := false }.push t

/-- Text, with or without quotes. -/
def takeScalar (s : ScanState) (isPlain : Bool) (t : Text) : Option ScanState := do
  return { (← s.saveKey) with keyAllowed := false }.push (.scalar isPlain t)

/-- Whether a character can begin text without quotes. -/
def beginsPlain (inBrackets : Bool) (c : Char) (t : Text) : Bool :=
  !(endsToken [c] || c ∈ "-?:,[]\x7b\x7d#&*!|>'\"%@\x60".toList) ||
    (!endsToken t && (c == '-' || (!inBrackets && (c == '?' || c == ':'))))

/-- Takes the token that begins with a character, and tells how many more characters it takes. -/
def takeToken (s : ScanState) (c : Char) (t : Text) : Option (ScanState × Nat) :=
  let inBrackets := s.depth ≠ 0
  if s.column = 0 ∧ atDocumentMark (c :: t) then
    (s.takeMark (if c = '-' then .documentStart else .documentEnd)).map (·, 2)
  else if c = '[' then (s.openBracket .openList).map (·, 0)
  else if c = '{' then (s.openBracket .openMap).map (·, 0)
  else if c = ']' then (s.closeBracket .closeList).map (·, 0)
  else if c = '}' then (s.closeBracket .closeMap).map (·, 0)
  else if c = ',' then
    s.dropKey.map fun s => ({ s with keyAllowed := true }.push .comma, 0)
  else if c = '-' ∧ endsToken t then s.takeEntry.map (·, 0)
  else if c = '?' ∧ (inBrackets ∨ endsToken t) then s.takeKey.map (·, 0)
  else if c = ':' ∧ (inBrackets ∨ endsToken t) then s.takeValue.map (·, 0)
  else if c = '\'' ∨ c = '"' then do
    let (v, n) ← quotedFrom c 0 t
    return (← s.takeScalar false v, n)
  else if beginsPlain inBrackets c t then do
    let (v, n) := plainFrom inBrackets (s.indent + 1) 0 t
    return (← s.takeScalar true (c :: v), n)
  else none

/-- The tokens at the end of the document. -/
def finish (s : ScanState) : Option (List DocToken) := do
  let s ← s.dropStaleKeys
  let s ← (s.unwind (-1)).dropKey
  return s.tokens

/-- The tokens of the rest of a document. -/
def scanFrom (s : ScanState) : Text → Option (List DocToken)
  | [] => s.finish
  | c :: t =>
    if c = ' ' then scanFrom (s.past [c]) t
    else if isLineBreak c then
      scanFrom { s.past [c] with keyAllowed := s.keyAllowed || s.depth = 0 } t
    else if c = '#' then
      let n := (t.takeWhile fun d => !isLineBreak d).length
      scanFrom (s.past (c :: t.take n)) (t.drop n)
    else
      match s.dropStaleKeys.bind fun s => (s.unwind s.column).takeToken c t with
      | some (s, n) => scanFrom (s.past (c :: t.take n)) (t.drop n)
      | none => none
termination_by t => t.length
decreasing_by all_goals simp only [List.length_cons, List.length_drop]; omega

end ScanState

/-- The tokens of a document. -/
def DocToken.scan (t : Text) : Option (List DocToken) :=
  if t.all isDocumentChar then
    ScanState.scanFrom {} (if t.head? = some '\ufeff' then t.tail else t)
  else none

end DocDecl

import DocDecl.Delimiter.Basic
import DocDecl.Literal.Basic

/-!
# Reading literals

A literal is read by descent. Blanks and comments may stand before and after every token; a comma
may follow the last member or item; a back-quoted string may not hold a substitution. Objects and
arrays nest at most a hundred deep. When reading fails, the cause and the place are told.

## Main definitions

* `LiteralCause`, `LiteralFailure` : why and where reading fails.
* `Parsed` : a value that was read from a text, and the text behind it.
* `skipTrivia`, `readString`, `numberAt?`, `identifierAt?` : the tokens.
* `readValue` : a value at the beginning of a text.
* `parseLiteral` : a text that is one literal.

## Main results

* `LiteralFailure.offset_le` : the place of a failure lies in the text.
-/

namespace DocDecl

/-! ### Failures -/

/-- Why a text is not read as a literal. -/
inductive LiteralCause where
  | trailingContent
  | unsupportedValue
  | unsupportedKey
  | nestingTooDeep
  | expectedColon
  | expectedSeparator (closer : Char)
  | unterminatedString
  | templateSubstitution
  | unterminatedComment
  deriving DecidableEq, Repr

/-- The wording of a cause. -/
def LiteralCause.reason : LiteralCause → Text
  | trailingContent => "trailing content"
  | unsupportedValue => "unsupported value"
  | unsupportedKey => "unsupported key"
  | nestingTooDeep => "nesting too deep"
  | expectedColon => "expected ':'"
  | expectedSeparator closer => "expected ',' or '" ++ [closer] ++ "'"
  | unterminatedString => "unterminated string"
  | templateSubstitution => "template substitution"
  | unterminatedComment => "unterminated comment"

/-- Why reading fails, and the text from the place of the failure on. -/
structure LiteralFailure where
  /-- Why reading fails. -/
  cause : LiteralCause
  /-- The text from the place of the failure on. -/
  rest : Text
  deriving DecidableEq, Repr

/-- The place of a failure in a text. -/
def LiteralFailure.offset (t : Text) (e : LiteralFailure) : Nat := t.length - e.rest.length

theorem LiteralFailure.offset_le (t : Text) (e : LiteralFailure) : e.offset t ≤ t.length :=
  Nat.sub_le ..

/-- What to tell about a failure in a text. -/
def LiteralFailure.message (t : Text) (e : LiteralFailure) : Text :=
  e.cause.reason ++ " at offset " ++ Text.ofNat (e.offset t)

/-- A value that was read from a text, and the shorter text behind it. -/
structure Parsed (α : Type) (t : Text) where
  /-- What was read. -/
  value : α
  /-- The text behind it. -/
  rest : Text
  shorter : rest.length < t.length

/-- What comes of reading a text. -/
abbrev Reading (α : Type) (t : Text) := Except LiteralFailure (Parsed α t)

/-! ### Tokens -/

/-- The text behind the end mark of a block comment, if there is one. -/
def afterBlockComment? : Text → Option Text
  | [] => none
  | '*' :: '/' :: t => some t
  | _ :: t => afterBlockComment? t

theorem spanBlockComment_of_afterBlockComment? {t r : Text} (h : afterBlockComment? t = some r) :
    (spanBlockComment t).2 = r := by
  fun_induction afterBlockComment? t <;> simp_all [spanBlockComment]

theorem length_afterBlockComment?_le {t r : Text} (h : afterBlockComment? t = some r) :
    r.length ≤ t.length :=
  spanBlockComment_of_afterBlockComment? h ▸ length_spanBlockComment_le t

/-- The text behind blanks and comments. -/
def skipTrivia (t : Text) : Except LiteralFailure { r : Text // r.length ≤ t.length } :=
  match t with
  | [] => .ok ⟨[], Nat.le_refl _⟩
  | c :: t =>
    if isBlank c then
      (skipTrivia t).map fun r => ⟨r.1, Nat.le_succ_of_le r.2⟩
    else if c = '/' ∧ t.head? = some '/' then
      have h : (spanLineComment t.tail).2.length ≤ t.length :=
        Nat.le_trans (length_spanLineComment_le _) (by simp)
      (skipTrivia (spanLineComment t.tail).2).map fun r =>
        ⟨r.1, Nat.le_succ_of_le (Nat.le_trans r.2 h)⟩
    else if c = '/' ∧ t.head? = some '*' then
      match hr : afterBlockComment? t.tail with
      | some s =>
        have h : s.length ≤ t.length := Nat.le_trans (length_afterBlockComment?_le hr) (by simp)
        (skipTrivia s).map fun r => ⟨r.1, Nat.le_succ_of_le (Nat.le_trans r.2 h)⟩
      | none => .error ⟨.unterminatedComment, c :: t⟩
    else .ok ⟨c :: t, Nat.le_refl _⟩
termination_by t.length
decreasing_by all_goals simp only [List.length_cons]; omega

/-- The content of a string up to its closing quote, and the text behind the quote. A backslash is
dropped and the next character kept. -/
def quotedContent (quote : Char) : Text → Except LiteralCause (Text × Text)
  | [] => .error .unterminatedString
  | '\\' :: c :: t => (quotedContent quote t).map fun p => (c :: p.1, p.2)
  | c :: t =>
    if quote = '\x60' ∧ c = '$' ∧ t.head? = some '{' then .error .templateSubstitution
    else if c = quote then .ok ([], t)
    else (quotedContent quote t).map fun p => (c :: p.1, p.2)

theorem length_quotedContent_lt {quote : Char} {t : Text} {p : Text × Text}
    (h : quotedContent quote t = .ok p) : p.2.length < t.length := by
  fun_induction quotedContent quote t generalizing p with
  | case1 => simp at h
  | case2 c t ih =>
    cases hq : quotedContent quote t with
    | error e => simp [hq, Except.map] at h
    | ok q =>
      have := ih hq
      simp only [hq, Except.map, Except.ok.injEq] at h
      subst h
      simp only [List.length_cons]
      omega
  | case3 => simp at h
  | case4 c t =>
    simp only [Except.ok.injEq] at h
    subst h
    simp
  | case5 c t _ _ _ ih =>
    cases hq : quotedContent quote t with
    | error e => simp [hq, Except.map] at h
    | ok q =>
      have := ih hq
      simp only [hq, Except.map, Except.ok.injEq] at h
      subst h
      simp only [List.length_cons]
      omega

/-- A string, given the text from its opening quote on. -/
def readString (quote : Char) (t : Text) : Reading Text (quote :: t) :=
  match h : quotedContent quote t with
  | .ok p => .ok ⟨p.1, p.2, Nat.lt_succ_of_lt (length_quotedContent_lt h)⟩
  | .error cause => .error ⟨cause, quote :: t⟩

/-- Divides a text behind the characters of a class that it begins with, if there are any. -/
def spanSome? (p : Char → Bool) (t : Text) : Option (Text × Text) :=
  if t.takeWhile p = [] then none else some (t.takeWhile p, t.dropWhile p)

/-- A number with a base: a zero, a letter and digits. -/
def basedNumber? (t : Text) : Option (Text × Text) :=
  match t with
  | '0' :: c :: t =>
    let digits : Option (Char → Bool) :=
      if c = 'x' ∨ c = 'X' then
        some fun d => d.isDigit || ('a' ≤ d && d ≤ 'f') || ('A' ≤ d && d ≤ 'F')
      else if c = 'b' ∨ c = 'B' then some fun d => d == '0' || d == '1'
      else if c = 'o' ∨ c = 'O' then some fun d => '0' ≤ d && d ≤ '7'
      else none
    digits.bind fun p => (spanSome? p t).map fun s => ('0' :: c :: s.1, s.2)
  | _ => none

/-- The digits of a decimal number, with a point before, in or behind them. -/
def decimalDigits? (t : Text) : Option (Text × Text) :=
  match spanSome? isDecimal t with
  | some (ds, '.' :: r) => some (ds ++ '.' :: r.takeWhile isDecimal, r.dropWhile isDecimal)
  | some s => some s
  | none =>
    match t with
    | '.' :: r => (spanSome? isDecimal r).map fun s => ('.' :: s.1, s.2)
    | _ => none

/-- A sign at the beginning of a text, and what follows. -/
def spanSign : Text → Text × Text
  | [] => ([], [])
  | c :: t => if c = '-' ∨ c = '+' then ([c], t) else ([], c :: t)

/-- The exponent of a decimal number: a letter, perhaps a sign, and digits. -/
def exponent? : Text → Option (Text × Text)
  | [] => none
  | c :: t =>
    if c = 'e' ∨ c = 'E' then
      (spanSome? isDecimal (spanSign t).2).map fun s => (c :: (spanSign t).1 ++ s.1, s.2)
    else none

/-- A decimal number. -/
def decimalNumber? (t : Text) : Option (Text × Text) :=
  (decimalDigits? t).map fun (ds, r) =>
    match exponent? r with
    | some (e, r') => (ds ++ e, r')
    | none => (ds, r)

/-- The number that a text begins with, as long as possible, and what follows. -/
def numberAt? (t : Text) : Option (Text × Text) :=
  ((basedNumber? (spanSign t).2).or (decimalNumber? (spanSign t).2)).map fun s =>
    ((spanSign t).1 ++ s.1, s.2)

/-- The identifier that a text begins with, as long as possible, and what follows. -/
def identifierAt? : Text → Option (Text × Text)
  | [] => none
  | c :: t =>
    if isIdentifierStart c then some (c :: t.takeWhile isNameChar, t.dropWhile isNameChar) else none

theorem length_spanSome?_lt {p : Char → Bool} {t : Text} {s : Text × Text}
    (h : spanSome? p t = some s) : s.2.length < t.length := by
  simp only [spanSome?] at h
  split at h
  · simp at h
  · next hne =>
    simp only [Option.some.injEq] at h
    subst h
    have h1 := congrArg List.length (List.takeWhile_append_dropWhile (p := p) (l := t))
    have h2 := List.length_pos_iff.2 hne
    simp only [List.length_append] at h1 ⊢
    omega

theorem length_basedNumber?_lt {t : Text} {s : Text × Text} (h : basedNumber? t = some s) :
    s.2.length < t.length := by
  unfold basedNumber? at h
  split at h
  · next c t =>
    simp only [Option.bind_eq_some_iff, Option.map_eq_some_iff] at h
    obtain ⟨p, _, q, hq, rfl⟩ := h
    have := length_spanSome?_lt hq
    simp only [List.length_cons]
    omega
  · simp at h

theorem length_decimalDigits?_lt {t : Text} {s : Text × Text} (h : decimalDigits? t = some s) :
    s.2.length < t.length := by
  unfold decimalDigits? at h
  split at h
  · next ds r hs =>
    simp only [Option.some.injEq] at h
    subst h
    have h1 := length_spanSome?_lt hs
    have h2 := (List.dropWhile_suffix (l := r) isDecimal).length_le
    simp only [List.length_cons] at h1
    simp only
    omega
  · next s' _ hs =>
    simp only [Option.some.injEq] at h
    exact h ▸ length_spanSome?_lt hs
  · split at h
    · next r _ =>
      simp only [Option.map_eq_some_iff] at h
      obtain ⟨q, hq, rfl⟩ := h
      have := length_spanSome?_lt hq
      simp only [List.length_cons]
      omega
    · simp at h

theorem length_exponent?_lt {t : Text} {s : Text × Text} (h : exponent? t = some s) :
    s.2.length < t.length := by
  cases t with
  | nil => simp [exponent?] at h
  | cons c t =>
    simp only [exponent?] at h
    split at h
    · simp only [Option.map_eq_some_iff] at h
      obtain ⟨q, hq, rfl⟩ := h
      have h1 := length_spanSome?_lt hq
      have h2 : (spanSign t).2.length ≤ t.length := by
        cases t with
        | nil => simp [spanSign]
        | cons d t =>
          rw [spanSign]
          split <;> simp
      simp only [List.length_cons]
      omega
    · simp at h

theorem length_numberAt?_lt {t : Text} {s : Text × Text} (h : numberAt? t = some s) :
    s.2.length < t.length := by
  have hsign : (spanSign t).2.length ≤ t.length := by
    cases t with
    | nil => simp [spanSign]
    | cons d t =>
      rw [spanSign]
      split <;> simp
  simp only [numberAt?, Option.map_eq_some_iff, Option.or_eq_some_iff] at h
  obtain ⟨q, hq | ⟨_, hq⟩, rfl⟩ := h
  · have := length_basedNumber?_lt hq
    simp only
    omega
  · simp only [decimalNumber?, Option.map_eq_some_iff] at hq
    obtain ⟨⟨ds, r⟩, hd, rfl⟩ := hq
    have h1 := length_decimalDigits?_lt hd
    simp only at h1 ⊢
    split
    · next e r' he =>
      have := length_exponent?_lt he
      simp only at this ⊢
      omega
    · simp only
      omega

theorem length_identifierAt?_lt {t : Text} {s : Text × Text} (h : identifierAt? t = some s) :
    s.2.length < t.length := by
  cases t with
  | nil => simp [identifierAt?] at h
  | cons c t =>
    simp only [identifierAt?] at h
    split at h
    · simp only [Option.some.injEq] at h
      subst h
      have := (List.dropWhile_suffix (l := t) isNameChar).length_le
      simp only [List.length_cons]
      omega
    · simp at h

/-! ### Values -/

/-- The value that a word stands for. -/
def wordValue? (w : Text) : Option Literal :=
  if w = "true".toList then some (.boolean true)
  else if w = "false".toList then some (.boolean false)
  else if w = "null".toList then some .null
  else none

/-- A number or a word as a value. -/
def readAtom (t : Text) : Reading Literal t :=
  match hn : numberAt? t with
  | some s => .ok ⟨.number s.1, s.2, length_numberAt?_lt hn⟩
  | none =>
    match hw : identifierAt? t with
    | some s =>
      match wordValue? s.1 with
      | some v => .ok ⟨v, s.2, length_identifierAt?_lt hw⟩
      | none => .error ⟨.unsupportedValue, t⟩
    | none => .error ⟨.unsupportedValue, t⟩

/-- A key: a string, an identifier or a number. -/
def readKey (t : Text) : Reading Text t :=
  match t with
  | [] => .error ⟨.unsupportedKey, []⟩
  | c :: t =>
    if c = '"' ∨ c = '\'' then readString c t
    else
      match hw : identifierAt? (c :: t) with
      | some s => .ok ⟨s.1, s.2, length_identifierAt?_lt hw⟩
      | none =>
        match hn : numberAt? (c :: t) with
        | some s => .ok ⟨s.1, s.2, length_numberAt?_lt hn⟩
        | none => .error ⟨.unsupportedKey, c :: t⟩

/-- A colon behind a key, with trivia in front. -/
def readColon (t : Text) : Reading Unit t := do
  match ← skipTrivia t with
  | ⟨c :: r, h⟩ => if c = ':' then .ok ⟨(), r, h⟩ else .error ⟨.expectedColon, c :: r⟩
  | ⟨[], _⟩ => .error ⟨.expectedColon, []⟩

/-- What follows a member or an item, with trivia in front: a comma (`true`) or the closing bracket
(`false`). -/
def readSeparator (closer : Char) (t : Text) : Reading Bool t := do
  match ← skipTrivia t with
  | ⟨c :: r, h⟩ =>
    if c = ',' then .ok ⟨true, r, h⟩
    else if c = closer then .ok ⟨false, r, h⟩
    else .error ⟨.expectedSeparator closer, c :: r⟩
  | ⟨[], _⟩ => .error ⟨.expectedSeparator closer, []⟩

theorem length_tail_lt_of_head? {t : Text} {c : Char} (h : t.head? = some c) :
    t.tail.length < t.length := by
  cases t with
  | nil => simp at h
  | cons d t => exact Nat.lt_succ_self _

/-- The members of an object, behind its opening brace or a comma, up to the closing brace. -/
def readMembers (value : (t : Text) → Reading Literal t) (members : List (Text × Literal))
    (t : Text) : Reading (List (Text × Literal)) t := do
  let ⟨s, hs⟩ ← skipTrivia t
  if hc : s.head? = some '}' then
    .ok ⟨members, s.tail, Nat.lt_of_lt_of_le (length_tail_lt_of_head? hc) hs⟩
  else
    let k ← readKey s
    let colon ← readColon k.rest
    let v ← value colon.rest
    let more ← readSeparator '}' v.rest
    have h : more.rest.length < t.length :=
      Nat.lt_of_lt_of_le (Nat.lt_trans more.shorter (Nat.lt_trans v.shorter
        (Nat.lt_trans colon.shorter k.shorter))) hs
    let members := putMember k.value v.value members
    if more.value then
      let r ← readMembers value members more.rest
      .ok ⟨r.value, r.rest, Nat.lt_trans r.shorter h⟩
    else .ok ⟨members, more.rest, h⟩
termination_by t.length

/-- The items of an array, behind its opening bracket or a comma, up to the closing bracket. -/
def readItems (value : (t : Text) → Reading Literal t) (t : Text) : Reading (List Literal) t := do
  let ⟨s, hs⟩ ← skipTrivia t
  if hc : s.head? = some ']' then
    .ok ⟨[], s.tail, Nat.lt_of_lt_of_le (length_tail_lt_of_head? hc) hs⟩
  else
    let v ← value s
    let more ← readSeparator ']' v.rest
    have h : more.rest.length < t.length :=
      Nat.lt_of_lt_of_le (Nat.lt_trans more.shorter v.shorter) hs
    if more.value then
      let r ← readItems value more.rest
      .ok ⟨v.value :: r.value, r.rest, Nat.lt_trans r.shorter h⟩
    else .ok ⟨[v.value], more.rest, h⟩
termination_by t.length

/-- A value with trivia in front, where objects and arrays nest at most `depth` deep. -/
def readValue (depth : Nat) (t : Text) : Reading Literal t := do
  let ⟨s, hs⟩ ← skipTrivia t
  match s, hs with
  | [], _ => .error ⟨.unsupportedValue, []⟩
  | c :: r, hs =>
    if c = '{' ∨ c = '[' then
      match depth with
      | 0 => .error ⟨.nestingTooDeep, c :: r⟩
      | depth + 1 =>
        if c = '{' then
          let ms ← readMembers (readValue depth) [] r
          .ok ⟨.object ms.value, ms.rest, Nat.lt_of_lt_of_le (Nat.lt_succ_of_lt ms.shorter) hs⟩
        else
          let is ← readItems (readValue depth) r
          .ok ⟨.array is.value, is.rest, Nat.lt_of_lt_of_le (Nat.lt_succ_of_lt is.shorter) hs⟩
    else if isQuote c then
      let q ← readString c r
      .ok ⟨.string q.value, q.rest, Nat.lt_of_lt_of_le q.shorter hs⟩
    else
      let a ← readAtom (c :: r)
      .ok ⟨a.value, a.rest, Nat.lt_of_lt_of_le a.shorter hs⟩

/-- How deep objects and arrays may nest. -/
def maxLiteralDepth : Nat := 100

/-- The value of a text that is one literal. -/
def parseLiteral (t : Text) : Except LiteralFailure Literal := do
  let v ← readValue maxLiteralDepth t
  match ← skipTrivia v.rest with
  | ⟨[], _⟩ => .ok v.value
  | ⟨r, _⟩ => .error ⟨.trailingContent, r⟩

/-- The value of a text, if it is one literal. -/
def parseLiteral? (t : Text) : Option Literal := (parseLiteral t).toOption

end DocDecl

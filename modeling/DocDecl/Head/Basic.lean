import DocDecl.Delimiter.Group
import DocDecl.Text.Word

/-!
# The head of a definition

The code behind a documentation block begins with the head of the definition that the block
documents: everything up to its body, on one line. When an object literal is assigned, the literal
is kept beside the head.

## Main definitions

* `spanHead` : divides code where the head stops.
* `Head` : the head on one line, whether it is that of a function, and the assigned literal.
* `Head.scan` : the head that code begins with.
* `Head.read` : the same, with the reading of a property assignment where no head is found.

## Main results

* `append_spanHead` : nothing is lost.
* `Head.length_scan_literal_le` : the literal is part of the code.
-/

namespace DocDecl

/-- Folds a text onto one line: runs of blanks become one space, and no space stays inside a round
bracket. -/
def collapseBlanks (t : Text) : Text :=
  Text.replace " )" ")" (Text.replace "( " "(" (Text.join " " (Text.words t)))

/-! ### Where a head stops -/

/-- What a head stops at: the brace of a body, an arrow, or anything else. -/
inductive HeadStop where
  | brace
  | arrow
  | other
  deriving DecidableEq, Repr

/-- Code divided where its head stops. -/
structure HeadSpan where
  /-- The code of the head. -/
  head : Text
  /-- What the head stops at. -/
  stop : HeadStop
  /-- The code from the stop on. -/
  rest : Text

/-- Puts code in front of a head. -/
def HeadSpan.prepend (t : Text) (s : HeadSpan) : HeadSpan := ⟨t ++ s.head, s.stop, s.rest⟩

/-- Divides code where its head stops, given the number of open brackets. Outside brackets a head
stops at a semicolon, a comma, a brace or an arrow, and everywhere at a closing bracket that none
opened, at a line comment and at the next documentation block. -/
def spanHead (depth : Nat) : Text → HeadSpan
  | [] => ⟨[], .other, []⟩
  | c :: t =>
    if isQuote c then (spanHead depth (spanQuoted c t).2).prepend (c :: (spanQuoted c t).1)
    else if c = '/' ∧ (t.head? = some '/' ∨ ("**" : Text).isPrefixOf t) then ⟨[], .other, c :: t⟩
    else if c = '/' ∧ t.head? = some '*' then
      (spanHead depth (spanBlockComment t.tail).2).prepend
        (c :: '*' :: (spanBlockComment t.tail).1)
    else if c = '(' ∨ c = '[' then (spanHead (depth + 1) t).prepend [c]
    else if c = ')' ∨ c = ']' then
      if depth = 0 then ⟨[], .other, c :: t⟩ else (spanHead (depth - 1) t).prepend [c]
    else if depth = 0 ∧ (c = ';' ∨ c = '}' ∨ c = ',') then ⟨[], .other, c :: t⟩
    else if depth = 0 ∧ c = '{' then ⟨[], .brace, c :: t⟩
    else if depth = 0 ∧ c = '=' ∧ t.head? = some '>' then ⟨[], .arrow, c :: t⟩
    else (spanHead depth t).prepend [c]
termination_by t => t.length
decreasing_by
  all_goals simp only [List.length_cons]
  · have := length_spanQuoted_le c t
    omega
  · have := length_spanBlockComment_le t.tail
    have := List.length_tail (l := t)
    omega
  all_goals omega

theorem append_spanHead (depth : Nat) (t : Text) :
    (spanHead depth t).head ++ (spanHead depth t).rest = t := by
  fun_induction spanHead depth t with
  | case1 => rfl
  | case2 depth c t _ ih =>
    simp only [HeadSpan.prepend, List.append_assoc, ih, List.cons_append, append_spanQuoted]
  | case3 => rfl
  | case4 depth c t _ _ h ih =>
    obtain ⟨_, h⟩ := h
    cases t with
    | nil => simp at h
    | cons d t =>
      simp only [List.head?_cons, Option.some.injEq] at h
      simp only [List.tail_cons] at ih
      simp only [HeadSpan.prepend, List.append_assoc, List.cons_append, List.tail_cons, ih,
        append_spanBlockComment, h]
  | case5 depth c t _ _ _ _ ih => simp only [HeadSpan.prepend, List.append_assoc, ih]; rfl
  | case6 => rfl
  | case7 depth c t _ _ _ _ _ _ ih => simp only [HeadSpan.prepend, List.append_assoc, ih]; rfl
  | case8 => rfl
  | case9 => rfl
  | case10 => rfl
  | case11 depth c t _ _ _ _ _ _ _ _ ih => simp only [HeadSpan.prepend, List.append_assoc, ih]; rfl

/-! ### Heads -/

/-- The head of a definition. -/
structure Head where
  /-- The head on one line. -/
  text : Text
  /-- Whether the head is that of a function. -/
  isFunction : Bool
  /-- The object literal that is assigned, or the empty text. -/
  literal : Text
  deriving DecidableEq, Repr

namespace Head

/-- The object literal that code assigns: the group behind a head that ends with an equals sign or
a colon. -/
def literalOf (s : HeadSpan) (head : Text) : Text :=
  if s.stop = .brace ∧ (head.getLast? = some '=' ∨ head.getLast? = some ':') then
    ((group? s.rest).map Prod.fst).getD []
  else []

/-- Whether a head is that of a function: it stops at an arrow, or `function` is a word before its
first bracket, or a body follows its last bracket. -/
def isFunctionHead (stop : HeadStop) (head : Text) : Bool :=
  stop = .arrow || (Text.words (head.takeWhile (· ≠ '('))).contains "function".toList ||
    (stop = .brace && head.getLast? = some ')')

/-- The head that code begins with. -/
def scan (code : Text) : Head :=
  let s := spanHead 0 code
  let head := Text.trim s.head
  let text := collapseBlanks head
  ⟨text, isFunctionHead s.stop text, literalOf s head⟩

theorem length_scan_literal_le (code : Text) : (scan code).literal.length ≤ code.length := by
  simp only [scan, literalOf]
  split
  · cases h : group? (spanHead 0 code).rest with
    | none => simp
    | some g =>
      simp only [group?, Option.map_eq_some_iff] at h
      obtain ⟨r, _, rfl⟩ := h
      have := congrArg List.length (append_spanHead 0 code)
      simp only [List.length_append] at this
      simp only [Option.map_some, Option.getD_some, List.length_take]
      omega
  · simp

/-! ### Property assignments -/

/-- The class of characters of a dotted name. -/
def isDottedChar (c : Char) : Bool := isNameChar c || c == '.'

/-- An assignment that code begins with: a dotted name, a colon or an equals sign, and a value on
the rest of the line. -/
def propertyAssignment? (code : Text) : Option Text :=
  let t := Text.trimLeft code
  let name := t.takeWhile isDottedChar
  let afterName := t.dropWhile isDottedChar
  let gap := afterName.takeWhile isBlank
  match afterName.dropWhile isBlank with
  | sign :: t' =>
    let gap' := t'.takeWhile isBlank
    let value := (t'.dropWhile isBlank).takeWhile fun c => c ≠ '\n' ∧ c ≠ ';' ∧ c ≠ ','
    if name ≠ [] ∧ (sign = ':' ∨ sign = '=') ∧ (value ≠ [] ∨ gap'.any (· ≠ '\n')) then
      some (name ++ gap ++ [sign] ++ gap' ++ value)
    else none
  | [] => none

/-- The head that code begins with, or the assignment where no head is found. -/
def read (code : Text) : Head :=
  let h := scan code
  if h.text ≠ [] then h
  else
    match propertyAssignment? code with
    | some t => ⟨collapseBlanks t, false, []⟩
    | none => h

theorem length_read_literal_le (code : Text) : (read code).literal.length ≤ code.length := by
  simp only [read]
  split
  · exact length_scan_literal_le code
  · split
    · simp
    · exact length_scan_literal_le code

end Head

end DocDecl

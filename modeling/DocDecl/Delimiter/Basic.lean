import DocDecl.Text.Blank

/-!
# Brackets, quotes and comments

What opens and closes in source code: brackets, quoted strings, comments. Each scan takes the text
behind the opening mark and divides it into what belongs to the construct and what follows.

## Main definitions

* `closer?`, `isCloser`, `isQuote` : the delimiters.
* `spanQuoted` : a string up to its first unescaped quote, or to the end of the text.
* `spanBlockComment`, `spanLineComment` : a comment up to its end mark or line feed.
* `stringEnd?`, `blockCommentEnd` : the same by offset.

## Main results

* `append_spanQuoted`, `append_spanBlockComment`, `append_spanLineComment` : nothing is lost.
-/

namespace DocDecl

/-- The closing bracket that belongs to an opening one. -/
def closer? : Char → Option Char
  | '(' => some ')'
  | '[' => some ']'
  | '{' => some '}'
  | _ => none

/-- The class of closing brackets. -/
def isCloser (c : Char) : Bool := c == ')' || c == ']' || c == '}'

/-- The class of quotes: single, double and back quote. -/
def isQuote (c : Char) : Bool := c == '"' || c == '\'' || c == '\x60'

/-! ### Strings -/

/-- Divides the text behind an opening quote after the first quote that no backslash stands before.
A backslash takes the next character with it; without a closing quote all of the text belongs to
the string. -/
def spanQuoted (quote : Char) : Text → Text × Text
  | [] => ([], [])
  | ['\\'] => (['\\'], [])
  | '\\' :: c :: t => ('\\' :: c :: (spanQuoted quote t).1, (spanQuoted quote t).2)
  | c :: t =>
    if c = quote then ([c], t) else (c :: (spanQuoted quote t).1, (spanQuoted quote t).2)

theorem append_spanQuoted (quote : Char) (t : Text) :
    (spanQuoted quote t).1 ++ (spanQuoted quote t).2 = t := by
  fun_induction spanQuoted quote t <;> simp_all

theorem length_spanQuoted_le (quote : Char) (t : Text) :
    (spanQuoted quote t).2.length ≤ t.length := by
  have := congrArg List.length (append_spanQuoted quote t)
  simp only [List.length_append] at this
  omega

/-- The offset behind the string that opens at `index`, if the text goes that far. Any character
there counts as the quote. -/
def stringEnd? (t : Text) (index : Nat) : Option Nat :=
  match t.drop index with
  | [] => none
  | quote :: rest => some (t.length - (spanQuoted quote rest).2.length)

/-! ### Comments -/

/-- Divides the text behind `/*` after the first `*/`. -/
def spanBlockComment : Text → Text × Text
  | [] => ([], [])
  | '*' :: '/' :: t => (['*', '/'], t)
  | c :: t => (c :: (spanBlockComment t).1, (spanBlockComment t).2)

theorem append_spanBlockComment (t : Text) :
    (spanBlockComment t).1 ++ (spanBlockComment t).2 = t := by
  fun_induction spanBlockComment t <;> simp_all

theorem length_spanBlockComment_le (t : Text) :
    (spanBlockComment t).2.length ≤ t.length := by
  have := congrArg List.length (append_spanBlockComment t)
  simp only [List.length_append] at this
  omega

/-- Divides the text behind `//` before the line feed. -/
def spanLineComment : Text → Text × Text
  | [] => ([], [])
  | c :: t =>
    if c = '\n' then ([], c :: t) else (c :: (spanLineComment t).1, (spanLineComment t).2)

theorem append_spanLineComment (t : Text) :
    (spanLineComment t).1 ++ (spanLineComment t).2 = t := by
  fun_induction spanLineComment t <;> simp_all

theorem length_spanLineComment_le (t : Text) :
    (spanLineComment t).2.length ≤ t.length := by
  have := congrArg List.length (append_spanLineComment t)
  simp only [List.length_append] at this
  omega

/-- The offset behind the block comment that opens at `index`. -/
def blockCommentEnd (t : Text) (index : Nat) : Nat :=
  t.length - (spanBlockComment (t.drop (index + 2))).2.length

end DocDecl

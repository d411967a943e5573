import DocDecl.Delimiter.Group
import DocDecl.Delimiter.Split
import DocDecl.Head.Name

/-!
# Arguments of a head

The parameter list of a head gives its arguments. The list is looked for behind the word `function`,
then behind an assigned arrow function, then in a method head.

## Main definitions

* `Argument` : a name, a rest argument, or a destructuring pattern.
* `parameterList?` : the text of a head from the opening bracket of its parameters on.
* `arguments?` : the arguments of a head.
* `isAsync` : whether a head is marked as asynchronous.

## Main results

* `Argument.ofText_text` : an argument is known by its text.
-/

namespace DocDecl

/-- An argument of a function. -/
inductive Argument where
  | name (n : Text)
  | rest (n : Text)
  | destructured
  deriving DecidableEq, Repr

namespace Argument

/-- The text of an argument. A pattern is shown as a pair of braces. -/
def text : Argument → Text
  | name n => n
  | rest n => "..." ++ n
  | destructured => "\x7b\x7d"

/-- The name of an argument, without the dots of a rest argument. -/
def label : Argument → Text
  | name n => n
  | rest n => n
  | destructured => "\x7b\x7d"

/-- The argument with a given text. -/
def ofText (t : Text) : Argument :=
  if t = "\x7b\x7d".toList then destructured
  else
    match Text.after? "..." t with
    | some n => rest n
    | none => name t

theorem text_ofText (t : Text) : (ofText t).text = t := by
  rw [ofText]
  split
  · next h => rw [h]; rfl
  · split
    · next n h => exact (Text.after?_eq_some_iff.1 h).symm
    · rfl

end Argument

/-! ### Where the parameters stand -/

/-- The text that begins with an opening round bracket, if this one does. -/
def atBracket? (t : Text) : Option Text := if t.head? = some '(' then some t else none

/-- The parameters of a function whose keyword stands here: behind an optional star and name. -/
def functionParameters? (t : Text) : Option Text :=
  (Text.after? "function" t).bind fun r =>
    if (r.head?.map isWordChar).getD false then none
    else
      let r := Text.trimLeft r
      let r := if r.head? = some '*' then Text.trimLeft r.tail else r
      atBracket? (Text.trimLeft (r.dropWhile isNameChar))

/-- The parameters behind the first keyword `function` that is a word of its own and is followed by
a parameter list, where `before` is the character in front of the text. -/
def afterFunction? (before : Option Char) : Text → Option Text
  | [] => none
  | c :: t =>
    (if (before.map isWordChar).getD false then none else functionParameters? (c :: t)).or
      (afterFunction? (some c) t)

/-- The parameters of an arrow function that is assigned here: behind an equals sign or a colon and
an optional `async`. -/
def arrowParameters? : Text → Option Text
  | [] => none
  | c :: t =>
    if c = '=' ∨ c = ':' then
      let t := Text.trimLeft t
      atBracket? (((Text.after? "async" t).map Text.trimLeft).getD t)
    else none

/-- The parameters of the first arrow function that is assigned. -/
def afterArrow? : Text → Option Text
  | [] => none
  | c :: t => (arrowParameters? (c :: t)).or (afterArrow? t)

/-- The text of a head from the opening bracket of its parameters on. -/
def parameterList? (head : Text) : Option Text :=
  ((afterFunction? none head).or (afterArrow? head)).or
    ((methodHead? head).map fun (_, r) => '(' :: r)

/-! ### Arguments -/

/-- The argument that a part of a parameter list declares: a pattern, or the name in front of the
default. -/
def argumentOf (part : Text) : Argument :=
  let bare := part.dropWhile (· = '.')
  if bare.head? = some '{' ∨ bare.head? = some '[' then .destructured
  else .ofText (Text.trim (part.takeWhile (· ≠ '=')))

/-- The arguments of a head, if it has a parameter list. -/
def arguments? (head : Text) : Option (List Argument) :=
  (parameterList? head).bind fun t =>
    (group? t).map fun (g, _) => (splitTopLevel (some ',') (insideGroup g)).map argumentOf

/-- Whether the word `async` stands in a head, at its beginning or behind a blank, an equals sign, a
colon or an opening bracket, where `before` is the character in front of the text. -/
def hasAsync (before : Option Char) : Text → Bool
  | [] => false
  | c :: t =>
    ((before.map fun b => isBlank b || b == '=' || b == ':' || b == '(').getD true &&
      ((Text.after? "async" (c :: t)).map fun r => !((r.head?.map isWordChar).getD false)).getD
        false) ||
      hasAsync (some c) t

/-- Whether a head is marked as asynchronous. -/
def isAsync (head : Text) : Bool := hasAsync none head

end DocDecl

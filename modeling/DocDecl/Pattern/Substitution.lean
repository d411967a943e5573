import DocDecl.Pattern.Matching
import DocDecl.Pattern.Parser

/-!
# Replacing matches

A rule replaces every match of its pattern, from left to right, by a template, in which groups of
the match can be named. An empty match is replaced too, but not twice at one place.

## Main definitions

* `TemplatePart`, `Template.parse` : templates.
* `NamedPattern.replaceAll` : a text with all matches replaced.
* `ReplacementRule`, `ReplacementRule.apply` : rules.
-/

namespace DocDecl

/-! ### Templates -/

/-- A part of a template: text, or the text of a group, where zero is the whole match. -/
inductive TemplatePart where
  | char (c : Char)
  | group (number : Nat)
  deriving DecidableEq, Repr

/-- Why a rule cannot be applied. -/
inductive RuleFault where
  /-- The text of the pattern is no pattern. -/
  | badPattern (fault : PatternFault)
  /-- The template cannot be read, or names a group by a number that the pattern has not. -/
  | badTemplate
  /-- The template names a group that the pattern has not. -/
  | unknownName (name : Text)
  deriving DecidableEq, Repr

/-- The wording of a fault. -/
def RuleFault.message : RuleFault → Text
  | badPattern _ => "the pattern of a replacement rule is wrong"
  | badTemplate => "the template of a replacement rule is wrong"
  | unknownName name => "unknown group name '" ++ name ++ "'"

/-- A part for a group, if the pattern has it. -/
def groupPart (p : NamedPattern) (n : Nat) : Except RuleFault TemplatePart :=
  if n ≤ p.count then .ok (.group n) else .error .badTemplate

/-- The control character that a letter stands for in a template. -/
def templateControl? (c : Char) : Option Char :=
  if c = 'b' then some '\x08' else if c = '\\' then some '\\' else controlOf? c

/-- The part for a group in angle brackets, given the text behind the letter `g`, and how many
characters it takes. -/
def namedPart (p : NamedPattern) (t : Text) : Except RuleFault (TemplatePart × Nat) :=
  match t with
  | '<' :: t =>
    let name := t.takeWhile (· ≠ '>')
    if name.length = t.length ∨ name = [] then .error .badTemplate
    else if isUnicodeIdentifier name then
      match p.names.lookup name with
      | some n => .ok (.group n, name.length + 2)
      | none => .error (.unknownName name)
    else if name.all Char.isDigit then do
      return (← groupPart p (decimalOf name), name.length + 2)
    else .error .badTemplate
  | _ => .error .badTemplate

/-- The part for digits behind a backslash. -/
def digitPart (p : NamedPattern) (d : Char) (t : Text) : Except RuleFault (TemplatePart × Nat) :=
  match digitEscape? d t with
  | some (.code n, k) => .ok (.char (Char.ofNat n), k)
  | some (.group number, k) => do return (← groupPart p number, k)
  | none => .error .badTemplate

/-- The parts behind a backslash, and how many characters they take. A character without a meaning
of its own keeps its backslash. -/
def escapedParts (p : NamedPattern) (t : Text) : Except RuleFault (List TemplatePart × Nat) :=
  match t with
  | [] => .error .badTemplate
  | d :: t =>
    if d = 'g' then do
      let (part, n) ← namedPart p t
      return ([part], n + 1)
    else if d.isDigit then do
      let (part, n) ← digitPart p d t
      return ([part], n)
    else
      match templateControl? d with
      | some c => .ok ([.char c], 1)
      | none => if d.isAlpha then .error .badTemplate else .ok ([.char '\\', .char d], 1)

/-- The parts of a template. The number `skip` tells how many characters still belong to the part
before. -/
def templateParts (p : NamedPattern) : Nat → Text → Except RuleFault (List TemplatePart)
  | _, [] => .ok []
  | skip + 1, _ :: t => templateParts p skip t
  | 0, c :: t =>
    if c = '\\' then do
      let (parts, n) ← escapedParts p t
      return parts ++ (← templateParts p n t)
    else do return .char c :: (← templateParts p 0 t)

/-- The text of a template for a match between two places. A group that took no part is empty. -/
def fillTemplate (parts : List TemplatePart) (s s' : Cursor) : Text :=
  parts.flatMap fun part =>
    match part with
    | .char c => [c]
    | .group 0 => s.upTo s'
    | .group n => (s'.group? n).getD []

/-! ### Replacing -/

/-- A text with all matches replaced, from a place on. The number `skip` tells how many characters
still belong to the match before, and `before` is the text in front of the place, the last character
first. -/
def replaceFrom (p : Pattern) (parts : List TemplatePart) : Nat → Text → Text → Text
  | _ + 1, _, [] => []
  | skip + 1, before, c :: t => replaceFrom p parts skip (c :: before) t
  | 0, before, [] =>
    let s : Cursor := ⟨before, [], []⟩
    match p.matchAt? false s with
    | some s' => fillTemplate parts s s'
    | none => []
  | 0, before, c :: t =>
    let s : Cursor := ⟨before, c :: t, []⟩
    let behind (s' : Cursor) : Text :=
      fillTemplate parts s s' ++ replaceFrom p parts (t.length - s'.rest.length) (c :: before) t
    match p.matchAt? false s with
    | none => c :: replaceFrom p parts 0 (c :: before) t
    | some s' =>
      if s'.rest.length ≤ t.length then behind s'
      else
        fillTemplate parts s s' ++
          match p.matchAt? true s with
          | some s'' => behind s''
          | none => c :: replaceFrom p parts 0 (c :: before) t

/-- A text with all matches replaced. -/
def Pattern.replaceAll (p : Pattern) (parts : List TemplatePart) (t : Text) : Text :=
  replaceFrom p parts 0 [] t

/-! ### Rules -/

/-- A replacement rule, as it is written. -/
structure ReplacementRule where
  /-- The text of the pattern. -/
  pattern : Text
  /-- The text of the template. -/
  template : Text
  deriving DecidableEq, Repr

/-- The pattern of a rule. -/
def ReplacementRule.compile (r : ReplacementRule) : Except RuleFault NamedPattern :=
  match Pattern.parse r.pattern with
  | .ok p => .ok p
  | .error e => .error (.badPattern e)

/-- A text with the rule applied to it. -/
def ReplacementRule.apply (r : ReplacementRule) (t : Text) : Except RuleFault Text := do
  let p ← r.compile
  let parts ← templateParts p 0 r.template
  return p.pattern.replaceAll parts t

end DocDecl

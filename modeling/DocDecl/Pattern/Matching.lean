import DocDecl.Pattern.Basic

/-!
# Matching

A pattern is matched at a place in the text. Of all ways to match the first counts, where
alternatives are tried from left to right and a repetition goes on as long as it makes progress. The
rest of the match is passed along, so that a way that does not fit it is left for the next.

## Main definitions

* `Cursor` : a place in the text and the groups matched so far.
* `Pattern.run` : the first way to match that the rest accepts.
* `Pattern.matchAt?` : the first match at a place.
-/

namespace DocDecl

/-- A place in the text, and the texts that the groups have matched so far. -/
structure Cursor where
  /-- The text in front of the place, the last character first. -/
  before : Text
  /-- The text behind the place. -/
  rest : Text
  /-- The last text of each group, by its number. -/
  groups : List (Nat × Text) := []
  deriving Repr

namespace Cursor

/-- The text of a group, if it took part in the match. -/
def group? (s : Cursor) (number : Nat) : Option Text :=
  (s.groups.find? fun g => g.1 = number).map Prod.snd

/-- The text between a place and a later one. -/
def upTo (s t : Cursor) : Text := s.rest.take (s.rest.length - t.rest.length)

/-- The place behind the next `n` characters. -/
def forward (s : Cursor) (n : Nat) : Cursor :=
  { s with before := (s.rest.take n).reverse ++ s.before, rest := s.rest.drop n }

/-- The place in front of the last `n` characters, if there are so many. -/
def back? (s : Cursor) (n : Nat) : Option Cursor :=
  if n ≤ s.before.length then
    some { s with before := s.before.drop n, rest := (s.before.take n).reverse ++ s.rest }
  else none

/-- Whether a condition holds at a place. -/
def meets (s : Cursor) (flags : PatternFlags) (a : Anchor) : Bool :=
  let isWord (c : Char) := CharKind.word.has (flags.contains .ascii) c
  let wordBefore := s.before.head?.any isWord
  let wordBehind := s.rest.head?.any isWord
  match a with
  | .lineStart => s.before.isEmpty || (flags.contains .multiline && s.before.head? = some '\n')
  | .lineEnd =>
    s.rest.isEmpty || s.rest = ['\n'] || (flags.contains .multiline && s.rest.head? = some '\n')
  | .textStart => s.before.isEmpty
  | .textEnd => s.rest.isEmpty
  | .wordBoundary => wordBefore != wordBehind
  | .noWordBoundary => wordBefore == wordBehind && !(s.before.isEmpty && s.rest.isEmpty)

/-- Whether a text comes next, under given flags. -/
def meetsText (s : Cursor) (flags : PatternFlags) (t : Text) : Bool :=
  if flags.contains .ignoreCase then
    let lower := if flags.contains .ascii then Char.toLower else lowerCase
    (t.map lower).isPrefixOf (s.rest.map lower)
  else t.isPrefixOf s.rest

end Cursor

variable {α : Type}

/-- What matches at a place, given what accepts the place behind it. -/
abbrev Matcher := {α : Type} → Cursor → (Cursor → Option α) → Option α

/-- The first match alone, whether or not what follows accepts it. -/
def atomically (body : Matcher) : Matcher := fun s k => (body s some).bind k

/-- Exactly `n` matches, one behind the other. -/
def times (body : Matcher) : Nat → Cursor → (Cursor → Option α) → Option α
  | 0, s, k => k s
  | n + 1, s, k => body s fun s' => times body n s' k

/-- Further matches, at most `left` of them if that is given. Where the match before made no
progress, that is when `last` is what was left of the text then, there is none. The number `n` is
never used up: every match but the first needs progress before it. -/
def iterate (body : Matcher) (greedy : Bool) :
    Nat → Option Nat → Option Nat → Cursor → (Cursor → Option α) → Option α
  | 0, _, _, s, k => k s
  | n + 1, left, last, s, k =>
    if left = some 0 ∨ last = some s.rest.length then k s
    else
      let more := fun (_ : Unit) => body s fun s' =>
        iterate body greedy n (left.map (· - 1)) (some s.rest.length) s' k
      if greedy then (more ()).orElse fun _ => k s else (k s).orElse more

/-- At least `least` and at most `most` matches. -/
def repeatedly (body : Matcher) (greedy : Bool) (least : Nat) (most : Option Nat) (s : Cursor)
    (k : Cursor → Option α) : Option α :=
  times body least s fun s' =>
    iterate body greedy (s'.rest.length + 2) (most.map (· - least)) none s' k

/-- The first way to match at a place that what follows accepts. -/
def Pattern.run : Pattern → {α : Type} → Cursor → (Cursor → Option α) → Option α
  | nothing, _, s, k => k s
  | set flags cs, _, s, k =>
    match s.rest with
    | c :: _ => if cs.has flags c then k (s.forward 1) else none
    | [] => none
  | anchor flags a, _, s, k => if s.meets flags a then k s else none
  | seq p q, _, s, k => p.run s fun s' => q.run s' k
  | alt p q, _, s, k => (p.run s k).orElse fun _ => q.run s k
  | group none p, _, s, k => p.run s k
  | group (some n) p, _, s, k =>
    p.run s fun s' => k { s' with groups := (n, s.upTo s') :: s'.groups }
  | reference flags n, _, s, k =>
    match s.group? n with
    | some t => if s.meetsText flags t then k (s.forward t.length) else none
    | none => none
  | conditional n p q, _, s, k => if (s.group? n).isSome then p.run s k else q.run s k
  | atomic p, _, s, k => atomically p.run s k
  | look back negated p, _, s, k =>
    match (s.back? back).bind fun s' => p.run s' some with
    | some s' => if negated then none else k { s with groups := s'.groups }
    | none => if negated then k s else none
  | repeated .greedy least most p, _, s, k => repeatedly p.run true least most s k
  | repeated .lazy least most p, _, s, k => repeatedly p.run false least most s k
  | repeated .possessive least most p, _, s, k =>
    atomically (repeatedly (atomically p.run) true least most) s k

/-- The first match at a place, by the place behind it. If `progress` is asked for, the match is not
empty. -/
def Pattern.matchAt? (p : Pattern) (progress : Bool) (s : Cursor) : Option Cursor :=
  p.run s fun s' => if progress && s'.rest.length == s.rest.length then none else some s'

end DocDecl

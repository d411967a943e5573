import DocDecl.Pattern.Symbol

/-!
# Reading patterns

The symbols of a pattern are put together with a stack of the groups that are open. A group that is
referred to has to be closed, and one that is looked for in front of a place must have a fixed
width.

## Main definitions

* `OpenGroup`, `ParserState` : how far a pattern has been read.
* `NamedPattern` : a pattern with the number and the names of its groups.
* `Pattern.parse` : the pattern that a text spells.
-/

namespace DocDecl

/-! ### Open groups -/

/-- What a group makes of the pattern inside it. -/
inductive GroupKind where
  | kept (number : Nat)
  | plain
  | atomic
  | ahead (negated : Bool)
  /-- The outermost of the groups that look back sets the limit for references. -/
  | behind (negated outermost : Bool)
  | conditional (number : Nat)

/-- A group that is being read: the alternatives before, and the patterns of this one, both the last
first. -/
structure OpenGroup where
  /-- What the group makes of its pattern. -/
  kind : GroupKind
  /-- The flags that are set in the group. -/
  flags : PatternFlags
  /-- The alternatives that are complete. -/
  alternatives : List Pattern := []
  /-- The patterns of the alternative that is being read. -/
  items : List Pattern := []

namespace OpenGroup

/-- The group with one more pattern. -/
def push (g : OpenGroup) (p : Pattern) : OpenGroup := { g with items := p :: g.items }

/-- The group with its alternative complete. -/
def complete (g : OpenGroup) : OpenGroup :=
  { g with alternatives := Pattern.ofSeq g.items.reverse :: g.alternatives, items := [] }

/-- The alternatives of the group. -/
def branches (g : OpenGroup) : List Pattern := g.complete.alternatives.reverse

/-- The pattern inside the group. -/
def inside (g : OpenGroup) : Pattern := Pattern.ofAlts g.branches

/-- The group behind a bar. A condition has two branches at most. -/
def bar (g : OpenGroup) : Except PatternFault OpenGroup :=
  match g.kind, g.alternatives with
  | .conditional _, _ :: _ => .error .thirdBranch
  | _, _ => .ok g.complete

/-- Whether nothing of the group has been read. -/
def isFresh (g : OpenGroup) : Bool := g.alternatives.isEmpty && g.items.isEmpty

end OpenGroup

/-- How far a pattern has been read. -/
structure ParserState where
  /-- The innermost group that is open. -/
  top : OpenGroup
  /-- The groups around it, the innermost first. -/
  outer : List OpenGroup := []
  /-- How many groups are kept so far. -/
  count : Nat := 0
  /-- The names of groups. -/
  names : List (Text × Nat) := []
  /-- The widths of the groups that are closed. -/
  widths : List (Nat × Width) := []
  /-- The groups that conditions ask for. -/
  conditions : List Nat := []
  /-- How many groups there were in front of a look back. -/
  lookBack : Option Nat := none

namespace ParserState

/-- Adds a pattern. -/
def push (s : ParserState) (p : Pattern) : ParserState := { s with top := s.top.push p }

/-- Opens a group under given flags. -/
def enter (s : ParserState) (kind : GroupKind) (flags : PatternFlags) : ParserState :=
  { s with top := { kind := kind, flags := flags }, outer := s.top :: s.outer }

/-- Opens a group under the flags of the one around it. -/
def enterPlain (s : ParserState) (kind : GroupKind) : ParserState := s.enter kind s.top.flags

/-! ### References -/

/-- A look back refers only to groups that were closed in front of it. -/
def checkLookBack (s : ParserState) (n : Nat) : Except PatternFault Unit :=
  match s.lookBack with
  | none => .ok ()
  | some limit =>
    if (s.widths.lookup n).isNone then .error .openGroup
    else if limit < n then .error .groupInLookBehind
    else .ok ()

/-- Adds a reference to a group. -/
def refer (s : ParserState) (n : Nat) : Except PatternFault ParserState :=
  if s.count < n then .error .unknownGroup
  else if (s.widths.lookup n).isNone then .error .openGroup
  else do
    s.checkLookBack n
    return s.push (.reference s.top.flags n)

/-- The number of a named group. -/
def numberOf (s : ParserState) (name : Text) : Except PatternFault Nat :=
  match s.names.lookup name with
  | some n => .ok n
  | none => .error .unknownGroup

/-! ### Groups -/

/-- Opens a group whose match is kept. -/
def enterKept (s : ParserState) (name : Option Text) : Except PatternFault ParserState :=
  let n := s.count + 1
  match name with
  | none => .ok ({ s with count := n }.enterPlain (.kept n))
  | some name =>
    if (s.names.lookup name).isSome then .error .redefinedGroup
    else .ok ({ s with count := n, names := (name, n) :: s.names }.enterPlain (.kept n))

/-- Opens the branches of a condition. -/
def enterConditional (s : ParserState) (n : Nat) : Except PatternFault ParserState := do
  s.checkLookBack n
  return s.enterPlain (.conditional n)

/-- Opens a group. -/
def begin (s : ParserState) : Opening → Except PatternFault ParserState
  | .kept name => s.enterKept name
  | .scoped add del => .ok (s.enter .plain (s.top.flags.change add del))
  | .atomic => .ok (s.enterPlain .atomic)
  | .ahead negated => .ok (s.enterPlain (.ahead negated))
  | .behind negated =>
    .ok { s.enterPlain (.behind negated s.lookBack.isNone) with
      lookBack := s.lookBack.or (some s.count) }
  | .conditional n => { s with conditions := n :: s.conditions }.enterConditional n
  | .namedConditional name => do s.enterConditional (← s.numberOf name)

/-- A look back reaches less far than this. -/
def lookBackLimit : Nat := 0xffffffff

/-- The pattern of the innermost group that is open. -/
def closed (s : ParserState) : Except PatternFault Pattern :=
  let p := s.top.inside
  match s.top.kind with
  | .kept n => .ok (.group (some n) p)
  | .plain => .ok (.group none p)
  | .atomic => .ok (.atomic p)
  | .ahead negated => .ok (.look 0 negated p)
  | .behind negated _ =>
    let w := p.width s.widths
    if w.most = some w.least ∧ w.least < lookBackLimit then .ok (.look w.least negated p)
    else .error .variableLookBehind
  | .conditional n =>
    match s.top.branches with
    | [p, q] => .ok (.conditional n p q)
    | _ => .ok (.conditional n p .nothing)

/-- Closes the innermost group. -/
def close (s : ParserState) : Except PatternFault ParserState :=
  match s.outer with
  | [] => .error .unbalancedParenthesis
  | g :: gs => do
    let p ← s.closed
    let widths :=
      match s.top.kind with
      | .kept n => (n, p.width s.widths) :: s.widths
      | _ => s.widths
    let lookBack :=
      match s.top.kind with
      | .behind _ true => none
      | _ => s.lookBack
    return { s with top := g.push p, outer := gs, widths := widths, lookBack := lookBack }

/-! ### Symbols -/

/-- Repeats the last pattern. Anchors cannot be repeated, and repetitions not once more. -/
def quantify (s : ParserState) (mode : RepeatMode) (least : Nat) (most : Option Nat) :
    Except PatternFault ParserState :=
  match s.top.items with
  | [] => .error .nothingToRepeat
  | .anchor .. :: _ => .error .nothingToRepeat
  | .repeated .. :: _ => .error .multipleRepeat
  | p :: ps => .ok { s with top := { s.top with items := .repeated mode least most p :: ps } }

/-- Sets flags for the whole pattern, in front of which nothing may stand. -/
def setFlags (s : ParserState) (add : PatternFlags) : Except PatternFault ParserState :=
  if s.outer.isEmpty ∧ s.top.isFresh then
    .ok { s with top := { s.top with flags := s.top.flags ++ add } }
  else .error .lateFlags

/-- Takes one symbol. -/
def step (s : ParserState) : PatternSymbol → Except PatternFault ParserState
  | .set cs => .ok (s.push (.set s.top.flags cs))
  | .dot =>
    .ok (s.push (.set s.top.flags (if s.top.flags.contains .dotAll then .all else .exceptFeed)))
  | .anchor a => .ok (s.push (.anchor s.top.flags a))
  | .bar => do return { s with top := ← s.top.bar }
  | .quantifier mode least most => s.quantify mode least most
  | .reference n => s.refer n
  | .namedReference name => do s.refer (← s.numberOf name)
  | .open o => s.begin o
  | .close => s.close
  | .flags add => s.setFlags add
  | .comment => .ok s

/-- Reads a text on. The number `skip` tells how many characters still belong to the symbol
before. -/
def read : ParserState → Nat → Text → Except PatternFault ParserState
  | s, _, [] => .ok s
  | s, skip + 1, _ :: t => s.read skip t
  | s, 0, c :: t => do
    let (symbol, n) ← symbolAt (s.top.flags.contains .verbose) c t
    (← s.step symbol).read n t

end ParserState

/-! ### Patterns -/

/-- A pattern with the number and the names of its groups. -/
structure NamedPattern where
  /-- The pattern. -/
  pattern : Pattern
  /-- How many groups are kept. -/
  count : Nat
  /-- The names of groups. -/
  names : List (Text × Nat)

/-- What has been read, at the end of the text. -/
def ParserState.finish (s : ParserState) : Except PatternFault NamedPattern :=
  if !s.outer.isEmpty then .error .missingParenthesis
  else if s.top.flags.contains .ascii ∧ s.top.flags.contains .unicode then .error .badFlags
  else if s.conditions.any (s.count < ·) then .error .unknownGroup
  else .ok ⟨s.top.inside, s.count, s.names⟩

/-- The pattern that a text spells. The anchors of lines match at every line. -/
def Pattern.parse (t : Text) : Except PatternFault NamedPattern := do
  let start : ParserState := { top := { kind := .plain, flags := [.multiline] } }
  (← start.read 0 t).finish

end DocDecl

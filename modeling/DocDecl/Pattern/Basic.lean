import DocDecl.Text.Blank
import DocDecl.Text.CaseFolding
import DocDecl.Text.Word

/-!
# Patterns

The patterns of replacement rules: characters and classes, anchors, groups, alternatives,
repetitions, conditions on groups, and what has to stand ahead or behind.

## Main definitions

* `PatternFlag` : the flags that parts of a pattern are read and matched under.
* `CharSet` : a class of characters.
* `Anchor` : a condition on a place in the text.
* `Pattern` : patterns.
* `Pattern.width` : how many characters a pattern can match.
-/

namespace DocDecl

/-! ### Flags -/

/-- The flags that parts of a pattern are read and matched under. -/
inductive PatternFlag where
  /-- Letters match without regard to case. -/
  | ignoreCase
  /-- The anchors of lines match at every line. -/
  | multiline
  /-- The dot matches line feeds. -/
  | dotAll
  /-- White space and comments are left out. -/
  | verbose
  /-- The classes that have a letter, and the case of letters, are those of ASCII. -/
  | ascii
  /-- They are those of Unicode. -/
  | unicode
  deriving DecidableEq, Repr

namespace PatternFlag

/-- The flag of a letter. -/
def ofLetter? : Char → Option PatternFlag
  | 'i' => some ignoreCase
  | 'm' => some multiline
  | 's' => some dotAll
  | 'x' => some verbose
  | 'a' => some ascii
  | 'u' => some unicode
  | _ => none

/-- Whether a flag chooses the classes of characters. Only one such flag can be set at a place. -/
def choosesClasses (f : PatternFlag) : Bool := f = ascii || f = unicode

end PatternFlag

/-- The flags that are set. -/
abbrev PatternFlags := List PatternFlag

/-- The flags with some set and others taken back. -/
def PatternFlags.change (flags add del : PatternFlags) : PatternFlags :=
  let kept := if add.any (·.choosesClasses) then flags.filter (!·.choosesClasses) else flags
  (kept ++ add).filter fun f => !del.contains f

/-! ### Classes of characters -/

/-- The classes of characters that have a letter. -/
inductive CharKind where
  | word
  | blank
  | digit
  deriving DecidableEq, Repr

/-- The characters of a kind, all of them or those of ASCII. -/
def CharKind.has (ascii : Bool) (k : CharKind) (c : Char) : Bool :=
  (!ascii || c.toNat < 0x80) &&
    match k with
    | word => isWordChar c
    | blank => if ascii then c = ' ' || ('\t' ≤ c && c ≤ '\r') else isBlank c
    | digit => isDecimal c

/-- One item of a class of characters. Characters are told by their codes, which may be those of
surrogates. -/
inductive SetItem where
  | char (code : Nat)
  | range (lo hi : Nat)
  | kind (k : CharKind) (negated : Bool)
  deriving DecidableEq, Repr

/-- Whether an item lists one of the given codes. -/
def SetItem.lists (codes : List Nat) : SetItem → Bool
  | char code => codes.contains code
  | range lo hi => codes.any fun n => lo ≤ n && n ≤ hi
  | kind _ _ => false

/-- The characters of an item. -/
def SetItem.has (flags : PatternFlags) (i : SetItem) (c : Char) : Bool :=
  let ascii := flags.contains .ascii
  let codes :=
    if flags.contains .ignoreCase then
      if ascii then asciiCaseVariants c.toNat else caseVariants c.toNat
    else [c.toNat]
  match i with
  | kind k negated => k.has ascii c != negated
  | i => i.lists codes

/-- A class of characters. -/
structure CharSet where
  /-- The items that are listed. -/
  items : List SetItem
  /-- Whether the class holds all other characters instead. -/
  negated : Bool := false
  deriving DecidableEq, Repr

/-- The characters of a class. -/
def CharSet.has (flags : PatternFlags) (s : CharSet) (c : Char) : Bool :=
  s.items.any (·.has flags c) != s.negated

/-- The class of all characters but the line feed. -/
def CharSet.exceptFeed : CharSet := ⟨[.char '\n'.toNat], true⟩

/-- The class of all characters. -/
def CharSet.all : CharSet := ⟨[], true⟩

/-! ### Patterns -/

/-- A condition on a place in the text. -/
inductive Anchor where
  | lineStart
  | lineEnd
  | textStart
  | textEnd
  | wordBoundary
  | noWordBoundary
  deriving DecidableEq, Repr

/-- How often a repetition is tried: as often as possible first, as seldom as possible first, or as
often as possible without a second try. -/
inductive RepeatMode where
  | greedy
  | lazy
  | possessive
  deriving DecidableEq, Repr

/-- Patterns, with the flags that they are matched under. -/
inductive Pattern where
  | nothing
  | set (flags : PatternFlags) (s : CharSet)
  | anchor (flags : PatternFlags) (a : Anchor)
  | seq (p q : Pattern)
  | alt (p q : Pattern)
  /-- A group has a number when its match is kept. -/
  | group (number : Option Nat) (p : Pattern)
  /-- What a group has matched, once more. -/
  | reference (flags : PatternFlags) (number : Nat)
  /-- One pattern if a group took part in the match, and another one if not. -/
  | conditional (number : Nat) (p q : Pattern)
  /-- A pattern that is not tried a second time. -/
  | atomic (p : Pattern)
  /-- What has to stand, or must not stand, behind the place or so many characters in front of
  it. -/
  | look (back : Nat) (negated : Bool) (p : Pattern)
  | repeated (mode : RepeatMode) (least : Nat) (most : Option Nat) (p : Pattern)
  deriving Repr

/-- Patterns one after the other. -/
def Pattern.ofSeq : List Pattern → Pattern
  | [] => nothing
  | [p] => p
  | p :: ps => seq p (ofSeq ps)

/-- Patterns as alternatives, the first before the others. -/
def Pattern.ofAlts : List Pattern → Pattern
  | [] => nothing
  | [p] => p
  | p :: ps => alt p (ofAlts ps)

/-! ### Widths -/

/-- How many characters can be matched. -/
structure Width where
  /-- The least number. -/
  least : Nat
  /-- The greatest number, if there is one. -/
  most : Option Nat
  deriving DecidableEq, Repr

namespace Width

/-- The width of what matches a fixed number of characters. -/
def exact (n : Nat) : Width := ⟨n, some n⟩

/-- The width of two patterns one after the other. -/
def add (v w : Width) : Width := ⟨v.least + w.least, return (← v.most) + (← w.most)⟩

/-- The width of two alternatives. -/
def join (v w : Width) : Width := ⟨min v.least w.least, return max (← v.most) (← w.most)⟩

/-- The width of a repetition. -/
def times (v : Width) (least : Nat) (most : Option Nat) : Width :=
  ⟨v.least * least,
    if v.most = some 0 ∨ most = some 0 then some 0 else return (← v.most) * (← most)⟩

end Width

/-- How many characters a pattern can match, given the widths of the groups. -/
def Pattern.width (groups : List (Nat × Width)) : Pattern → Width
  | nothing => .exact 0
  | set _ _ => .exact 1
  | anchor _ _ => .exact 0
  | seq p q => (p.width groups).add (q.width groups)
  | alt p q => (p.width groups).join (q.width groups)
  | group _ p => p.width groups
  | reference _ n => (groups.lookup n).getD (.exact 0)
  | conditional _ p q => (p.width groups).join (q.width groups)
  | atomic p => p.width groups
  | look _ _ _ => .exact 0
  | repeated _ least most p => (p.width groups).times least most

end DocDecl

import DocDecl.Proofs.Delimiter.Group
import DocDecl.Proofs.Delimiter.Split
import Mathlib.Data.List.Infix

/-!
# Nested brackets

Brackets are nested if each closing bracket closes the innermost one that is open, and none is left
open. Types have angle brackets besides those of code. Code without strings and comments is gone
over by the scans for groups and for separators as its brackets are nested; both count angle
brackets for nothing, so that what they take apart need not be nested with these.

## Main definitions

* `openBehind?` : the brackets that are open behind a text.
* `IsNested` : texts whose brackets are nested.
* `bracketHeight` : how many more brackets are opened than closed.
* `IsPlainCode` : code without strings and comments.

## Main results

* `openBehind?_codeClosers` : angle brackets may be left out.
* `openBehind?_parenthesised` : code in brackets with angle brackets of its own.
* `length_openBehind?` : the height tells how many brackets are open.
* `closing?_openBehind?` : the scan for the end of a group.
* `exists_piecesAt` : the scan for separators.
-/

namespace DocDecl

open LiteralGrammar Text

variable {angles : Bool} {c d k : Char} {js ks ks' : List Char} {s t x : Text}

/-! ### Open brackets -/

/-- The bracket that closes an opening one. With `angles`, angle brackets count as brackets. -/
def closerOf? (angles : Bool) (c : Char) : Option Char :=
  if angles = true ∧ c = '<' then some '>' else closer? c

/-- The class of closing brackets. -/
def isCloserOf (angles : Bool) (c : Char) : Bool := (angles && c == '>') || isCloser c

/-- The class of brackets. -/
def isBracketOf (angles : Bool) (c : Char) : Bool :=
  (closerOf? angles c).isSome || isCloserOf angles c

/-- The brackets that have to be closed behind a character, the innermost first, given those in
front of it. Fails at a closing bracket that is not the innermost one. -/
def bracketStep (angles : Bool) (ks : List Char) (c : Char) : Option (List Char) :=
  match closerOf? angles c with
  | some k => some (k :: ks)
  | none =>
    if isCloserOf angles c then if ks.head? = some c then some ks.tail else none
    else some ks

/-- The brackets that have to be closed behind a text, given those in front of it. -/
def openBehind? (angles : Bool) (ks : List Char) (t : Text) : Option (List Char) :=
  t.foldlM (bracketStep angles) ks

/-- Each bracket of the text is closed in it, and none but the innermost one. -/
def IsNested (angles : Bool) (t : Text) : Prop := openBehind? angles [] t = some []

instance (angles : Bool) (t : Text) : Decidable (IsNested angles t) :=
  inferInstanceAs (Decidable (_ = _))

theorem openBehind?_cons (c : Char) (t : Text) :
    openBehind? angles ks (c :: t) =
      (bracketStep angles ks c).bind fun ks => openBehind? angles ks t :=
  List.foldlM_cons

theorem openBehind?_append (s t : Text) :
    openBehind? angles ks (s ++ t) =
      (openBehind? angles ks s).bind fun ks => openBehind? angles ks t :=
  List.foldlM_append

/-- What a character does to the open brackets. -/
theorem bracketStep_eq_some_iff :
    bracketStep angles ks c = some ks' ↔
      (∃ k, closerOf? angles c = some k ∧ k :: ks = ks') ∨
      (closerOf? angles c = none ∧ isCloserOf angles c = true ∧ ks = c :: ks') ∨
      (closerOf? angles c = none ∧ isCloserOf angles c = false ∧ ks = ks') := by
  rw [bracketStep]
  cases closerOf? angles c with
  | some k => simp
  | none =>
    cases isCloserOf angles c with
    | false => simp
    | true =>
      cases ks with
      | nil => simp
      | cons k ks =>
        by_cases hk : k = c
        · simp [hk]
        · simp [hk]

theorem bracketStep_open (h : closerOf? angles c = some k) :
    bracketStep angles ks c = some (k :: ks) :=
  bracketStep_eq_some_iff.2 (.inl ⟨k, h, rfl⟩)

theorem bracketStep_close (ho : closerOf? angles c = none) (h : isCloserOf angles c = true) :
    bracketStep angles (c :: ks) c = some ks :=
  bracketStep_eq_some_iff.2 (.inr (.inl ⟨ho, h, rfl⟩))

theorem bracketStep_other (ho : closerOf? angles c = none) (h : isCloserOf angles c = false) :
    bracketStep angles ks c = some ks :=
  bracketStep_eq_some_iff.2 (.inr (.inr ⟨ho, h, rfl⟩))

/-- A character that is no bracket opens and closes nothing. -/
theorem bracketStep_of_isBracketOf (h : isBracketOf angles c = false) :
    bracketStep angles ks c = some ks := by
  rw [isBracketOf, Bool.or_eq_false_iff, Option.isSome_eq_false_iff, Option.isNone_iff_eq_none] at h
  exact bracketStep_other h.1 h.2

theorem openBehind?_singleton (c : Char) : openBehind? angles ks [c] = bracketStep angles ks c := by
  rw [openBehind?_cons]
  exact Option.bind_fun_some _

/-! ### Brackets around a text -/

/-- What is open around a text stays open. -/
theorem openBehind?_frame (h : openBehind? angles ks t = some ks') (js : List Char) :
    openBehind? angles (ks ++ js) t = some (ks' ++ js) := by
  induction t generalizing ks with
  | nil => exact congrArg (fun ks => some (ks ++ js)) (Option.some.inj h)
  | cons c t ih =>
    rw [openBehind?_cons] at h ⊢
    obtain ⟨ks₁, hstep, hrest⟩ := Option.bind_eq_some_iff.1 h
    have hframe : bracketStep angles (ks ++ js) c = some (ks₁ ++ js) := by
      rcases bracketStep_eq_some_iff.1 hstep with ⟨k, hk, rfl⟩ | ⟨ho, hk, rfl⟩ | ⟨ho, hk, rfl⟩
      · exact bracketStep_open hk
      · exact bracketStep_close ho hk
      · exact bracketStep_other ho hk
    rw [hframe, Option.bind_some, ih hrest]

theorem IsNested.openBehind?_eq (h : IsNested angles t) (ks : List Char) :
    openBehind? angles ks t = some ks :=
  openBehind?_frame h ks

/-! ### Angle brackets -/

/-- The brackets of code among those that are open. -/
def codeClosers (ks : List Char) : List Char := ks.filter (· ≠ '>')

theorem codeClosers_cons (h : k ≠ '>') (ks : List Char) :
    codeClosers (k :: ks) = k :: codeClosers ks :=
  List.filter_cons_of_pos (by simpa using h)

theorem codeClosers_angle (ks : List Char) : codeClosers ('>' :: ks) = codeClosers ks :=
  List.filter_cons_of_neg (by decide)

theorem closerOf?_false (c : Char) : closerOf? false c = closer? c := if_neg fun h => nomatch h.1

theorem isCloserOf_false (c : Char) : isCloserOf false c = isCloser c := Bool.false_or _

theorem isBracketOf_of_true (h : isBracketOf true c = false) : isBracketOf angles c = false := by
  cases angles with
  | true => exact h
  | false =>
    have hleft : c ≠ '<' := by
      rintro rfl
      cases h
    rw [isBracketOf, closerOf?, if_neg fun hc => hleft hc.2, Bool.or_eq_false_iff, isCloserOf,
      Bool.or_eq_false_iff] at h
    rw [isBracketOf, closerOf?_false, isCloserOf_false, h.1, h.2.2]
    rfl

theorem ne_angle_of_isCloser (h : isCloser k = true) : k ≠ '>' := by
  rintro rfl
  exact absurd h (by decide)

theorem closer?_eq_none_of_isCloser (h : isCloser k = true) : closer? k = none := by
  simp only [isCloser, Bool.or_eq_true, beq_iff_eq] at h
  rcases h with (rfl | rfl) | rfl
  all_goals rfl

/-- A step that sees angle brackets is one that does not. -/
theorem bracketStep_codeClosers (h : bracketStep true ks c = some ks') :
    bracketStep false (codeClosers ks) c = some (codeClosers ks') := by
  rw [bracketStep_eq_some_iff, closerOf?_false, isCloserOf_false]
  by_cases hleft : c = '<'
  · subst hleft
    obtain rfl : '>' :: ks = ks' := Option.some.inj h
    exact .inr (.inr ⟨rfl, rfl, (codeClosers_angle ks).symm⟩)
  · have hcode : closerOf? true c = closer? c := if_neg fun h => hleft h.2
    rcases bracketStep_eq_some_iff.1 h with ⟨k, hk, rfl⟩ | ⟨ho, hk, rfl⟩ | ⟨ho, hk, rfl⟩
    · have hcloser := isCloser_of_closer? (hcode ▸ hk)
      exact .inl ⟨k, hcode ▸ hk, (codeClosers_cons (ne_angle_of_isCloser hcloser) ks).symm⟩
    · by_cases hright : c = '>'
      · subst hright
        exact .inr (.inr ⟨rfl, rfl, codeClosers_angle ks'⟩)
      · have hcloser : isCloser c = true := by simpa [isCloserOf, hright] using hk
        exact .inr (.inl ⟨hcode ▸ ho, hcloser, codeClosers_cons hright ks'⟩)
    · have hcloser : isCloser c = false := by
        rw [isCloserOf, Bool.or_eq_false_iff] at hk
        exact hk.2
      exact .inr (.inr ⟨hcode ▸ ho, hcloser, rfl⟩)

/-- Brackets that are nested with angle brackets are nested without them. -/
theorem openBehind?_codeClosers (h : openBehind? true ks t = some ks') :
    openBehind? false (codeClosers ks) t = some (codeClosers ks') := by
  induction t generalizing ks with
  | nil => exact congrArg (fun ks => some (codeClosers ks)) (Option.some.inj h)
  | cons c t ih =>
    rw [openBehind?_cons] at h ⊢
    obtain ⟨ks₁, hstep, hrest⟩ := Option.bind_eq_some_iff.1 h
    rw [bracketStep_codeClosers hstep, Option.bind_some, ih hrest]

theorem IsNested.code (h : IsNested true t) : IsNested false t := openBehind?_codeClosers h

/-- Code with nested brackets closes none that is open around it, whatever its angle brackets do. -/
theorem exists_openBehind?_of_append {S : List Char} (hk : k ≠ '>')
    (hcode : (openBehind? false (codeClosers ks) t).isSome = true)
    (h : openBehind? true (ks ++ k :: js) t = some S) :
    ∃ ks', openBehind? true ks t = some ks' ∧ S = ks' ++ k :: js := by
  induction t generalizing ks with
  | nil => exact ⟨ks, rfl, (Option.some.inj h).symm⟩
  | cons c t ih =>
    rw [openBehind?_cons] at h ⊢
    obtain ⟨S₁, hstep, hrest⟩ := Option.bind_eq_some_iff.1 h
    -- only a bracket of code could close the one around the text, and those are nested
    have hinner : ∃ ks₁, bracketStep true ks c = some ks₁ ∧ S₁ = ks₁ ++ k :: js := by
      rcases bracketStep_eq_some_iff.1 hstep with ⟨k', hk', rfl⟩ | ⟨ho, hc, heq⟩ | ⟨ho, hc, rfl⟩
      · exact ⟨k' :: ks, bracketStep_open hk', rfl⟩
      · cases ks with
        | nil =>
          obtain ⟨rfl, -⟩ := List.cons.inj heq
          have hcloser : isCloser k = true := by simpa [isCloserOf, hk] using hc
          rw [openBehind?_cons] at hcode
          have hnone : bracketStep false (codeClosers []) k = none := by
            rw [bracketStep, closerOf?_false, closer?_eq_none_of_isCloser hcloser, isCloserOf_false,
              hcloser]
            rfl
          rw [hnone] at hcode
          cases hcode
        | cons k' ks =>
          obtain ⟨rfl, rfl⟩ := List.cons.inj heq
          exact ⟨ks, bracketStep_close ho hc, rfl⟩
      · exact ⟨ks, bracketStep_other ho hc, rfl⟩
    obtain ⟨ks₁, hks₁, rfl⟩ := hinner
    rw [openBehind?_cons, bracketStep_codeClosers hks₁, Option.bind_some] at hcode
    rw [hks₁, Option.bind_some]
    exact ih hcode hrest

/-- Round brackets around code close just if all brackets in the code do. -/
theorem openBehind?_parenthesised (hcode : IsNested false t) :
    openBehind? true ks ("(" ++ t ++ ")") = some ks' ↔ IsNested true t ∧ ks = ks' := by
  have hopen : openBehind? true ks "(" = some (')' :: ks) := rfl
  have hclose (S : List Char) : openBehind? true S ")" = bracketStep true S ')' :=
    openBehind?_singleton ')'
  rw [openBehind?_append, openBehind?_append, hopen, Option.bind_some, Option.bind_eq_some_iff]
  constructor
  · rintro ⟨S, hS, hstep⟩
    have hsome : (openBehind? false (codeClosers []) t).isSome = true := by
      rw [hcode.openBehind?_eq]
      rfl
    obtain ⟨ks₁, hks₁, rfl⟩ := exists_openBehind?_of_append (by decide) hsome hS
    have hclosers : codeClosers ks₁ = [] :=
      (Option.some.inj (hcode.symm.trans (openBehind?_codeClosers hks₁))).symm
    rw [hclose] at hstep
    cases ks₁ with
    | nil => exact ⟨hks₁, Option.some.inj hstep⟩
    | cons k ks₁ =>
      -- an angle bracket is open where the round one is closed
      by_cases hk : k = '>'
      · subst hk
        cases hstep
      · rw [codeClosers_cons hk] at hclosers
        cases hclosers
  · rintro ⟨ht, rfl⟩
    exact ⟨_, ht.openBehind?_eq _, rfl⟩

/-! ### How many brackets are open -/

/-- What a character adds to the number of open brackets. -/
def charHeight (c : Char) : Int :=
  if (closerOf? true c).isSome then 1 else if isCloserOf true c then -1 else 0

/-- How many more brackets a text opens than it closes. -/
def bracketHeight : Text → Int
  | [] => 0
  | c :: t => charHeight c + bracketHeight t

theorem bracketHeight_cons (c : Char) (t : Text) :
    bracketHeight (c :: t) = charHeight c + bracketHeight t := rfl

theorem bracketHeight_append (s t : Text) :
    bracketHeight (s ++ t) = bracketHeight s + bracketHeight t := by
  induction s with
  | nil => exact (Int.zero_add _).symm
  | cons c s ih => rw [List.cons_append, bracketHeight_cons, ih, bracketHeight_cons, Int.add_assoc]

theorem length_bracketStep (h : bracketStep true ks c = some ks') :
    (ks'.length : Int) = ks.length + charHeight c := by
  rcases bracketStep_eq_some_iff.1 h with ⟨k, hk, rfl⟩ | ⟨ho, hk, rfl⟩ | ⟨ho, hk, rfl⟩
  · simp [charHeight, hk]
  · have hheight : charHeight c = -1 := by simp [charHeight, ho, hk]
    rw [hheight, List.length_cons]
    omega
  · simp [charHeight, ho, hk]

/-- The height tells how many brackets are open. -/
theorem length_openBehind? (h : openBehind? true ks t = some ks') :
    (ks'.length : Int) = ks.length + bracketHeight t := by
  induction t generalizing ks with
  | nil =>
    obtain rfl : ks = ks' := Option.some.inj h
    exact (Int.add_zero _).symm
  | cons c t ih =>
    rw [openBehind?_cons] at h
    obtain ⟨ks₁, hstep, hrest⟩ := Option.bind_eq_some_iff.1 h
    rw [ih hrest, length_bracketStep hstep, bracketHeight_cons, Int.add_assoc]

/-- The beginning of a text with nested brackets has nested brackets where it closes as many as it
opens. -/
theorem IsNested.isNested_iff_of_isPrefix (h : IsNested true t) (hs : s <+: t) :
    IsNested true s ↔ bracketHeight s = 0 := by
  obtain ⟨u, rfl⟩ := hs
  rw [IsNested, openBehind?_append] at h
  obtain ⟨ks, hks, -⟩ := Option.bind_eq_some_iff.1 h
  have hlength := length_openBehind? hks
  rw [List.length_nil, Int.ofNat_zero, Int.zero_add] at hlength
  rw [IsNested, hks, ← hlength, Option.some.injEq, Int.natCast_eq_zero, List.length_eq_zero_iff]

theorem IsNested.bracketHeight_eq_zero (h : IsNested true t) : bracketHeight t = 0 :=
  (h.isNested_iff_of_isPrefix List.prefix_rfl).1 h

/-! ### Plain code -/

/-- Code without strings and comments. -/
structure IsPlainCode (t : Text) : Prop where
  unquoted : ∀ c ∈ t, isQuote c = false
  no_line : ¬"//".toList <:+: t
  no_block : ¬"/*".toList <:+: t

namespace IsPlainCode

theorem of_isInfix (h : IsPlainCode t) (hs : s <:+: t) : IsPlainCode s where
  unquoted c hc := h.unquoted c (hs.subset hc)
  no_line hline := h.no_line (hline.trans hs)
  no_block hblock := h.no_block (hblock.trans hs)

theorem tail (h : IsPlainCode (c :: t)) : IsPlainCode t :=
  h.of_isInfix (List.suffix_cons c t).isInfix

/-- A slash opens no comment. -/
theorem noComment (h : IsPlainCode ('/' :: t)) : NoComment t := by
  constructor
  · intro hhead
    obtain ⟨u, rfl⟩ := List.head?_eq_some_iff.1 hhead
    exact h.no_line ⟨[], u, rfl⟩
  · intro hhead
    obtain ⟨u, rfl⟩ := List.head?_eq_some_iff.1 hhead
    exact h.no_block ⟨[], u, rfl⟩

end IsPlainCode

/-! ### The scan for the end of a group -/

/-- The scan for closing brackets goes over plain code with the brackets that are open in it. -/
theorem closing?_openBehind? (hp : IsPlainCode t) (hx : NoComment x)
    (h : openBehind? false ks t = some ks') (k : Char) (js : List Char) :
    closing? (ks ++ k :: js) (t ++ x) = closing? (ks' ++ k :: js) x := by
  induction t generalizing ks with
  | nil => rw [← Option.some.inj h, List.nil_append]
  | cons c t ih =>
    rw [openBehind?_cons] at h
    obtain ⟨ks₁, hstep, hrest⟩ := Option.bind_eq_some_iff.1 h
    rw [← ih hp.tail hrest]
    obtain ⟨k₀, js₀, hstack⟩ := List.exists_cons_of_ne_nil
      (List.append_ne_nil_of_right_ne_nil ks (List.cons_ne_nil k js))
    rw [bracketStep_eq_some_iff, closerOf?_false, isCloserOf_false] at hstep
    rcases hstep with ⟨k', hk, rfl⟩ | ⟨ho, hk, rfl⟩ | ⟨ho, hk, rfl⟩
    · rw [List.cons_append, List.cons_append, hstack, closing?_open hk]
    · rw [List.cons_append, List.cons_append, closing?_close hk]
    · by_cases hslash : c = '/'
      · subst hslash
        have hhead : NoComment (t ++ x) := by
          cases t with
          | nil => exact hx
          | cons d t => exact hp.noComment
        rw [hstack, List.cons_append, closing?_slash hhead]
      · have hmark : isMark c = false := by
          simp [isMark, hp.unquoted c List.mem_cons_self, hslash, ho, hk]
        rw [hstack, List.cons_append, closing?_plain hmark]

/-- Plain code with nested brackets is what its own brackets enclose. -/
theorem group?_of_isNested {o : Char} (hk : closer? o = some k) (hp : IsPlainCode t)
    (h : IsNested false t) (x : Text) :
    group? (o :: (t ++ k :: x)) = some (o :: (t ++ [k]), x) := by
  have hclose := isCloser_of_closer? hk
  have hclosing := closing?_openBehind? hp (noComment_of_isCloser hclose x) h k []
  rw [List.nil_append, closing?_close hclose, closing?] at hclosing
  refine group?_eq_some_iff.2 ⟨?_, by simp⟩
  rw [afterGroup?, hk, Option.bind_some, hclosing]

/-- The brackets in the body of a group are nested. -/
theorem GroupBody.isNested (h : GroupBody t) (hp : IsPlainCode t) : IsNested false t := by
  have hother {c : Char} {t : Text} (ho : closer? c = none) (hk : isCloser c = false)
      (h : IsNested false t) : IsNested false (c :: t) := by
    rw [IsNested, openBehind?_cons, bracketStep_other (closerOf?_false c ▸ ho)
      (isCloserOf_false c ▸ hk), Option.bind_some]
    exact h
  induction h with
  | nil => rfl
  | @plain c t hc _ ih =>
    rw [isMark, Bool.or_eq_false_iff, Bool.or_eq_false_iff] at hc
    exact hother (by simpa using hc.1.2) hc.2 (ih hp.tail)
  | slash _ _ ih => exact hother rfl rfl (ih hp.tail)
  | @quoted q s t hq _ _ _ =>
    have hplain := hp.unquoted q List.mem_cons_self
    rw [hq] at hplain
    cases hplain
  | @block s t _ _ _ => exact absurd ⟨[], _, rfl⟩ hp.no_block
  | @line s t _ _ _ => exact absurd ⟨[], _, rfl⟩ hp.no_line
  | @group o k s t hk _ _ ihs ih =>
    have hclose := isCloser_of_closer? hk
    have hbody := ihs (hp.of_isInfix ⟨[o], k :: t, rfl⟩)
    have hrest := ih (hp.of_isInfix ⟨o :: (s ++ [k]), [], by simp⟩)
    rw [IsNested, openBehind?_cons, bracketStep_open ((closerOf?_false o).trans hk),
      Option.bind_some, openBehind?_append, hbody.openBehind?_eq, Option.bind_some,
      openBehind?_cons,
      bracketStep_close ((closerOf?_false k).trans (closer?_eq_none_of_isCloser hclose))
        ((isCloserOf_false k).trans hclose), Option.bind_some]
    exact hrest

/-! ### The scan for separators -/

/-- What the scan for separators takes apart has nested brackets, up to what is open in front. -/
theorem exists_piecesAt (sep : Char) (hsep : isMark sep = false) (hp : IsPlainCode t)
    (h : openBehind? false ks t = some []) :
    ∃ p ps, piecesAt (some sep) ks.length t = p :: ps ∧ openBehind? false ks p = some [] ∧
      ∀ q ∈ ps, IsNested false q := by
  induction t generalizing ks with
  | nil =>
    obtain rfl := Option.some.inj h
    exact ⟨[], [], by rw [piecesAt], rfl, by simp⟩
  | cons c t ih =>
    rw [openBehind?_cons] at h
    obtain ⟨ks₁, hstep, hrest⟩ := Option.bind_eq_some_iff.1 h
    obtain ⟨p, ps, hpieces, hfirst, hothers⟩ := ih hp.tail hrest
    have hprepend : openBehind? false ks (c :: p) = some [] := by
      rw [openBehind?_cons, hstep, Option.bind_some, hfirst]
    rw [bracketStep_eq_some_iff, closerOf?_false, isCloserOf_false] at hstep
    rcases hstep with ⟨k, hk, rfl⟩ | ⟨ho, hk, rfl⟩ | ⟨ho, hk, rfl⟩
    · rw [List.length_cons, Int.natCast_succ] at hpieces
      exact ⟨c :: p, ps, by rw [piecesAt_open hk, hpieces]; rfl, hprepend, hothers⟩
    · have hdepth : (((c :: ks₁).length : Nat) : Int) - 1 = ks₁.length := by simp
      exact ⟨c :: p, ps, by rw [piecesAt_close hk, hdepth, hpieces]; rfl, hprepend, hothers⟩
    · have hmark : isMark c = false ∨ c = '/' := isMark_eq_false_or_eq_slash_iff.2
        ⟨by simp [hp.unquoted c List.mem_cons_self], by simp [ho], by simp [hk]⟩
      by_cases hcut : some c = some sep ∧ (ks.length : Int) = 0
      · -- behind a separator nothing is open
        obtain ⟨hc, hzero⟩ := hcut
        obtain rfl := Option.some.inj hc
        obtain rfl : ks = [] := List.length_eq_zero_iff.1 (Int.natCast_eq_zero.1 hzero)
        rw [List.length_nil] at hpieces ⊢
        refine ⟨[], p :: ps, ?_, rfl, List.forall_mem_cons.2 ⟨hfirst, hothers⟩⟩
        rw [Int.ofNat_zero] at hpieces ⊢
        rw [piecesAt_separator (.inl hsep), hpieces]
      · exact ⟨c :: p, ps, by rw [piecesAt_plain hmark hcut, hpieces]; rfl, hprepend, hothers⟩

end DocDecl

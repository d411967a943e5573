import DocDecl.Proofs.LineEnds.Code
import DocDecl.Proofs.Literal.Tokens

/-!
# Literals and line ends

A literal is read alike where its lines end with carriage returns: these are blanks between the
tokens, and inside of a quoted text they are characters like others. So the same value is read, with
carriage returns at the line ends of its texts and keys, or none.

## Main definitions

* `Literal.dosLines` : a value with carriage returns at the line ends of its texts and keys.
* `Mirrors` : steps that succeed together, with related results.

## Main results

* `longestAt_dosLines_iff` : numbers and identifiers.
* `readValue_dosLines` : values.
* `parseLiteral?_dosLines` : texts that are one literal.
-/

namespace DocDecl

open Text LiteralGrammar

/-! ### Values -/

namespace Literal

mutual

/-- The value with carriage returns at the line ends of its texts and keys. -/
def dosLines : Literal → Literal
  | object members => object (dosMembers members)
  | array items => array (dosItems items)
  | string t => string (DocDecl.dosLines t)
  | number t => number t
  | boolean b => boolean b
  | null => null

/-- Items with carriage returns. -/
def dosItems : List Literal → List Literal
  | [] => []
  | v :: vs => dosLines v :: dosItems vs

/-- Members with carriage returns. -/
def dosMembers : List (Text × Literal) → List (Text × Literal)
  | [] => []
  | (key, v) :: ms => (DocDecl.dosLines key, dosLines v) :: dosMembers ms

end

end Literal

/-- Different keys stay different, so a member that is set again keeps its place. -/
theorem dosMembers_putMember (key : Text) (v : Literal) (ms : List (Text × Literal)) :
    Literal.dosMembers (putMember key v ms) =
      putMember (dosLines key) v.dosLines (Literal.dosMembers ms) := by
  induction ms with
  | nil => rfl
  | cons m ms ih =>
    obtain ⟨k, w⟩ := m
    rw [putMember, Literal.dosMembers, putMember]
    simp only [dosLines_injective.eq_iff]
    split_ifs
    · rfl
    · rw [Literal.dosMembers, ih]

/-! ### Steps that succeed together -/

section Mirrors

variable {ε α α' β β' : Type} {R : α → α' → Prop} {S : β → β' → Prop}

/-- Two steps succeed with related results, or both fail. -/
inductive Mirrors (R : α → α' → Prop) : Except ε α → Except ε α' → Prop
  | ok {a : α} {a' : α'} (h : R a a') : Mirrors R (.ok a) (.ok a')
  | error {e e' : ε} : Mirrors R (.error e) (.error e')

theorem Mirrors.bind {x : Except ε α} {x' : Except ε α'} {f : α → Except ε β}
    {f' : α' → Except ε β'} (h : Mirrors R x x')
    (hf : ∀ a a', R a a' → Mirrors S (f a) (f' a')) : Mirrors S (x >>= f) (x' >>= f') := by
  cases h with
  | ok h => exact hf _ _ h
  | error => exact .error

/-- A reading of a text with carriage returns gives the same value, up to `f`, and leaves the same
text with carriage returns. -/
def Parsed.Mirrors {t t' : Text} (f : α → α) (p : Parsed α t) (p' : Parsed α t') : Prop :=
  p'.value = f p.value ∧ p'.rest = dosLines p.rest

/-- Behind readings that mirror each other, the rest of the work has to be compared on the same
texts. -/
theorem Mirrors.read {t t' : Text} {f : α → α} {x : Reading α t} {x' : Reading α t'}
    {g : Parsed α t → Except LiteralFailure β} {g' : Parsed α t' → Except LiteralFailure β'}
    (h : Mirrors (Parsed.Mirrors f) x x')
    (hg : ∀ a r hr hr', Mirrors S (g ⟨a, r, hr⟩) (g' ⟨f a, dosLines r, hr'⟩)) :
    Mirrors S (x >>= g) (x' >>= g') := by
  refine h.bind ?_
  rintro ⟨a, r, hr⟩ ⟨a', r', hr'⟩ ⟨rfl, rfl⟩
  exact hg a r hr hr'

end Mirrors

/-! ### Trivia -/

theorem afterBlockComment?_dosLines (t : Text) :
    afterBlockComment? (dosLines t) = (afterBlockComment? t).map dosLines := by
  have hplain {c : Char} {t : Text} (h : c = '*' → t.head? ≠ some '/') :
      afterBlockComment? (c :: t) = afterBlockComment? t := by
    rw [afterBlockComment?]
    rintro r rfl rfl
    exact h rfl rfl
  fun_induction afterBlockComment? t with
  | case1 => rfl
  | case2 t =>
    rw [dosLines_cons (by decide), dosLines_cons (by decide)]
    rfl
  | case3 c t h ih =>
    by_cases hn : c = '\n'
    · subst hn
      rw [dosLines_feed, hplain (by simp), hplain (by simp), ih]
    · rw [dosLines_cons hn, hplain, ih]
      rintro rfl hs
      obtain ⟨r, rfl⟩ := List.head?_eq_some_iff.1 ((head?_dosLines_eq_some_iff (by decide)).1 hs)
      exact h r rfl rfl

/-- The text behind trivia, if the comments in it are closed. -/
def behindTrivia? (t : Text) : Option Text := (skipTrivia t).toOption.map Subtype.val

theorem behindTrivia?_nil : behindTrivia? [] = some [] := by
  rw [behindTrivia?, skipTrivia]
  rfl

theorem behindTrivia?_blank {c : Char} (hc : isBlank c = true) (t : Text) :
    behindTrivia? (c :: t) = behindTrivia? t := by
  rw [behindTrivia?, skipTrivia, if_pos hc, behindTrivia?]
  cases skipTrivia t <;> rfl

theorem behindTrivia?_line (t : Text) :
    behindTrivia? ('/' :: '/' :: t) = behindTrivia? (spanLineComment t).2 := by
  rw [behindTrivia?, skipTrivia, if_neg (by decide), if_pos ⟨rfl, rfl⟩, behindTrivia?]
  simp only [List.tail_cons]
  cases skipTrivia (spanLineComment t).2 <;> rfl

theorem behindTrivia?_block (t : Text) :
    behindTrivia? ('/' :: '*' :: t) = (afterBlockComment? t).bind behindTrivia? := by
  rw [behindTrivia?, skipTrivia, if_neg (by decide), if_neg (by simp), if_pos ⟨rfl, rfl⟩]
  simp only [List.tail_cons]
  split
  · next s hs =>
    have hs : afterBlockComment? t = some s := hs
    simp only [hs, Option.bind_some, behindTrivia?]
    cases skipTrivia s <;> rfl
  · next hs =>
    have hs : afterBlockComment? t = none := hs
    simp only [hs]
    rfl

theorem behindTrivia?_token {c : Char} {t : Text} (hb : ¬isBlank c = true)
    (hl : ¬(c = '/' ∧ t.head? = some '/')) (hc : ¬(c = '/' ∧ t.head? = some '*')) :
    behindTrivia? (c :: t) = some (c :: t) := by
  rw [behindTrivia?, skipTrivia, if_neg hb, if_neg hl, if_neg hc]
  rfl

theorem behindTrivia?_dosLines (t : Text) :
    behindTrivia? (dosLines t) = (behindTrivia? t).map dosLines := by
  have hhead {c : Char} (hc : isBreak c = false) (t : Text) :
      (dosLines t).head? = some c ↔ t.head? = some c := head?_dosLines_eq_some_iff hc
  fun_induction skipTrivia t with
  | case1 =>
    rw [dosLines_nil, behindTrivia?_nil]
    rfl
  | case2 c t hc ih =>
    rw [behindTrivia?_blank hc, ← ih]
    by_cases hn : c = '\n'
    · rw [hn, dosLines_feed, behindTrivia?_blank (by decide), behindTrivia?_blank (by decide)]
    · rw [dosLines_cons hn, behindTrivia?_blank hc]
  | case3 c t hb hl hle ih =>
    obtain ⟨rfl, hl⟩ := hl
    obtain ⟨u, rfl⟩ := List.head?_eq_some_iff.1 hl
    rw [dosLines_cons (by decide), dosLines_cons (by decide), behindTrivia?_line,
      behindTrivia?_line]
    rw [List.tail_cons] at ih
    rcases spanLineComment_dosLines u with ⟨h, hdos⟩ | ⟨r, h, hdos⟩
    · rw [h, hdos, behindTrivia?_nil]
      rfl
    · -- the carriage return belongs to the comment, or is skipped behind it
      rw [h, dosLines_feed, behindTrivia?_blank (by decide)] at ih
      rw [h, hdos, ih]
  | case4 c t hb hl hc s hs hle ih =>
    obtain ⟨rfl, hc⟩ := hc
    obtain ⟨u, rfl⟩ := List.head?_eq_some_iff.1 hc
    rw [List.tail_cons] at hs
    rw [dosLines_cons (by decide), dosLines_cons (by decide), behindTrivia?_block,
      behindTrivia?_block, afterBlockComment?_dosLines, hs]
    exact ih
  | case5 c t hb hl hc hs =>
    obtain ⟨rfl, hc⟩ := hc
    obtain ⟨u, rfl⟩ := List.head?_eq_some_iff.1 hc
    rw [List.tail_cons] at hs
    rw [dosLines_cons (by decide), dosLines_cons (by decide), behindTrivia?_block,
      behindTrivia?_block, afterBlockComment?_dosLines, hs]
    rfl
  | case6 c t hb hl hc =>
    have hn : c ≠ '\n' := by
      rintro rfl
      exact hb (by decide)
    have hl' := mt (And.imp_right (hhead (by decide) t).1) hl
    have hc' := mt (And.imp_right (hhead (by decide) t).1) hc
    rw [behindTrivia?_token hb hl hc, dosLines_cons hn, behindTrivia?_token hb hl' hc',
      Option.map_some, dosLines_cons hn]

theorem skipTrivia_dosLines (t : Text) :
    Mirrors (fun p p' => p'.1 = dosLines p.1) (skipTrivia t) (skipTrivia (dosLines t)) := by
  have h := behindTrivia?_dosLines t
  rw [behindTrivia?, behindTrivia?] at h
  cases hx : skipTrivia t with
  | error e =>
    cases hx' : skipTrivia (dosLines t) with
    | error e' => exact .error
    | ok p' => simp [hx, hx', Except.toOption] at h
  | ok p =>
    cases hx' : skipTrivia (dosLines t) with
    | error e' => simp [hx, hx', Except.toOption] at h
    | ok p' =>
      rw [hx, hx'] at h
      exact .ok (Option.some.inj h)

/-! ### Tokens -/

section Quoted

variable {q : Char}

theorem quotedContent_plain {c : Char} {t : Text} (hb : c = '\\' → t = [])
    (hd : ¬(q = '\x60' ∧ c = '$' ∧ t.head? = some '\x7b')) (hc : c ≠ q) :
    quotedContent q (c :: t) = (quotedContent q t).map fun p => (c :: p.1, p.2) := by
  rw [quotedContent, if_neg hd, if_neg hc]
  rintro d r rfl rfl
  exact List.cons_ne_nil d r (hb rfl)

variable (hq : isQuote q = true)

include hq

theorem quotedContent_break {c : Char} (hc : isBreak c = true) (t : Text) :
    quotedContent q (c :: t) = (quotedContent q t).map fun p => (c :: p.1, p.2) := by
  have hne {d : Char} (hd : isBreak d = false) : c ≠ d := by
    rintro rfl
    exact absurd hc (by simp [hd])
  exact quotedContent_plain (fun h => absurd h (hne rfl)) (fun h => hne rfl h.2.1)
    (hne (isBreak_eq_false.2 (isBreak_of_isQuote hq)))

theorem quotedContent_dosLines (t : Text) :
    quotedContent q (dosLines t) = (quotedContent q t).map (Prod.map dosLines dosLines) := by
  have hmap {c : Char} (hn : c ≠ '\n') (x : Except LiteralCause (Text × Text)) :
      ((x.map (Prod.map dosLines dosLines)).map fun p => (c :: p.1, p.2)) =
        (x.map fun p => (c :: p.1, p.2)).map (Prod.map dosLines dosLines) := by
    cases x with
    | error e => rfl
    | ok p => exact congrArg (fun s => Except.ok (s, dosLines p.2)) (dosLines_cons hn p.1).symm
  fun_induction quotedContent q t with
  | case1 => rfl
  | case2 c t ih =>
    rw [dosLines_cons (by decide)]
    by_cases hn : c = '\n'
    · rw [hn, dosLines_feed, quotedContent, quotedContent_break hq rfl, ih]
      cases quotedContent q t <;> rfl
    · rw [dosLines_cons hn, quotedContent, ih, hmap hn]
  | case3 c t hne hd =>
    obtain ⟨rfl, rfl, hd⟩ := hd
    rw [dosLines_cons (by decide), quotedContent,
      if_pos ⟨rfl, rfl, (head?_dosLines_eq_some_iff (by decide)).2 hd⟩]
    · rfl
    · exact fun _ _ h _ => absurd h (by decide)
  | case4 t hne hd =>
    rw [dosLines_cons (isBreak_of_isQuote hq).2, quotedContent, if_neg, if_pos rfl]
    · rfl
    · exact fun h => hd ⟨h.1, h.2.1, (head?_dosLines_eq_some_iff (by decide)).1 h.2.2⟩
    · rintro _ _ rfl _
      exact absurd hq (by decide)
  | case5 c t hne hd hc ih =>
    by_cases hn : c = '\n'
    · rw [hn, dosLines_feed, quotedContent_break hq rfl, quotedContent_break hq rfl, ih]
      cases quotedContent q t <;> rfl
    · rw [dosLines_cons hn, quotedContent_plain _ _ hc, ih, hmap hn]
      · -- a backslash is plain at the end of the text only
        intro hb
        cases t with
        | nil => rfl
        | cons d t => exact (hne d t hb rfl).elim
      · exact fun h => hd ⟨h.1, h.2.1, (head?_dosLines_eq_some_iff (by decide)).1 h.2.2⟩

theorem readString_dosLines (t : Text) :
    Mirrors (Parsed.Mirrors dosLines) (readString q t) (readString q (dosLines t)) := by
  have h := quotedContent_dosLines hq t
  rw [readString, readString]
  split
  · next p hp =>
    rw [hp] at h
    split
    · next p' hp' =>
      rw [h] at hp'
      cases hp'
      exact .ok ⟨rfl, rfl⟩
    · next e he =>
      rw [h] at he
      cases he
  · next e he =>
    rw [he] at h
    split
    · next p' hp' =>
      rw [h] at hp'
      cases hp'
    · exact .error

end Quoted

/-- Two readings mirror each other where either yields what the other does. -/
theorem mirrors_iff_yields {α : Type} {t t' : Text} {x : Reading α t} {x' : Reading α t'}
    {f : α → α} :
    Mirrors (Parsed.Mirrors f) x x' ↔
      ∀ a' r', Yields x' a' r' ↔ ∃ a r, Yields x a r ∧ a' = f a ∧ r' = dosLines r := by
  constructor
  · rintro h a' r'
    cases h with
    | error => simp [Yields]
    | @ok p p' h =>
      obtain ⟨b', s', hl'⟩ := p'
      obtain ⟨rfl, rfl⟩ := h
      constructor
      · rintro ⟨_, h⟩
        cases h
        exact ⟨_, _, ⟨p.shorter, rfl⟩, rfl, rfl⟩
      · rintro ⟨_, _, ⟨_, h⟩, rfl, rfl⟩
        cases h
        exact ⟨hl', rfl⟩
  · intro h
    cases x with
    | ok p =>
      obtain ⟨hl, rfl⟩ := (h _ _).2 ⟨_, _, ⟨p.shorter, rfl⟩, rfl, rfl⟩
      exact .ok ⟨rfl, rfl⟩
    | error e =>
      cases x' with
      | ok p' =>
        obtain ⟨_, _, ⟨_, h⟩, -⟩ := (h _ _).1 ⟨p'.shorter, rfl⟩
        cases h
      | error e' => exact .error

/-- The longest beginning in a class of texts on one line. -/
theorem longestAt_dosLines_iff {P : Text → Prop} (hP : ∀ {w}, P w → ∀ c ∈ w, isBreak c = false)
    {t w r' : Text} :
    LongestAt P (dosLines t) w r' ↔ ∃ r, LongestAt P t w r ∧ r' = dosLines r := by
  have hdos {w r : Text} (hw : P w) : dosLines (w ++ r) = w ++ dosLines r := by
    rw [dosLines_append, dosLines_of_oneLine (hP hw)]
  have hrest {w r' : Text} (hw : P w) (h : dosLines t = w ++ r') :
      ∃ r, t = w ++ r ∧ r' = dosLines r := by
    have hafter := after?_dosLines (hP hw) t
    rw [Text.after?_eq_some_iff.2 h] at hafter
    obtain ⟨r, hr, rfl⟩ := Option.map_eq_some_iff.1 hafter.symm
    exact ⟨r, Text.after?_eq_some_iff.1 hr, rfl⟩
  constructor
  · intro h
    obtain ⟨r, hr, rfl⟩ := hrest h.mem h.eq_append
    exact ⟨r, ⟨hr, h.mem, fun w' s ht hw' => h.length_le w' (dosLines s) (ht ▸ hdos hw') hw'⟩, rfl⟩
  · rintro ⟨r, h, rfl⟩
    refine ⟨h.eq_append ▸ hdos h.mem, h.mem, fun w' s ht hw' => ?_⟩
    obtain ⟨s₀, hs₀, -⟩ := hrest hw' ht
    exact h.length_le w' s₀ hs₀ hw'

theorem isBreak_of_isAtomChar {c : Char} (hc : isAtomChar c = true) : isBreak c = false := by
  rw [isBreak_eq_false]
  constructor
  · rintro rfl
    exact absurd hc (by decide)
  · rintro rfl
    exact absurd hc (by decide)

theorem isBreak_of_mem_isNumber {w : Text} (h : IsNumber w) : ∀ c ∈ w, isBreak c = false :=
  fun c hc => isBreak_of_isAtomChar (h.class_of_mem c hc)

theorem isBreak_of_mem_isIdentifier {w : Text} (h : isIdentifier w = true) :
    ∀ c ∈ w, isBreak c = false :=
  fun c hc => isBreak_of_isAtomChar (isAtomChar_of_mem_isIdentifier h c hc)

theorem readAtom_dosLines (t : Text) :
    Mirrors (Parsed.Mirrors Literal.dosLines) (readAtom t) (readAtom (dosLines t)) := by
  have hword {w : Text} {v : Literal} (h : LiteralGrammar.Word w v) : v.dosLines = v := by
    cases h <;> rfl
  refine mirrors_iff_yields.2 fun v' r' => ?_
  simp only [yields_readAtom_iff, longestAt_dosLines_iff isBreak_of_mem_isNumber,
    longestAt_dosLines_iff isBreak_of_mem_isIdentifier]
  constructor
  · rintro (⟨w, rfl, r, hw, rfl⟩ | ⟨w, hv, r, hw, rfl⟩)
    · exact ⟨_, r, .inl ⟨w, rfl, hw⟩, rfl, rfl⟩
    · exact ⟨v', r, .inr ⟨w, hv, hw⟩, (hword hv).symm, rfl⟩
  · rintro ⟨v, r, ⟨w, rfl, hw⟩ | ⟨w, hv, hw⟩, rfl, rfl⟩
    · exact .inl ⟨w, rfl, r, hw, rfl⟩
    · exact .inr ⟨w, (hword hv).symm ▸ hv, r, hw, rfl⟩

theorem readAtom_break {c : Char} (hc : isBreak c = true) (t : Text) :
    ∃ e, readAtom (c :: t) = .error e := by
  have hatom : isAtomChar c = false := by
    cases h : isAtomChar c with
    | false => rfl
    | true => exact absurd hc (by simp [isBreak_of_isAtomChar h])
  cases h : readAtom (c :: t) with
  | error e => exact ⟨e, rfl⟩
  | ok p =>
    rcases yields_readAtom_iff.1 (yields_of_eq_ok h) with ⟨w, -, hw⟩ | ⟨w, -, hw⟩
    · exact absurd rfl ((AtomAt.of_number hw).head?_ne hatom)
    · exact absurd rfl ((AtomAt.of_identifier hw).head?_ne hatom)

theorem exists_eq_cons_of_dosLines {c : Char} (hc : isBreak c = false) {t r' : Text}
    (h : dosLines t = c :: r') : ∃ r, t = c :: r ∧ r' = dosLines r := by
  obtain ⟨r, rfl⟩ := List.head?_eq_some_iff.1
    ((head?_dosLines_eq_some_iff (t := t) hc).1 (by rw [h]; rfl))
  rw [dosLines_cons (isBreak_eq_false.1 hc).2] at h
  exact ⟨r, rfl, (List.cons.inj h).2.symm⟩

/-- Keys in quotes may have line ends, other keys have none. -/
theorem readKey_dosLines (t : Text) :
    Mirrors (Parsed.Mirrors dosLines) (readKey t) (readKey (dosLines t)) := by
  have hquoted {q : Char} (hq : q = '"' ∨ q = '\'') (t k' r' : Text) :
      Quoted q (dosLines t) k' r' ↔ ∃ k r, Quoted q t k r ∧ k' = dosLines k ∧ r' = dosLines r := by
    have hback : q ≠ '\\' := by rcases hq with rfl | rfl <;> decide
    have h := mirrors_iff_yields.1 (readString_dosLines (isQuote_iff.2 (hq.imp_right .inl)) t) k' r'
    simpa only [yields_readString_iff hback] using h
  refine mirrors_iff_yields.2 fun k' r' => ?_
  simp only [yields_readKey_iff]
  constructor
  · intro h
    generalize hu : dosLines t = u at h
    cases h with
    | @quoted q u _ _ hq h =>
      obtain ⟨s, rfl, rfl⟩ := exists_eq_cons_of_dosLines (by rcases hq with rfl | rfl <;> decide) hu
      obtain ⟨k, r, hk, rfl, rfl⟩ := (hquoted hq _ _ _).1 h
      exact ⟨k, r, .quoted hq hk, rfl, rfl⟩
    | identifier h =>
      obtain ⟨r, hk, rfl⟩ := (longestAt_dosLines_iff isBreak_of_mem_isIdentifier).1 (hu ▸ h)
      exact ⟨k', r, .identifier hk, (dosLines_of_oneLine (isBreak_of_mem_isIdentifier hk.mem)).symm,
        rfl⟩
    | number h =>
      obtain ⟨r, hk, rfl⟩ := (longestAt_dosLines_iff isBreak_of_mem_isNumber).1 (hu ▸ h)
      exact ⟨k', r, .number hk, (dosLines_of_oneLine (isBreak_of_mem_isNumber hk.mem)).symm, rfl⟩
  · rintro ⟨k, r, h, rfl, rfl⟩
    cases h with
    | @quoted q u _ _ hq h =>
      rw [dosLines_cons (by rcases hq with rfl | rfl <;> decide)]
      exact .quoted hq ((hquoted hq _ _ _).2 ⟨k, r, h, rfl, rfl⟩)
    | identifier h =>
      rw [dosLines_of_oneLine (isBreak_of_mem_isIdentifier h.mem)]
      exact .identifier ((longestAt_dosLines_iff isBreak_of_mem_isIdentifier).2 ⟨r, h, rfl⟩)
    | number h =>
      rw [dosLines_of_oneLine (isBreak_of_mem_isNumber h.mem)]
      exact .number ((longestAt_dosLines_iff isBreak_of_mem_isNumber).2 ⟨r, h, rfl⟩)

/-! ### Marks -/

theorem readColon_dosLines (t : Text) :
    Mirrors (Parsed.Mirrors id) (readColon t) (readColon (dosLines t)) := by
  refine (skipTrivia_dosLines t).bind ?_
  rintro ⟨s, hs⟩ ⟨s', hs'⟩ rfl
  induction s using Text.feed_induction with
  | nil => exact .error
  | feed s => exact .error
  | cons c s hc =>
    generalize hd : dosLines (c :: s) = s' at hs'
    rw [dosLines_cons hc] at hd
    subst hd
    by_cases hcolon : c = ':'
    · subst hcolon
      exact .ok ⟨rfl, rfl⟩
    · simp only [hcolon, if_false]
      exact .error

theorem readSeparator_dosLines {closer : Char} (hcloser : isBreak closer = false) (t : Text) :
    Mirrors (Parsed.Mirrors id) (readSeparator closer t) (readSeparator closer (dosLines t)) := by
  refine (skipTrivia_dosLines t).bind ?_
  rintro ⟨s, hs⟩ ⟨s', hs'⟩ rfl
  have hne := isBreak_eq_false.1 hcloser
  induction s using Text.feed_induction with
  | nil => exact .error
  | feed s =>
    simp only [dosLines_feed, Ne.symm hne.1, Ne.symm hne.2, if_false]
    exact .error
  | cons c s hc =>
    generalize hd : dosLines (c :: s) = s' at hs'
    rw [dosLines_cons hc] at hd
    subst hd
    by_cases hcomma : c = ','
    · subst hcomma
      exact .ok ⟨rfl, rfl⟩
    · by_cases hcl : c = closer
      · subst hcl
        simp only [hcomma, if_false, if_true]
        exact .ok (And.intro rfl rfl)
      · simp only [hcomma, hcl, if_false]
        exact .error

/-! ### Members and items -/

section Inside

variable {value : (t : Text) → Reading Literal t}
  (hvalue : ∀ t, Mirrors (Parsed.Mirrors Literal.dosLines) (value t) (value (dosLines t)))

include hvalue

theorem readMembers_dosLines (ms : List (Text × Literal)) (t : Text) :
    Mirrors (Parsed.Mirrors Literal.dosMembers) (readMembers value ms t)
      (readMembers value (Literal.dosMembers ms) (dosLines t)) := by
  induction hlen : t.length using Nat.strongRecOn generalizing ms t with
  | ind l ih =>
    rw [readMembers, readMembers]
    refine (skipTrivia_dosLines t).bind ?_
    rintro ⟨s, hs⟩ ⟨s', hs'⟩ rfl
    dsimp only
    have hclose := head?_dosLines_eq_some_iff (t := s) (c := '\x7d') (by decide)
    by_cases hc : s.head? = some '\x7d'
    · rw [dif_pos hc, dif_pos (hclose.2 hc)]
      exact .ok ⟨rfl, tail_dosLines (by decide) hc⟩
    · rw [dif_neg hc, dif_neg (mt hclose.1 hc)]
      refine (readKey_dosLines s).read fun k r₁ h₁ _ => ?_
      refine (readColon_dosLines r₁).read fun _ r₂ h₂ _ => ?_
      refine (hvalue r₂).read fun v r₃ h₃ _ => ?_
      refine (readSeparator_dosLines (by decide) r₃).read fun more r₄ h₄ _ => ?_
      dsimp only [id] at *
      simp only [← dosMembers_putMember]
      cases more with
      | false => exact .ok ⟨rfl, rfl⟩
      | true =>
        exact (ih r₄.length (by omega) _ r₄ rfl).read fun _ _ _ _ => .ok ⟨rfl, rfl⟩

theorem readItems_dosLines (t : Text) :
    Mirrors (Parsed.Mirrors Literal.dosItems) (readItems value t)
      (readItems value (dosLines t)) := by
  induction hlen : t.length using Nat.strongRecOn generalizing t with
  | ind l ih =>
    rw [readItems, readItems]
    refine (skipTrivia_dosLines t).bind ?_
    rintro ⟨s, hs⟩ ⟨s', hs'⟩ rfl
    dsimp only
    have hclose := head?_dosLines_eq_some_iff (t := s) (c := ']') (by decide)
    by_cases hc : s.head? = some ']'
    · rw [dif_pos hc, dif_pos (hclose.2 hc)]
      exact .ok ⟨rfl, tail_dosLines (by decide) hc⟩
    · rw [dif_neg hc, dif_neg (mt hclose.1 hc)]
      refine (hvalue s).read fun v r₁ h₁ _ => ?_
      refine (readSeparator_dosLines (by decide) r₁).read fun more r₂ h₂ _ => ?_
      dsimp only [id] at *
      cases more with
      | false => exact .ok ⟨rfl, rfl⟩
      | true =>
        exact (ih r₂.length (by omega) r₂ rfl).read fun _ _ _ _ => .ok ⟨rfl, rfl⟩

end Inside

/-! ### Values -/

theorem readValue_dosLines (n : Nat) (t : Text) :
    Mirrors (Parsed.Mirrors Literal.dosLines) (readValue n t) (readValue n (dosLines t)) := by
  induction n using Nat.strongRecOn generalizing t with
  | ind n ih =>
    rw [readValue.eq_def n t, readValue.eq_def n (dosLines t)]
    refine (skipTrivia_dosLines t).bind ?_
    rintro ⟨s, hs⟩ ⟨s', hs'⟩ rfl
    induction s using Text.feed_induction with
    | nil => exact .error
    | feed s =>
      obtain ⟨e, he⟩ := readAtom_break (c := '\n') rfl s
      obtain ⟨e', he'⟩ := readAtom_break (c := '\r') rfl ('\n' :: dosLines s)
      simp only [dosLines_feed, he, he']
      exact .error
    | cons c s hc =>
      generalize hd : dosLines (c :: s) = s' at hs'
      rw [dosLines_cons hc] at hd
      subst hd
      dsimp only
      by_cases hopen : c = '\x7b' ∨ c = '['
      · rw [if_pos hopen, if_pos hopen]
        cases n with
        | zero => exact .error
        | succ m =>
          have hm := ih m (Nat.lt_succ_self m)
          by_cases hb : c = '\x7b'
          · simp only [if_pos hb]
            exact (readMembers_dosLines hm [] s).read fun _ _ _ _ => .ok ⟨rfl, rfl⟩
          · simp only [if_neg hb]
            exact (readItems_dosLines hm s).read fun _ _ _ _ => .ok ⟨rfl, rfl⟩
      · rw [if_neg hopen, if_neg hopen]
        by_cases hq : isQuote c = true
        · rw [if_pos hq, if_pos hq]
          exact (readString_dosLines hq s).read fun _ _ _ _ => .ok ⟨rfl, rfl⟩
        · rw [if_neg hq, if_neg hq]
          have hatom := readAtom_dosLines (c :: s)
          rw [dosLines_cons hc] at hatom
          exact hatom.read fun _ _ _ _ => .ok ⟨rfl, rfl⟩

/-- A text is read as a literal alike with carriage returns. -/
theorem parseLiteral?_dosLines (t : Text) :
    parseLiteral? (dosLines t) = (parseLiteral? t).map Literal.dosLines := by
  have h : Mirrors (fun v v' => v' = Literal.dosLines v) (parseLiteral t)
      (parseLiteral (dosLines t)) := by
    refine (readValue_dosLines _ t).read fun v r _ _ => ?_
    refine (skipTrivia_dosLines r).bind ?_
    rintro ⟨s, hs⟩ ⟨s', hs'⟩ rfl
    induction s using Text.feed_induction with
    | nil => exact .ok rfl
    | feed s => exact .error
    | cons c s hc =>
      generalize hd : dosLines (c :: s) = s' at hs'
      rw [dosLines_cons hc] at hd
      subst hd
      exact .error
  rw [parseLiteral?, parseLiteral?]
  generalize parseLiteral t = x at h ⊢
  generalize parseLiteral (dosLines t) = x' at h ⊢
  cases h with
  | ok h => exact congrArg some h
  | error => rfl

end DocDecl

import DocDecl.Proofs.Head.Assignment
import DocDecl.Proofs.Head.Collapse

/-!
# Code without a head

Where the scan finds no head, the code begins, behind its blanks, with a mark that every head stops
at, or there is nothing but blanks. None of these marks begins a dotted name, so no assignment
stands there either, and the reading of assignments never adds anything to the scan.

## Main definitions

* `headStops` : the marks that a head stops at outside brackets.
* `LeadingAssignment` : the assignments that code begins with.

## Main results

* `Head.text_scan_eq_nil_iff` : code without a head.
* `Head.isSome_propertyAssignment?_iff` : where an assignment is read.
* `Head.scan_suffices` : the reading of assignments adds nothing.
-/

namespace DocDecl

open Text

variable {code t : Text}

/-! ### Where a head is empty -/

/-- The marks that a head stops at outside brackets. -/
def headStops : List Text :=
  ["//", "/**", ")", "]", ";", "\x7d", ",", "\x7b", "=>"].map String.toList

theorem singleton_prefix_iff {c : Char} : [c] <+: t ↔ t.head? = some c := by
  cases t with
  | nil => simp
  | cons d t => simp [List.cons_prefix_cons, eq_comm]

/-- The mark that code begins with, as the scan tells it. -/
theorem exists_headStop_iff {c : Char} :
    (∃ m ∈ headStops, m <+: c :: t) ↔
      c = '/' ∧ (t.head? = some '/' ∨ ("**" : Text).isPrefixOf t) ∨ c = ')' ∨ c = ']' ∨ c = ';' ∨
        c = '}' ∨ c = ',' ∨ c = '{' ∨ c = '=' ∧ t.head? = some '>' := by
  simp only [headStops, List.map_cons, List.map_nil, List.mem_cons, List.not_mem_nil, or_false,
    exists_eq_or_imp, exists_eq_left, List.isPrefixOf_iff_prefix]
  simp [List.cons_prefix_cons, singleton_prefix_iff, eq_comm, and_or_left, or_assoc]

/-- A head stops at once at its marks alone. -/
theorem head_spanHead_eq_nil_iff :
    (spanHead 0 t).head = [] ↔ t = [] ∨ ∃ m ∈ headStops, m <+: t := by
  cases t with
  | nil => simp [spanHead]
  | cons c t =>
    rw [exists_headStop_iff, spanHead]
    split_ifs <;> grind [HeadSpan.prepend, isQuote]

theorem spanHead_blanks_append {gap : Text} (hgap : gap.all isBlank = true) (t : Text) :
    spanHead 0 (gap ++ t) = (spanHead 0 t).prepend gap := by
  refine spanHead_append (fun c hc => ?_) t
  have hc := List.all_eq_true.1 hgap c hc
  refine ⟨LiteralGrammar.isMark_eq_false (by decide) hc, ⟨?_, ?_⟩, ?_⟩ <;>
    (rintro rfl; exact absurd hc (by decide))

namespace Head

/-- Code has no head if, behind its blanks, there is nothing or a mark that heads stop at. -/
theorem text_scan_eq_nil_iff :
    (scan code).text = [] ↔ trimLeft code = [] ∨ ∃ m ∈ headStops, m <+: trimLeft code := by
  obtain ⟨gap, hgap, hcode⟩ := exists_eq_append_trimLeft code
  have hhead : (spanHead 0 code).head = gap ++ (spanHead 0 (trimLeft code)).head := by
    conv_lhs => rw [hcode, spanHead_blanks_append hgap]
    rfl
  have hblank : (spanHead 0 (trimLeft code)).head.all isBlank = true ↔
      (spanHead 0 (trimLeft code)).head = [] := by
    refine ⟨fun h => ?_, fun h => by rw [h]; rfl⟩
    have happend := append_spanHead 0 (trimLeft code)
    have hfirst := List.head?_dropWhile_not isBlank code
    cases hs : (spanHead 0 (trimLeft code)).head with
    | nil => rfl
    | cons c r =>
      rw [hs] at h happend
      rw [← trimLeft, ← happend] at hfirst
      simp [show isBlank c = false from hfirst] at h
  rw [text_scan_eq, collapseBlanks_eq_nil_iff, hhead, List.all_append, hgap,
    Bool.true_and, hblank, head_spanHead_eq_nil_iff]

end Head

/-! ### Assignments that code begins with -/

/-- An assignment that code begins with, cut into its parts: a dotted name, a colon or an equals
sign, and a value up to the end of the line, a semicolon or a comma. -/
structure LeadingAssignment (code : Text) where
  /-- The blanks in front of the name. -/
  margin : Text
  /-- The dotted name. -/
  name : Text
  /-- The blanks in front of the sign. -/
  gap : Text
  /-- The sign. -/
  sign : Char
  /-- The blanks in front of the value. -/
  gap' : Text
  /-- The value. -/
  value : Text
  /-- The code behind the assignment. -/
  rest : Text
  /-- The code is made of these parts. -/
  code_eq : code = margin ++ (name ++ (gap ++ sign :: (gap' ++ (value ++ rest))))
  /-- The margin and the gaps are blank. -/
  all_isBlank : margin.all isBlank = true ∧ gap.all isBlank = true ∧ gap'.all isBlank = true
  /-- The name has a character. -/
  name_ne : name ≠ []
  /-- It is dotted. -/
  all_isDottedChar : name.all Head.isDottedChar = true
  /-- There are two signs. -/
  sign_eq : sign = ':' ∨ sign = '='
  /-- The value has a character. -/
  value_ne : value ≠ []
  /-- It ends in front of the end of the line, a semicolon or a comma. -/
  ne_of_mem_value : ∀ c ∈ value, c ≠ '\n' ∧ c ≠ ';' ∧ c ≠ ','

/-- A value begins behind the blanks or, where it is blank, with one of them. -/
theorem exists_value_iff :
    ((t.dropWhile isBlank).takeWhile (fun c => c ≠ '\n' ∧ c ≠ ';' ∧ c ≠ ',') ≠ [] ∨
        (t.takeWhile isBlank).any (· ≠ '\n') = true) ↔
      ∃ gap c rest, t = gap ++ c :: rest ∧ gap.all isBlank = true ∧
        c ≠ '\n' ∧ c ≠ ';' ∧ c ≠ ',' := by
  have hsplit := List.takeWhile_append_dropWhile (p := isBlank) (l := t)
  have hblank : (t.takeWhile isBlank).all isBlank = true := List.all_takeWhile
  constructor
  · rintro (hvalue | hgap)
    · cases hrest : t.dropWhile isBlank with
      | nil => simp [hrest] at hvalue
      | cons c rest =>
        rw [hrest] at hsplit hvalue
        exact ⟨_, c, rest, hsplit.symm, hblank, by simpa using hvalue⟩
    · obtain ⟨c, hc, hfeed⟩ := List.any_eq_true.1 hgap
      obtain ⟨gap, gap', hgaps⟩ := List.append_of_mem hc
      rw [hgaps] at hsplit hblank
      simp only [List.all_append, List.all_cons, Bool.and_eq_true] at hblank
      refine ⟨gap, c, gap' ++ t.dropWhile isBlank, ?_, hblank.1, of_decide_eq_true hfeed, ?_⟩
      · exact hsplit.symm.trans (List.append_assoc gap (c :: gap') _)
      · constructor <;> (rintro rfl; exact absurd hblank.2.1 (by decide))
  · rintro ⟨gap, c, rest, rfl, hgap, hc⟩
    have hgap := List.all_eq_true.1 hgap
    rw [List.dropWhile_append_of_pos hgap, List.takeWhile_append_of_pos hgap]
    by_cases hb : isBlank c = true
    · right
      simp [List.takeWhile_cons_of_pos hb, hc.1]
    · left
      simp [List.dropWhile_cons_of_neg hb, hc]

/-- No dotted name begins with a blank. -/
theorem isBlank_eq_false_of_isDottedChar {c : Char} (h : Head.isDottedChar c = true) :
    isBlank c = false := by
  rcases Bool.or_eq_true _ _ ▸ h with h | h
  · exact isBlank_eq_false_of_isNameChar h
  · obtain rfl := beq_iff_eq.1 h
    decide

/-- Behind the blanks of such code the name begins. -/
theorem LeadingAssignment.exists_trimLeft_eq (a : LeadingAssignment code) :
    trimLeft code = a.name ++ (a.gap ++ a.sign :: (a.gap' ++ (a.value ++ a.rest))) ∧
      ∃ c ∈ (trimLeft code).head?, Head.isDottedChar c = true := by
  obtain ⟨c, name, hname⟩ := List.exists_cons_of_ne_nil a.name_ne
  have hc : Head.isDottedChar c = true :=
    List.all_eq_true.1 a.all_isDottedChar c (hname ▸ List.mem_cons_self)
  have hcode : trimLeft code = a.name ++ (a.gap ++ a.sign :: (a.gap' ++ (a.value ++ a.rest))) := by
    conv_lhs => rw [a.code_eq, trimLeft_append_blanks a.all_isBlank.1, hname]
    rw [hname]
    exact List.dropWhile_cons_of_neg (by simp [isBlank_eq_false_of_isDottedChar hc])
  exact ⟨hcode, c, by rw [hcode, hname]; rfl, hc⟩

namespace Head

/-- What is read as an assignment is one. -/
theorem nonempty_leadingAssignment (h : (propertyAssignment? code).isSome = true) :
    Nonempty (LeadingAssignment code) := by
  obtain ⟨margin, hmargin, hcode⟩ := exists_eq_append_trimLeft code
  have hname := List.takeWhile_append_dropWhile (p := isDottedChar) (l := trimLeft code)
  have hgap := List.takeWhile_append_dropWhile (p := isBlank)
    (l := (trimLeft code).dropWhile isDottedChar)
  rw [propertyAssignment?] at h
  cases hsign : ((trimLeft code).dropWhile isDottedChar).dropWhile isBlank with
  | nil => simp [hsign] at h
  | cons sign t =>
    rw [hsign] at hgap
    simp only [hsign] at h
    split_ifs at h with hparts
    · obtain ⟨hne, hsigns, hvalue⟩ := hparts
      obtain ⟨gap', c, rest, ht, hgap', hc⟩ := exists_value_iff.1 hvalue
      exact ⟨{
        margin, name := _, gap := _, sign, gap', value := [c], rest
        code_eq := by
          rw [List.singleton_append, ← ht, hgap, hname]
          exact hcode
        all_isBlank := ⟨hmargin, List.all_takeWhile, hgap'⟩
        name_ne := hne
        all_isDottedChar := List.all_takeWhile
        sign_eq := hsigns
        value_ne := List.cons_ne_nil c []
        ne_of_mem_value := List.forall_mem_singleton.2 hc }⟩
    · cases h

/-- An assignment is read where one stands. -/
theorem isSome_propertyAssignment?_iff :
    (propertyAssignment? code).isSome = true ↔ Nonempty (LeadingAssignment code) := by
  refine ⟨nonempty_leadingAssignment, fun ⟨a⟩ => ?_⟩
  obtain ⟨hcode, -⟩ := a.exists_trimLeft_eq
  obtain ⟨c, value, hvalue⟩ := List.exists_cons_of_ne_nil a.value_ne
  have hsign : isDottedChar a.sign = false ∧ isBlank a.sign = false := by
    rcases a.sign_eq with h | h <;> rw [h] <;> decide
  have hbehind : ∀ d ∈ (a.gap ++ a.sign :: (a.gap' ++ (a.value ++ a.rest))).head?,
      isDottedChar d = false := by
    cases hgap : a.gap with
    | nil => simpa using hsign.1
    | cons b gap =>
      rintro d ⟨⟩
      rw [Bool.eq_false_iff]
      intro hb
      have hblank := List.all_eq_true.1 a.all_isBlank.2.1 b (hgap ▸ List.mem_cons_self)
      simp [isBlank_eq_false_of_isDottedChar hb] at hblank
  obtain ⟨hname₁, hname₂⟩ := span_append a.all_isDottedChar hbehind
  obtain ⟨hgap₁, hgap₂⟩ := span_append a.all_isBlank.2.1
    (t := a.sign :: (a.gap' ++ (a.value ++ a.rest))) (by simpa using hsign.2)
  have hread := (exists_value_iff (t := a.gap' ++ (a.value ++ a.rest))).2 ⟨a.gap', c,
    value ++ a.rest, by rw [hvalue]; rfl, a.all_isBlank.2.2,
    a.ne_of_mem_value c (hvalue ▸ List.mem_cons_self)⟩
  simp only [propertyAssignment?, hcode, hname₁, hname₂, hgap₁, hgap₂]
  rw [if_pos ⟨a.name_ne, a.sign_eq, hread⟩]
  rfl

/-! ### No assignment without a head -/

/-- No dotted name begins with a mark that heads stop at. -/
theorem not_nonempty_leadingAssignment (h : (scan code).text = []) :
    ¬Nonempty (LeadingAssignment code) := by
  rintro ⟨a⟩
  obtain ⟨-, c, hc, hdotted⟩ := a.exists_trimLeft_eq
  rcases text_scan_eq_nil_iff.1 h with hnil | ⟨m, hm, r, hr⟩
  · simp [hnil] at hc
  · have hmarks : headStops.all (fun m => m.head?.any fun d => !isDottedChar d) = true := by decide
    obtain ⟨d, hd, hfalse⟩ := (Option.any_eq_true _ _).1 (List.all_eq_true.1 hmarks m hm)
    obtain ⟨m, rfl⟩ := List.head?_eq_some_iff.1 hd
    rw [← hr, List.cons_append, List.head?_cons] at hc
    obtain rfl := Option.some.inj hc
    simp [hdotted] at hfalse

theorem propertyAssignment?_eq_none (h : (scan code).text = []) :
    propertyAssignment? code = none := by
  rw [← Option.not_isSome_iff_eq_none, isSome_propertyAssignment?_iff]
  exact not_nonempty_leadingAssignment h

theorem read_eq_scan (code : Text) : read code = scan code := by
  simp only [read]
  split_ifs with h
  · rfl
  · rw [propertyAssignment?_eq_none (not_not.1 h)]

/-- **The reading of assignments adds nothing.** What is read is what the scan finds, and where the
scan finds no head, no assignment is read and the code begins with none. -/
theorem scan_suffices (code : Text) :
    read code = scan code ∧
      ((scan code).text ≠ [] ∨
        propertyAssignment? code = none ∧ ¬Nonempty (LeadingAssignment code)) := by
  refine ⟨read_eq_scan code, ?_⟩
  by_cases h : (scan code).text = []
  · exact .inr ⟨propertyAssignment?_eq_none h, not_nonempty_leadingAssignment h⟩
  · exact .inl h

end Head

end DocDecl

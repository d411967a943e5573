import DocDecl.Head.Arguments
import DocDecl.Proofs.Delimiter.Balanced
import DocDecl.Proofs.Text.Classes

/-!
# Parameter lists

A parameter is an identifier, a rest parameter, or a destructuring pattern; identifiers and patterns
may have defaults. What stands in a default or a pattern is any balanced code, so a parameter list
is balanced code with commas, and reading the list gives back its parameters in order: identifiers
without their defaults, rest parameters with their dots, and for each pattern a pair of braces.

## Main definitions

* `Identifier`, `Code`, `BindingPattern`, `FormalParameter` : the parts of a parameter list.
* `FormalParameter.argument` : what is read of a parameter.
* `argumentsIn?` : the arguments in the list that a text begins with.

## Main results

* `argumentsIn?_parameterList` : reading a parameter list.
-/

namespace DocDecl

open LiteralGrammar Text

variable {c : Char} {s t : Text}

/-! ### The parts of a parameter list -/

/-- A name out of word characters and dollar signs. -/
structure Identifier where
  /-- The name. -/
  text : Text
  /-- There is at least one character. -/
  ne_nil : text ≠ []
  /-- There are no other characters. -/
  isNameChar_of_mem : ∀ c ∈ text, isNameChar c = true

/-- Balanced code, with or without commas outside its brackets and strings. -/
structure Code (commas : Bool) where
  /-- The code. -/
  text : Text
  /-- Brackets and strings are closed, and there is no comment. -/
  balanced : Balanced commas text

/-- A destructuring pattern. -/
inductive BindingPattern where
  /-- A pattern in braces. -/
  | object (inside : Code true)
  /-- A pattern in square brackets. -/
  | array (inside : Code true)

/-- A parameter as it is declared. -/
inductive FormalParameter where
  /-- An identifier, which may have a default. -/
  | named (name : Identifier) (default? : Option (Code false))
  /-- A rest parameter. -/
  | rest (name : Identifier)
  /-- A destructuring pattern, which may have a default. -/
  | destructured (pattern : BindingPattern) (default? : Option (Code false))

namespace BindingPattern

/-- The text of a pattern. -/
def text : BindingPattern → Text
  | object inside => '\x7b' :: (inside.text ++ ['\x7d'])
  | array inside => '[' :: (inside.text ++ [']'])

end BindingPattern

namespace FormalParameter

/-- What is declared, with its default. -/
def withDefault (t : Text) : Option (Code false) → Text
  | none => t
  | some e => t ++ (" = ".toList ++ e.text)

/-- The text of a parameter. -/
def text : FormalParameter → Text
  | named name default? => withDefault name.text default?
  | rest name => "..." ++ name.text
  | destructured pattern default? => withDefault pattern.text default?

/-- What is read of a parameter. -/
def argument : FormalParameter → Argument
  | named name _ => .name name.text
  | rest name => .rest name.text
  | destructured _ _ => .destructured

end FormalParameter

/-- The text of a parameter list, without its brackets. -/
def parametersText (ps : List FormalParameter) : Text := join ", " (ps.map FormalParameter.text)

/-- The text of a parameter list in its brackets. -/
def parameterListText (ps : List FormalParameter) : Text := '(' :: (parametersText ps ++ [')'])

/-! ### Parameters are balanced code -/

theorem ne_of_isNameChar {d : Char} (hc : isNameChar c = true) (hd : isNameChar d = false) :
    c ≠ d := by
  rintro rfl
  simp [hc] at hd

namespace Identifier

variable (name : Identifier)

theorem exists_eq_cons : ∃ c t, name.text = c :: t ∧ isNameChar c = true := by
  obtain ⟨text, hne, hall⟩ := name
  cases text with
  | nil => exact absurd rfl hne
  | cons c t => exact ⟨c, t, rfl, hall c List.mem_cons_self⟩

theorem not_mem (h : isNameChar c = false) : c ∉ name.text := fun hmem =>
  ne_of_isNameChar (name.isNameChar_of_mem c hmem) h rfl

theorem after?_dots : after? "..." name.text = none := by
  obtain ⟨c, t, htext, hc⟩ := name.exists_eq_cons
  rw [htext]
  exact if_neg (ne_of_isNameChar hc (by decide)).symm

theorem isBlank_eq_false (h : c ∈ name.text) : isBlank c = false :=
  isBlank_eq_false_of_isNameChar (name.isNameChar_of_mem c h)

theorem isMark_eq_false (h : c ∈ name.text) : isMark c = false :=
  LiteralGrammar.isMark_eq_false (by decide) (isAtomChar_of_isNameChar (name.isNameChar_of_mem c h))

theorem balanced : Balanced false name.text := by
  rw [← List.append_nil name.text]
  have hplain : (name.text.all fun c => !isMark c) = true :=
    List.all_eq_true.2 fun c hc => by simp [name.isMark_eq_false hc]
  exact .plain_append hplain (fun h => absurd h (name.not_mem (by decide))) .nil

end Identifier

theorem BindingPattern.balanced (p : BindingPattern) : Balanced false p.text := by
  cases p with
  | object inside => exact .group rfl inside.balanced .nil
  | array inside => exact .group rfl inside.balanced .nil

theorem Identifier.trim_text (name : Identifier) : trim name.text = name.text :=
  trim_of_no_blank fun _ => name.isBlank_eq_false

theorem BindingPattern.trim_text (p : BindingPattern) : trim p.text = p.text := by
  refine trim_eq_self_iff.2 ?_
  cases p with
  | object inside => exact ⟨rfl, trimRight_append_singleton rfl ('\x7b' :: inside.text)⟩
  | array inside => exact ⟨rfl, trimRight_append_singleton rfl ('[' :: inside.text)⟩

theorem BindingPattern.text_ne_nil (p : BindingPattern) : p.text ≠ [] := by
  cases p <;> exact List.cons_ne_nil _ _

namespace FormalParameter

theorem balanced_withDefault (h : Balanced false t) (default? : Option (Code false)) :
    Balanced false (withDefault t default?) := by
  cases default? with
  | none => exact h
  | some e =>
    have he : Balanced false (" = ".toList ++ e.text) :=
      .plain_append (by decide) (by decide) e.balanced
    exact h.append he ⟨by simp, by simp⟩

theorem balanced (p : FormalParameter) : Balanced false p.text := by
  cases p with
  | named name default? => exact balanced_withDefault name.balanced default?
  | rest name => exact .plain_append (by decide) (by decide) name.balanced
  | destructured pattern default? => exact balanced_withDefault pattern.balanced default?

/-! ### What is read of a parameter -/

/-- Trimming a declared parameter keeps what is declared, and nothing but blanks stands between it
and the default. -/
theorem exists_trim_withDefault (ht : trim t = t) (hne : t ≠ []) (default? : Option (Code false)) :
    ∃ r, trim (withDefault t default?) = t ++ r ∧
      (r.takeWhile (· ≠ '=')).all isBlank = true := by
  cases default? with
  | none => exact ⟨[], by rw [withDefault, ht, List.append_nil], rfl⟩
  | some e =>
    have hright : trimRight (" = ".toList ++ e.text) =
        " =".toList ++ trimRight (" ".toList ++ e.text) :=
      trimRight_append_of_eq (s := " =".toList) (by decide) (" ".toList ++ e.text)
    exact ⟨_, by rw [withDefault, trim_append_of_eq ht hne, hright], by simp [isBlank]⟩

/-- An argument that begins like an identifier is the text in front of its default. -/
theorem argumentOf_eq_ofText (name : Identifier) {dots : Text} (hdots : dots.all (· = '.') = true)
    (r : Text) (hr : (r.takeWhile (· ≠ '=')).all isBlank = true) :
    argumentOf (dots ++ (name.text ++ r)) = .ofText (dots ++ name.text) := by
  obtain ⟨c, t, htext, hc⟩ := name.exists_eq_cons
  have hbare : (dots ++ (name.text ++ r)).dropWhile (· = '.') = name.text ++ r := by
    rw [List.dropWhile_append_of_pos (List.all_eq_true.1 hdots), htext]
    exact List.dropWhile_cons_of_neg (by simpa using ne_of_isNameChar hc (by decide))
  have hhead : (name.text ++ r).head? = some c := by
    rw [htext]
    rfl
  have hplain : ∀ d ∈ dots ++ name.text, d ≠ '=' ∧ isBlank d = false := by
    intro d hd
    rcases List.mem_append.1 hd with hd | hd
    · obtain rfl : d = '.' := by simpa using List.all_eq_true.1 hdots d hd
      decide
    · refine ⟨?_, name.isBlank_eq_false hd⟩
      rintro rfl
      exact name.not_mem (by decide) hd
  have htrim : trim (dots ++ name.text) = dots ++ name.text :=
    trim_of_no_blank fun d hd => (hplain d hd).2
  have htake : (dots ++ (name.text ++ r)).takeWhile (· ≠ '=') =
      (dots ++ name.text) ++ r.takeWhile (· ≠ '=') := by
    rw [← List.append_assoc]
    exact List.takeWhile_append_of_pos fun d hd => decide_eq_true (hplain d hd).1
  rw [argumentOf, hbare, hhead, htake, trim_append_blanks hr, htrim, if_neg]
  simp [ne_of_isNameChar hc (d := '\x7b') (by decide), ne_of_isNameChar hc (d := '[') (by decide)]

theorem ofText_identifier (name : Identifier) : Argument.ofText name.text = .name name.text := by
  obtain ⟨c, t, htext, hc⟩ := name.exists_eq_cons
  have hbraces : name.text ≠ "\x7b\x7d".toList := by
    rw [htext]
    exact fun h => ne_of_isNameChar hc (by decide) (List.cons.inj h).1
  rw [Argument.ofText, if_neg hbraces, name.after?_dots]

theorem ofText_rest (t : Text) : Argument.ofText ("...".toList ++ t) = .rest t := by
  have hbraces : "...".toList ++ t ≠ "\x7b\x7d".toList := fun h =>
    absurd (List.cons.inj h).1 (by decide)
  rw [Argument.ofText, if_neg hbraces, after?_eq_some_iff.2 rfl]

theorem trim_text_rest (name : Identifier) : trim (rest name).text = "...".toList ++ name.text := by
  have hdots : ("...".toList.all fun c => !isBlank c) = true := by decide
  refine trim_of_no_blank fun c hc => ?_
  rcases List.mem_append.1 hc with hc | hc
  · simpa using List.all_eq_true.1 hdots c hc
  · exact name.isBlank_eq_false hc

theorem argumentOf_trim_text (p : FormalParameter) : argumentOf (trim p.text) = p.argument := by
  cases p with
  | named name default? =>
    obtain ⟨r, htrim, hr⟩ := exists_trim_withDefault name.trim_text name.ne_nil default?
    have hdots : ([] : Text).all (· = '.') = true := rfl
    have hargument := argumentOf_eq_ofText name hdots r hr
    rw [text, htrim, argument, ← ofText_identifier]
    exact hargument
  | rest name =>
    have hdots : "...".toList.all (· = '.') = true := by decide
    have hargument := argumentOf_eq_ofText name hdots [] rfl
    rw [List.append_nil] at hargument
    rw [trim_text_rest, hargument, ofText_rest, argument]
  | destructured pattern default? =>
    obtain ⟨r, htrim, -⟩ := exists_trim_withDefault pattern.trim_text pattern.text_ne_nil default?
    rw [text, htrim, argument]
    cases pattern <;> rfl

theorem trim_text_ne_nil (p : FormalParameter) : trim p.text ≠ [] := by
  cases p with
  | named name default? =>
    obtain ⟨r, htrim, -⟩ := exists_trim_withDefault name.trim_text name.ne_nil default?
    rw [text, htrim]
    exact List.append_ne_nil_of_left_ne_nil name.ne_nil r
  | rest name =>
    rw [trim_text_rest]
    simp
  | destructured pattern default? =>
    obtain ⟨r, htrim, -⟩ := exists_trim_withDefault pattern.trim_text pattern.text_ne_nil default?
    rw [text, htrim]
    exact List.append_ne_nil_of_left_ne_nil pattern.text_ne_nil r

end FormalParameter

/-! ### Reading a parameter list -/

/-- The arguments in the parameter list that a text begins with. -/
def argumentsIn? (t : Text) : Option (List Argument) :=
  (group? t).map fun (g, _) => (splitTopLevel (some ',') (insideGroup g)).map argumentOf

theorem arguments?_eq (head : Text) : arguments? head = (parameterList? head).bind argumentsIn? :=
  rfl

/-- A parameter list is read as its parameters. -/
theorem argumentsIn?_parameterList (ps : List FormalParameter) :
    argumentsIn? (parameterListText ps) = some (ps.map FormalParameter.argument) := by
  have htexts : ∀ t ∈ ps.map FormalParameter.text, Balanced false t := by
    intro t ht
    obtain ⟨p, -, rfl⟩ := List.mem_map.1 ht
    exact p.balanced
  have hne : ∀ t ∈ ps.map FormalParameter.text, trim t ≠ [] := by
    intro t ht
    obtain ⟨p, -, rfl⟩ := List.mem_map.1 ht
    exact p.trim_text_ne_nil
  have hgroup := group?_balanced (o := '(') rfl (balanced_join htexts) []
  rw [argumentsIn?, parameterListText, parametersText, hgroup, Option.map_some]
  simp only
  rw [insideGroup_append, splitTopLevel_join htexts hne, List.map_map, List.map_map]
  congr 2
  funext p
  exact p.argumentOf_trim_text

end DocDecl

import DocDecl.Pattern.Substitution
import DocDecl.Proofs.Failure
import DocDecl.Proofs.Text.Classes
import Mathlib.Data.List.Basic

/-!
# Which templates are right

In a template a backslash begins an escape: the letter of a control character, another backslash, a
sign that keeps its backslash, the code of a character in octal digits, or a group of the pattern by
its number or its name. Digits are read for as long as they go on with the escape, so what stands
behind an escape decides where it ends. A template is right for a pattern if all of its escapes are;
the text that the pattern is looked for in plays no part in that.

## Main definitions

* `IsEscape` : escapes, given what stands behind them.
* `IsTemplate` : right templates.
* `ReplacementRule.fault?` : what is wrong with a rule.

## Main results

* `exists_templateParts_iff` : right templates are those that can be read.
* `apply_eq_error_iff` : a rule fails on every text or on none.
-/

namespace DocDecl

variable {p : NamedPattern} {s t e : Text} {parts : List TemplatePart} {n : Nat}

/-! ### Escapes -/

/-- The digits that may stand behind a backslash in front of a text, and what they stand for. -/
inductive IsDigitEscape : Text → Text → DigitEscape → Prop
  /-- A zero and up to two octal digits, as many as there are. -/
  | zero (ds t : Text) (hds : ds.all isOctal = true) (hle : ds.length ≤ 2)
      (hend : ds.length = 2 ∨ ∀ c ∈ t.head?, isOctal c = false) :
      IsDigitEscape ('0' :: ds) t (.code (octalCode ds))
  /-- Three octal digits. -/
  | octal {d e f : Char} (t : Text) (hzero : d ≠ '0') (hds : [d, e, f].all isOctal = true)
      (hle : octalCode [d, e, f] ≤ greatestOctal) :
      IsDigitEscape [d, e, f] t (.code (octalCode [d, e, f]))
  /-- The number of a group, in two digits that no code begins with. -/
  | twoDigits {d e : Char} (t : Text) (hzero : d ≠ '0') (hds : [d, e].all Char.isDigit = true)
      (hend : [d, e].all isOctal = true → ∀ f ∈ t.head?, isOctal f = false) :
      IsDigitEscape [d, e] t (.group (decimalOf [d, e]))
  /-- The number of a group, in a single digit. -/
  | oneDigit {d : Char} (t : Text) (hzero : d ≠ '0') (hd : d.isDigit = true)
      (hend : ∀ e ∈ t.head?, e.isDigit = false) : IsDigitEscape [d] t (.group (decimalOf [d]))

/-- What may stand behind a backslash in a template, in front of a text. -/
inductive IsEscape (p : NamedPattern) : Text → Text → Prop
  /-- The letter of a control character, or a backslash. -/
  | control {d : Char} (t : Text) (hd : (templateControl? d).isSome = true) : IsEscape p [d] t
  /-- A character that is no letter and no digit keeps its backslash. -/
  | sign {d : Char} (t : Text) (hletter : d.isAlpha = false) (hdigit : d.isDigit = false) :
      IsEscape p [d] t
  /-- A character, by its code. -/
  | code {e t : Text} {n : Nat} (h : IsDigitEscape e t (.code n)) : IsEscape p e t
  /-- A group that the pattern has, by its number. -/
  | group {e t : Text} {n : Nat} (h : IsDigitEscape e t (.group n)) (hgroup : n ≤ p.count) :
      IsEscape p e t
  /-- The name of a group. -/
  | name {name : Text} (t : Text) (hname : isUnicodeIdentifier name = true)
      (hgroup : (p.names.lookup name).isSome = true) :
      IsEscape p ('g' :: '<' :: (name ++ ['>'])) t
  /-- The number of a group in angle brackets. -/
  | number {ds : Text} (t : Text) (hne : ds ≠ []) (hds : ds.all Char.isDigit = true)
      (hgroup : decimalOf ds ≤ p.count) : IsEscape p ('g' :: '<' :: (ds ++ ['>'])) t

/-! ### Digits -/

theorem takeWhile_isOctal {ds : Text} (hds : ds.all isOctal = true) (hle : ds.length ≤ 2)
    (hend : ds.length = 2 ∨ ∀ c ∈ t.head?, isOctal c = false) :
    ((ds ++ t).take 2).takeWhile isOctal = ds := by
  match ds with
  | [] =>
    cases t with
    | nil => rfl
    | cons c t =>
      have hc : isOctal c = false := by simpa using hend
      simp [hc]
  | [c] =>
    have hc : isOctal c = true := by simpa using hds
    cases t with
    | nil => simp [hc]
    | cons c' t =>
      have hc' : isOctal c' = false := by simpa using hend
      simp [hc, hc']
  | [c, c'] =>
    obtain ⟨hc, hc'⟩ : isOctal c = true ∧ isOctal c' = true := by simpa using hds
    simp [hc, hc']
  | _ :: _ :: _ :: ds => simp at hle

/-- The octal digits that a text begins with, two at most. -/
theorem exists_octalDigits (s : Text) :
    ∃ ds t, s = ds ++ t ∧ ds.all isOctal = true ∧ ds.length ≤ 2 ∧
      (ds.length = 2 ∨ ∀ c ∈ t.head?, isOctal c = false) := by
  match s with
  | [] => exact ⟨[], [], rfl, rfl, by simp, by simp⟩
  | [c] =>
    by_cases hc : isOctal c = true
    · exact ⟨[c], [], rfl, by simp [hc], by simp, by simp⟩
    · exact ⟨[], [c], rfl, rfl, by simp, by simpa using hc⟩
  | c :: c' :: s =>
    by_cases hc : isOctal c = true
    · by_cases hc' : isOctal c' = true
      · exact ⟨[c, c'], s, rfl, by simp [hc, hc'], by simp, by simp⟩
      · exact ⟨[c], c' :: s, rfl, by simp [hc], by simp, by simpa using hc'⟩
    · exact ⟨[], c :: c' :: s, rfl, rfl, by simp, by simpa using hc⟩

theorem isDigit_of_isOctal {c : Char} (h : isOctal c = true) : c.isDigit = true := by
  rw [isOctal, Bool.and_eq_true, decide_eq_true_iff, decide_eq_true_iff] at h
  rw [Char.isDigit, Bool.and_eq_true, decide_eq_true_iff, decide_eq_true_iff]
  exact ⟨h.1, UInt32.le_trans h.2 (by decide)⟩

theorem isDigitEscape_of_digitEscape? {d : Char} {x : DigitEscape} (hd : d.isDigit = true)
    (h : digitEscape? d s = some (x, n)) :
    ∃ e t, s = e ++ t ∧ e.length + 1 = n ∧ IsDigitEscape (d :: e) t x := by
  rw [digitEscape?.eq_def] at h
  by_cases hzero : d = '0'
  · rw [if_pos hzero] at h
    obtain ⟨rfl, rfl⟩ := Prod.mk.inj (Option.some.inj h)
    subst hzero
    obtain ⟨ds, t, rfl, hds, hle, hend⟩ := exists_octalDigits s
    rw [takeWhile_isOctal hds hle hend]
    exact ⟨ds, t, rfl, rfl, .zero ds t hds hle hend⟩
  · rw [if_neg hzero] at h
    match s with
    | [] =>
      obtain ⟨rfl, rfl⟩ := Prod.mk.inj (Option.some.inj h)
      exact ⟨[], [], rfl, rfl, .oneDigit [] hzero hd (by simp)⟩
    | e :: t =>
      simp only at h
      by_cases he : e.isDigit = true
      · rw [if_pos he] at h
        by_cases hoctal : isOctal d = true ∧ isOctal e = true ∧
            (t.head?.map isOctal).getD false = true
        · rw [if_pos hoctal, checkedOctal?] at h
          match t with
          | [] => simp at hoctal
          | f :: t =>
            obtain ⟨m, hm, heq⟩ := Option.map_eq_some_iff.1 h
            obtain ⟨hle, hcode⟩ := Option.ite_none_right_eq_some.1 hm
            obtain rfl := Option.some.inj hcode
            obtain ⟨rfl, rfl⟩ := Prod.mk.inj heq
            exact ⟨[e, f], t, rfl, rfl, .octal t hzero (by simpa using hoctal) hle⟩
        · rw [if_neg hoctal] at h
          obtain ⟨rfl, rfl⟩ := Prod.mk.inj (Option.some.inj h)
          refine ⟨[e], t, rfl, rfl, .twoDigits t hzero (by simp [hd, he]) ?_⟩
          intro hds f hf
          simp only [List.all_cons, List.all_nil, Bool.and_true, Bool.and_eq_true] at hds
          simpa [hds, Option.mem_def.1 hf] using hoctal
      · rw [if_neg he] at h
        obtain ⟨rfl, rfl⟩ := Prod.mk.inj (Option.some.inj h)
        exact ⟨[], e :: t, rfl, rfl, .oneDigit (e :: t) hzero hd (by simpa using he)⟩

/-- Digits behind a backslash are read to their end. -/
theorem IsDigitEscape.exists_digitEscape? {x : DigitEscape} (h : IsDigitEscape e t x) :
    ∃ d e', e = d :: e' ∧ d.isDigit = true ∧
      digitEscape? d (e' ++ t) = some (x, e'.length + 1) := by
  cases h with
  | zero ds _ hds hle hend =>
    refine ⟨'0', ds, rfl, by decide, ?_⟩
    rw [digitEscape?.eq_def, if_pos rfl]
    simp only [takeWhile_isOctal hds hle hend]
  | @octal d e f _ hzero hds hle =>
    simp only [List.all_cons, List.all_nil, Bool.and_true, Bool.and_eq_true] at hds
    obtain ⟨hd, he, hf⟩ := hds
    refine ⟨d, [e, f], rfl, isDigit_of_isOctal hd, ?_⟩
    rw [List.cons_append, List.singleton_append, digitEscape?.eq_def, if_neg hzero]
    simp only
    rw [if_pos (isDigit_of_isOctal he), if_pos ⟨hd, he, by simp [hf]⟩]
    exact congrArg (Option.map _) (if_pos hle)
  | @twoDigits d e _ hzero hds hend =>
    simp only [List.all_cons, List.all_nil, Bool.and_true, Bool.and_eq_true] at hds hend
    obtain ⟨hd, he⟩ := hds
    have hthree : ¬(isOctal d = true ∧ isOctal e = true ∧
        (t.head?.map isOctal).getD false = true) := by
      rintro ⟨hd, he, hf⟩
      cases hhead : t.head? with
      | none => simp [hhead] at hf
      | some f =>
        have hstop := hend ⟨hd, he⟩ f hhead
        simp [hhead, hstop] at hf
    refine ⟨d, [e], rfl, hd, ?_⟩
    rw [List.singleton_append, digitEscape?.eq_def, if_neg hzero]
    simp only
    rw [if_pos he, if_neg hthree]
    rfl
  | @oneDigit d _ hzero hd hend =>
    refine ⟨d, [], rfl, hd, ?_⟩
    rw [List.nil_append, digitEscape?.eq_def, if_neg hzero]
    cases t with
    | nil => rfl
    | cons e t =>
      simp only
      rw [if_neg (Bool.eq_false_iff.1 (hend e rfl))]
      rfl

/-! ### Escapes that are read -/

theorem groupPart_eq_ok_iff {part : TemplatePart} :
    groupPart p n = .ok part ↔ n ≤ p.count ∧ .group n = part := by
  rw [groupPart]
  split_ifs with h
  · rw [Except.ok.injEq, and_iff_right h]
  · exact iff_of_false (fun heq => nomatch heq) fun heq => h heq.1

/-- A number is read as that of a group exactly if the pattern has the group. -/
theorem groupPart_bind_eq_ok_iff {m k : Nat} {part : TemplatePart} :
    (do return (← groupPart p m, k) : Except RuleFault (TemplatePart × Nat)) = .ok (part, n) ↔
      m ≤ p.count ∧ .group m = part ∧ k = n := by
  rw [bind_eq_ok_iff]
  constructor
  · rintro ⟨part', h, heq⟩
    obtain ⟨hle, rfl⟩ := groupPart_eq_ok_iff.1 h
    obtain ⟨rfl, rfl⟩ := Prod.mk.inj (Except.ok.inj heq)
    exact ⟨hle, rfl, rfl⟩
  · rintro ⟨hle, rfl, rfl⟩
    exact ⟨_, groupPart_eq_ok_iff.2 ⟨hle, rfl⟩, rfl⟩

/-- A name ends with the first closing bracket. -/
theorem exists_eq_takeWhile_append {c : Char}
    (h : (t.takeWhile (· ≠ c)).length ≠ t.length) : ∃ r, t = t.takeWhile (· ≠ c) ++ c :: r := by
  have hsplit := List.takeWhile_append_dropWhile (p := (· ≠ c)) (l := t)
  cases hrest : t.dropWhile (· ≠ c) with
  | nil =>
    rw [hrest, List.append_nil] at hsplit
    exact absurd (congrArg List.length hsplit) h
  | cons d r =>
    have hd := List.head?_dropWhile_not (· ≠ c) t
    rw [hrest] at hd
    have hc : d = c := by simpa using hd
    rw [hrest, hc] at hsplit
    exact ⟨r, hsplit.symm⟩

theorem isEscape_of_namedPart {part : TemplatePart} (h : namedPart p s = .ok (part, n)) :
    ∃ e t, s = e ++ t ∧ e.length = n ∧ IsEscape p ('g' :: e) t := by
  rw [namedPart.eq_def] at h
  split at h
  · next s =>
    simp only at h
    by_cases hend : (s.takeWhile (· ≠ '>')).length = s.length ∨ s.takeWhile (· ≠ '>') = []
    · rw [if_pos hend] at h
      cases h
    · rw [if_neg hend] at h
      obtain ⟨hclosed, hne⟩ := not_or.1 hend
      obtain ⟨r, hr⟩ := exists_eq_takeWhile_append hclosed
      generalize s.takeWhile (· ≠ '>') = name at *
      have happend : '<' :: s = '<' :: (name ++ ['>']) ++ r := by simp [hr]
      have hlength : ('<' :: (name ++ ['>'])).length = name.length + 2 := by simp
      refine ⟨_, r, happend, ?_⟩
      by_cases hname : isUnicodeIdentifier name = true
      · rw [if_pos hname] at h
        split at h
        · next m hm =>
          obtain ⟨-, rfl⟩ := Prod.mk.inj (Except.ok.inj h)
          exact ⟨hlength, .name r hname (by rw [hm]; rfl)⟩
        · cases h
      · rw [if_neg hname] at h
        by_cases hdigits : name.all Char.isDigit = true
        · rw [if_pos hdigits] at h
          obtain ⟨hgroup, -, rfl⟩ := groupPart_bind_eq_ok_iff.1 h
          exact ⟨hlength, .number r hne hdigits hgroup⟩
        · rw [if_neg hdigits] at h
          cases h
  · cases h

theorem isEscape_of_digitPart {d : Char} {part : TemplatePart} (hd : d.isDigit = true)
    (h : digitPart p d s = .ok (part, n)) :
    ∃ e t, s = e ++ t ∧ e.length + 1 = n ∧ IsEscape p (d :: e) t := by
  rw [digitPart] at h
  split at h
  · next m k hescape =>
    obtain ⟨-, rfl⟩ := Prod.mk.inj (Except.ok.inj h)
    obtain ⟨e, t, rfl, rfl, hdigits⟩ := isDigitEscape_of_digitEscape? hd hescape
    exact ⟨e, t, rfl, rfl, .code hdigits⟩
  · next m k hescape =>
    obtain ⟨hgroup, -, rfl⟩ := groupPart_bind_eq_ok_iff.1 h
    obtain ⟨e, t, rfl, rfl, hdigits⟩ := isDigitEscape_of_digitEscape? hd hescape
    exact ⟨e, t, rfl, rfl, .group hdigits hgroup⟩
  · cases h

/-- What is read behind a backslash is an escape. -/
theorem isEscape_of_escapedParts (h : escapedParts p s = .ok (parts, n)) :
    ∃ e t, s = e ++ t ∧ e.length = n ∧ IsEscape p e t := by
  rw [escapedParts.eq_def] at h
  match s with
  | [] => cases h
  | d :: t =>
    simp only at h
    by_cases hg : d = 'g'
    · rw [if_pos hg] at h
      obtain ⟨⟨part, m⟩, hpart, heq⟩ := bind_eq_ok_iff.1 h
      obtain ⟨-, rfl⟩ := Prod.mk.inj (Except.ok.inj heq)
      obtain ⟨e, t, rfl, rfl, hescape⟩ := isEscape_of_namedPart hpart
      subst hg
      exact ⟨'g' :: e, t, rfl, rfl, hescape⟩
    · rw [if_neg hg] at h
      by_cases hdigit : d.isDigit = true
      · rw [if_pos hdigit] at h
        obtain ⟨⟨part, m⟩, hpart, heq⟩ := bind_eq_ok_iff.1 h
        obtain ⟨-, rfl⟩ := Prod.mk.inj (Except.ok.inj heq)
        obtain ⟨e, t, rfl, rfl, hescape⟩ := isEscape_of_digitPart hdigit hpart
        exact ⟨d :: e, t, rfl, rfl, hescape⟩
      · rw [if_neg hdigit] at h
        cases hc : templateControl? d with
        | some c =>
          rw [hc] at h
          obtain ⟨-, rfl⟩ := Prod.mk.inj (Except.ok.inj h)
          exact ⟨[d], t, rfl, rfl, .control t (by rw [hc]; rfl)⟩
        | none =>
          rw [hc] at h
          simp only at h
          split_ifs at h with halpha
          obtain ⟨-, rfl⟩ := Prod.mk.inj (Except.ok.inj h)
          exact ⟨[d], t, rfl, rfl,
            .sign t (Bool.eq_false_iff.2 halpha) (Bool.eq_false_iff.2 hdigit)⟩

/-! ### Escapes are read to their end -/

theorem mem_of_isSome_templateControl? {d : Char} (h : (templateControl? d).isSome = true) :
    d ∈ "b\\afnrtv".toList := by
  rw [templateControl?] at h
  split_ifs at h with hb hs
  · simp [hb]
  · simp [hs]
  · unfold controlOf? at h
    split at h <;> first | decide | cases h

/-- A name in angle brackets is read up to the closing one. -/
theorem takeWhile_name {name : Text} {q : Char → Bool} (hq : q '>' = false)
    (h : name.all q = true) (t : Text) :
    (name ++ '>' :: t).takeWhile (· ≠ '>') = name := by
  have hne : ∀ c ∈ name, decide (c ≠ '>') = true := by
    intro c hc
    rw [decide_eq_true_iff]
    rintro rfl
    rw [List.all_eq_true.1 h _ hc] at hq
    cases hq
  rw [List.takeWhile_append_of_pos hne, List.takeWhile_cons_of_neg (by simp), List.append_nil]

theorem namedPart_name {name : Text} (hname : isUnicodeIdentifier name = true)
    (hgroup : (p.names.lookup name).isSome = true) (t : Text) :
    ∃ part, namedPart p ('<' :: (name ++ '>' :: t)) = .ok (part, name.length + 2) := by
  have hne : name ≠ [] := by
    rintro rfl
    cases hname
  obtain ⟨m, hm⟩ := Option.isSome_iff_exists.1 hgroup
  have hlength : ¬(name.length = (name ++ '>' :: t).length ∨ name = []) := by simp [hne]
  refine ⟨.group m, ?_⟩
  simp only [namedPart,
    takeWhile_name (by decide +kernel) (isUnicodeIdentifierChar_of_isUnicodeIdentifier hname)]
  rw [if_neg hlength, if_pos hname, hm]

theorem namedPart_number {ds : Text} (hne : ds ≠ []) (hds : ds.all Char.isDigit = true)
    (hgroup : decimalOf ds ≤ p.count) (t : Text) :
    ∃ part, namedPart p ('<' :: (ds ++ '>' :: t)) = .ok (part, ds.length + 2) := by
  have hlength : ¬(ds.length = (ds ++ '>' :: t).length ∨ ds = []) := by simp [hne]
  have hname : ¬isUnicodeIdentifier ds = true :=
    Bool.eq_false_iff.1 (isUnicodeIdentifier_eq_false_of_all_isDigit hds)
  refine ⟨.group (decimalOf ds), ?_⟩
  simp only [namedPart, takeWhile_name (by decide) hds]
  rw [if_neg hlength, if_neg hname, if_pos hds]
  exact groupPart_bind_eq_ok_iff.2 ⟨hgroup, rfl, rfl⟩

theorem escapedParts_digit {d : Char} (hd : d.isDigit = true) {part : TemplatePart}
    (h : digitPart p d t = .ok (part, n)) :
    ∃ parts, escapedParts p (d :: t) = .ok (parts, n) := by
  have hg : d ≠ 'g' := by
    rintro rfl
    exact absurd hd (by decide)
  refine ⟨[part], ?_⟩
  rw [escapedParts, if_neg hg, if_pos hd, h]
  rfl

theorem escapedParts_named {name : Text} {part : TemplatePart}
    (h : namedPart p ('<' :: (name ++ '>' :: t)) = .ok (part, name.length + 2)) :
    ∃ parts, escapedParts p ('g' :: '<' :: (name ++ ['>']) ++ t) =
      .ok (parts, ('g' :: '<' :: (name ++ ['>'])).length) := by
  have happend : 'g' :: '<' :: (name ++ ['>']) ++ t = 'g' :: '<' :: (name ++ '>' :: t) := by simp
  have hlength : ('g' :: '<' :: (name ++ ['>'])).length = name.length + 2 + 1 := by simp
  refine ⟨[part], ?_⟩
  rw [happend, hlength, escapedParts, if_pos rfl, h]
  rfl

/-- Every escape is read, to its end. -/
theorem IsEscape.escapedParts (h : IsEscape p e t) :
    ∃ parts, escapedParts p (e ++ t) = .ok (parts, e.length) := by
  cases h with
  | @control d _ hd =>
    obtain ⟨c, hc⟩ := Option.isSome_iff_exists.1 hd
    have hmem := mem_of_isSome_templateControl? hd
    have hg : d ≠ 'g' := ne_of_mem_of_not_mem hmem (by decide)
    have hdigits : "b\\afnrtv".toList.any Char.isDigit = false := by decide
    have hdigit : ¬d.isDigit = true := Bool.eq_false_iff.1 (eq_false_of_any hdigits d hmem)
    refine ⟨[.char c], ?_⟩
    rw [List.singleton_append, DocDecl.escapedParts, if_neg hg, if_neg hdigit, hc]
    rfl
  | @sign d _ hletter hdigit =>
    have hg : d ≠ 'g' := by
      rintro rfl
      exact absurd hletter (by decide)
    rw [List.singleton_append, DocDecl.escapedParts, if_neg hg, if_neg (by simp [hdigit])]
    cases templateControl? d with
    | some c => exact ⟨_, rfl⟩
    | none => exact ⟨_, if_neg (by simp [hletter])⟩
  | @code _ _ m h =>
    obtain ⟨d, e, rfl, hd, hescape⟩ := h.exists_digitEscape?
    have hpart : digitPart p d (e ++ t) = .ok (.char (Char.ofNat m), e.length + 1) := by
      rw [digitPart, hescape]
    exact escapedParts_digit hd hpart
  | @group _ _ m h hgroup =>
    obtain ⟨d, e, rfl, hd, hescape⟩ := h.exists_digitEscape?
    have hpart : digitPart p d (e ++ t) = .ok (.group m, e.length + 1) := by
      rw [digitPart, hescape]
      exact groupPart_bind_eq_ok_iff.2 ⟨hgroup, rfl, rfl⟩
    exact escapedParts_digit hd hpart
  | @name name _ hname hgroup =>
    obtain ⟨part, hpart⟩ := namedPart_name hname hgroup t
    exact escapedParts_named hpart
  | @number ds _ hne hds hgroup =>
    obtain ⟨part, hpart⟩ := namedPart_number hne hds hgroup t
    exact escapedParts_named hpart

/-! ### Right templates -/

/-- The right templates for a pattern. -/
inductive IsTemplate (p : NamedPattern) : Text → Prop
  | nil : IsTemplate p []
  /-- Any other character than a backslash. -/
  | plain {c : Char} {t : Text} (hc : c ≠ '\\') (h : IsTemplate p t) : IsTemplate p (c :: t)
  /-- A backslash with an escape behind it. -/
  | escape {e t : Text} (he : IsEscape p e t) (h : IsTemplate p t) :
      IsTemplate p ('\\' :: (e ++ t))

/-- Characters that belong to the part before are left out. -/
theorem templateParts_eq_drop (p : NamedPattern) (n : Nat) (t : Text) :
    templateParts p n t = templateParts p 0 (t.drop n) := by
  induction n generalizing t with
  | zero => rfl
  | succ n ih =>
    cases t with
    | nil => rfl
    | cons c t => exact ih t

theorem templateParts_backslash_eq_ok_iff :
    (∃ parts, templateParts p 0 ('\\' :: s) = .ok parts) ↔
      ∃ parts n, escapedParts p s = .ok (parts, n) ∧
        ∃ parts', templateParts p 0 (s.drop n) = .ok parts' := by
  simp only [templateParts, if_pos, bind_eq_ok_iff, Prod.exists, templateParts_eq_drop p _ s]
  constructor
  · rintro ⟨_, parts, n, hescape, parts', h, -⟩
    exact ⟨parts, n, hescape, parts', h⟩
  · rintro ⟨parts, n, hescape, parts', h⟩
    exact ⟨_, parts, n, hescape, parts', h, rfl⟩

theorem templateParts_plain_eq_ok_iff {c : Char} (hc : c ≠ '\\') :
    (∃ parts, templateParts p 0 (c :: t) = .ok parts) ↔
      ∃ parts, templateParts p 0 t = .ok parts := by
  simp only [templateParts, if_neg hc, bind_eq_ok_iff]
  constructor
  · rintro ⟨_, parts, h, -⟩
    exact ⟨parts, h⟩
  · rintro ⟨parts, h⟩
    exact ⟨_, parts, h, rfl⟩

theorem isTemplate_of_templateParts (t : Text) (h : ∃ parts, templateParts p 0 t = .ok parts) :
    IsTemplate p t := by
  match t with
  | [] => exact .nil
  | c :: s =>
    by_cases hc : c = '\\'
    · rw [hc] at h ⊢
      obtain ⟨parts, n, hescape, hrest⟩ := templateParts_backslash_eq_ok_iff.1 h
      obtain ⟨e, r, happend, hlength, he⟩ := isEscape_of_escapedParts hescape
      have hle : r.length ≤ s.length := by
        rw [happend, List.length_append]
        exact Nat.le_add_left _ _
      rw [happend, ← hlength, List.drop_left] at hrest
      rw [happend]
      exact .escape he (isTemplate_of_templateParts r hrest)
    · exact .plain hc (isTemplate_of_templateParts s ((templateParts_plain_eq_ok_iff hc).1 h))
termination_by t.length
decreasing_by all_goals simp only [List.length_cons]; omega

/-- Right templates are those that can be read. -/
theorem exists_templateParts_iff :
    (∃ parts, templateParts p 0 t = .ok parts) ↔ IsTemplate p t := by
  refine ⟨isTemplate_of_templateParts t, fun h => ?_⟩
  induction h with
  | nil => exact ⟨[], rfl⟩
  | plain hc _ ih => exact (templateParts_plain_eq_ok_iff hc).2 ih
  | escape he _ ih =>
    obtain ⟨parts, hparts⟩ := he.escapedParts
    exact templateParts_backslash_eq_ok_iff.2 ⟨parts, _, hparts, by rwa [List.drop_left]⟩

/-! ### Rules -/

namespace ReplacementRule

variable {r : ReplacementRule}

/-- What is wrong with a rule. -/
def fault? (r : ReplacementRule) : Option RuleFault :=
  match r.compile with
  | .error e => some e
  | .ok p =>
    match templateParts p 0 r.template with
    | .error e => some e
    | .ok _ => none

/-- The pattern of a rule can be read, and the template is right for it. -/
def IsRight (r : ReplacementRule) : Prop := ∃ p, r.compile = .ok p ∧ IsTemplate p r.template

/-- A rule fails on every text or on none. -/
theorem apply_eq_error_iff {f : RuleFault} (t : Text) :
    r.apply t = .error f ↔ r.fault? = some f := by
  rw [apply, fault?, bind_eq_error_iff]
  cases r.compile with
  | error e => simp
  | ok p =>
    cases hparts : templateParts p 0 r.template with
    | error e => simp [bind, Except.bind, hparts]
    | ok parts => simp [bind, Except.bind, pure, Except.pure, hparts]

theorem fault?_eq_none_iff : r.fault? = none ↔ r.IsRight := by
  rw [fault?, IsRight]
  cases r.compile with
  | error e => simp
  | ok p =>
    simp only [Except.ok.injEq, exists_eq_left', ← exists_templateParts_iff]
    cases templateParts p 0 r.template with
    | error e => simp
    | ok parts => simp

end ReplacementRule

end DocDecl

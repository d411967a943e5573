import DocDecl.Proofs.Text.Replacing
import DocDecl.Proofs.TypeExpr.Alternatives

/-!
# String literals as types

A type may be a string literal, or several with bars between them. The bars between literals part
them, and those in a literal do not, as the scan for alternatives skips strings. The rewriting of
names does not skip them: a tilde in a literal becomes a dot, the words in front of linked names are
taken out of it, and a hash makes a link to a member of what stands in front of it. So a literal
stays as it is exactly if it holds none of these marks.

## Main definitions

* `StringLiteral` : a literal as a type.
* `StringLiteral.form` : what is declared for it.
* `StringLiteral.IsUnmarked` : a literal without the marks of names.
* `KeepsStringLiterals` : what is declared for several literals.

## Main results

* `StringLiteral.declaredType_literals` : the literals are brought into their forms one by one.
* `StringLiteral.form_append_eq_iff` : the form of a literal without marks, and of no other, is the
  literal.
* `keepsStringLiterals` : which types of literals stay as they are.
* `not_kept_of_mark` : each of the marks.
-/

namespace DocDecl

open LiteralGrammar Text

variable {q : Char} {s t : Text}

/-! ### Literals -/

/-- A string literal: two quotes of one kind, and a text without quotes and backslashes between
them. -/
structure StringLiteral where
  /-- The quote on both sides. -/
  quote : Char
  /-- What stands between the quotes. -/
  content : Text
  isQuote_quote : isQuote quote = true
  plain : ∀ c ∈ content, isQuote c = false ∧ c ≠ '\\'

/-- A name with dots for its tildes, and without the words that tell what it links to. -/
def dottedName (t : Text) : Text :=
  replace "~" "." (replace "module:" "" (replace "external:" "" t))

namespace StringLiteral

variable (l : StringLiteral)

/-- The literal as it is written. -/
def text : Text := l.quote :: (l.content ++ [l.quote])

/-- What is declared for the literal. -/
def form : Text :=
  match cut? "#" (dottedName l.content) with
  | some (owner, member) => "typeof " ++ l.quote :: owner ++ ".prototype." ++ (member ++ [l.quote])
  | none => l.quote :: (dottedName l.content ++ [l.quote])

/-- Nothing in the literal is a mark of names. -/
structure IsUnmarked : Prop where
  no_tilde : '~' ∉ l.content
  no_hash : '#' ∉ l.content
  no_external : ¬"external:".toList <:+: l.content
  no_module : ¬"module:".toList <:+: l.content

/-- Literals with bars between them. -/
def union (ls : List StringLiteral) : Text := join "|" (ls.map text)

/-! ### The alternatives -/

theorem isQuoted_content : IsQuoted l.quote l.content := by
  have hquoted (t : Text) (h : ∀ c ∈ t, isQuote c = false ∧ c ≠ '\\') : IsQuoted l.quote t := by
    induction t with
    | nil => exact .nil
    | cons c t ih =>
      obtain ⟨⟨hc, hb⟩, ht⟩ := List.forall_mem_cons.1 h
      refine .plain hb ?_ (ih ht)
      rintro rfl
      rw [l.isQuote_quote] at hc
      cases hc
  exact hquoted l.content l.plain

theorem isBlank_quote : isBlank l.quote = false := by
  rw [Bool.eq_false_iff]
  intro h
  have hquote : isQuote l.quote = false := eq_false_of_isBlank (by decide) h
  rw [l.isQuote_quote] at hquote
  cases hquote

theorem quote_notMem_content : l.quote ∉ l.content := by
  intro h
  have hquote := (l.plain _ h).1
  rw [l.isQuote_quote] at hquote
  cases hquote

theorem trim_text : trim l.text = l.text := by
  refine trim_eq_self_iff.2 ⟨?_, trimRight_append_singleton l.isBlank_quote (l.quote :: l.content)⟩
  exact List.dropWhile_cons_of_neg (by simp [l.isBlank_quote])

theorem isClosedPiece_text : IsClosedPiece '|' l.text := by
  intro t
  have happend : l.text ++ t = l.quote :: (l.content ++ l.quote :: t) := by simp [text]
  rw [happend, piecesAt_quoted l.isQuote_quote l.isQuoted_content]
  rfl

/-- A literal between the literals of a type has a bar behind it. -/
theorem union_cons {ls : List StringLiteral} (h : ls ≠ []) :
    union (l :: ls) = l.text ++ ("|" ++ union ls) := by
  rw [union, List.map_cons, join_cons (by simpa using h), List.append_assoc]
  rfl

theorem union_singleton : union [l] = l.text := by
  simp [union, join]

theorem trim_union (ls : List StringLiteral) : trim (union ls) = union ls := by
  induction ls with
  | nil => rfl
  | cons l ls ih =>
    by_cases hls : ls = []
    · subst hls
      rw [union_singleton, trim_text]
    · have hbar : trimRight "|" = "|".toList := by decide
      rw [l.union_cons hls, trim_append_of_eq l.trim_text (List.cons_ne_nil _ _),
        trimRight_append_of_eq hbar, (trim_eq_self_iff.1 ih).2]

theorem balanced_append (ht : Balanced true t) : Balanced true (l.text ++ t) := by
  have hquoted := Balanced.quoted l.isQuote_quote l.isQuoted_content ht
  simpa [text] using hquoted

theorem balanced_union (ls : List StringLiteral) : Balanced true (union ls) := by
  induction ls with
  | nil => exact .nil
  | cons l ls ih =>
    by_cases hls : ls = []
    · subst hls
      rw [union_singleton, ← List.append_nil l.text]
      exact l.balanced_append .nil
    · rw [l.union_cons hls]
      exact l.balanced_append (.plain (by decide) (fun _ => rfl) ih)

/-- The alternatives are the literals, whatever stands in them. -/
theorem splitTopLevel_union (ls : List StringLiteral) (hne : ls ≠ []) :
    splitTopLevel (some '|') (union ls) = ls.map text := by
  have htrim (l : StringLiteral) : trim l.text ≠ [] := by
    rw [l.trim_text]
    exact List.cons_ne_nil _ _
  induction ls with
  | nil => exact absurd rfl hne
  | cons l ls ih =>
    by_cases hls : ls = []
    · subst hls
      rw [union_singleton, splitTopLevel_of_isPiece l.isClosedPiece_text.isPiece (htrim l),
        l.trim_text]
      rfl
    · have hsplit := l.isClosedPiece_text.splitTopLevel_append_cons (by decide) (htrim l) (union ls)
      rw [l.trim_text, ih hls] at hsplit
      rw [l.union_cons hls]
      exact hsplit

/-! ### The form of a literal -/

theorem notMem_of_isQuote (hq : isQuote q = true) (hs : s.any isQuote = false) : q ∉ s := by
  intro h
  rw [eq_false_of_any hs q h] at hq
  cases hq

theorem dottedName_quoted (hq : isQuote q = true) (t : Text) :
    dottedName (q :: (t ++ [q])) = q :: (dottedName t ++ [q]) := by
  have hexternal : q ∉ "external:".toList := notMem_of_isQuote hq (by decide)
  have hmodule : q ∉ "module:".toList := notMem_of_isQuote hq (by decide)
  have htilde : q ∉ "~".toList := notMem_of_isQuote hq (by decide)
  simp only [dottedName]
  rw [replace_cons (by decide) hexternal, replace_concat (by decide) hexternal,
    replace_cons (by decide) hmodule, replace_concat (by decide) hmodule,
    replace_cons (by decide) htilde, replace_concat (by decide) htilde]

/-- A text without the three marks, and no other, is its own dotted name. -/
theorem dottedName_eq_self_iff :
    dottedName t = t ↔
      '~' ∉ t ∧ ¬"external:".toList <:+: t ∧ ¬"module:".toList <:+: t := by
  have hname : dottedName t =
      replace ['~'] ['.'] (replace "module:" [] (replace "external:" [] t)) := rfl
  rw [hname]
  constructor
  · intro h
    have hlength := congrArg List.length h
    rw [length_replace_singleton] at hlength
    have hexternal : ¬"external:".toList <:+: t := by
      intro hinfix
      have hlt := length_replace_nil_lt (by decide) hinfix
      have hne : "module:".toList ≠ [] := by decide
      have hle := length_replace_nil_le hne (replace "external:" [] t)
      omega
    rw [replace_of_not_isInfix (by decide) hexternal] at h hlength
    have hmodule : ¬"module:".toList <:+: t := by
      intro hinfix
      have hlt := length_replace_nil_lt (by decide) hinfix
      omega
    rw [replace_of_not_isInfix (by decide) hmodule] at h
    refine ⟨fun hmem => ?_, hexternal, hmodule⟩
    rw [← h, replace_singleton, List.mem_flatMap] at hmem
    obtain ⟨c, -, hc⟩ := hmem
    split_ifs at hc with htilde
    · exact absurd hc (by decide)
    · exact htilde (List.mem_singleton.1 hc).symm
  · rintro ⟨htilde, hexternal, hmodule⟩
    rw [replace_of_not_isInfix (by decide) hexternal, replace_of_not_isInfix (by decide) hmodule,
      replace_singleton_of_notMem htilde]

theorem isQuote_of_mem_dottedName {c : Char} (h : c ∈ dottedName l.content) :
    isQuote c = false := by
  rcases mem_of_mem_replace (by decide) h with h | h
  · rcases mem_of_mem_replace (by decide) h with h | h
    · rcases mem_of_mem_replace (by decide) h with h | h
      · exact (l.plain c h).1
      · cases h
    · cases h
  · obtain rfl := List.mem_singleton.1 h
    decide

/-- A text that begins with a quote is no name of a type. -/
theorem namedType_quoted (hq : isQuote q = true) (t : Text) : namedType (q :: t) = q :: t := by
  have hlower : lower (q :: t) = q :: lower t := by
    simp only [isQuote, Bool.or_eq_true, beq_iff_eq] at hq
    rcases hq with (rfl | rfl) | rfl <;> rfl
  have hne {key : Text} (hkey : key.any isQuote = false) : key ≠ lower (q :: t) := by
    rw [hlower]
    rintro rfl
    exact notMem_of_isQuote hq hkey List.mem_cons_self
  have hstart {key : Text} (hkey : key.any isQuote = false) (hnil : key ≠ []) :
      ¬key.isPrefixOf (lower (q :: t)) = true := by
    rw [hlower]
    exact not_isPrefixOf_cons hnil (notMem_of_isQuote hq hkey) (lower t)
  have hspelling : typeSpellings.find? (fun s => s.1 = lower (q :: t)) = none := by
    have hplain : ∀ s ∈ typeSpellings, s.1.any isQuote = false := by decide
    exact List.find?_eq_none.2 fun s hs => by simpa using hne (hplain s hs)
  have hcollection : collectionType? (q :: t) = none := by
    have hplain : ∀ name ∈ collectionNames,
        (lower name).any isQuote = false ∧ (lower name ++ "<").any isQuote = false := by decide
    refine List.findSome?_eq_none_iff.2 fun name hname => ?_
    obtain ⟨hkey, hargument⟩ := hplain name hname
    simp only
    rw [if_neg (hne hkey).symm, if_neg (hstart hargument (by simp))]
  have hstar : q :: t ≠ "*" := by
    intro h
    rw [(List.cons.inj h).1] at hq
    exact absurd hq (by decide)
  rw [namedType, hspelling, hcollection]
  simp only
  rw [if_neg (hne (by decide)).symm, if_neg (hstart (by decide) (by decide)), if_neg hstar]

theorem plainType_text : plainType l.text = l.form := by
  have hhash : l.quote ∉ "#".toList := notMem_of_isQuote l.isQuote_quote (by decide)
  have hcut : cut? "#" (dottedName l.text) =
      (cut? "#" (dottedName l.content)).map fun p => (l.quote :: p.1, p.2 ++ [l.quote]) := by
    rw [text, dottedName_quoted l.isQuote_quote,
      cut?_cons (not_isPrefixOf_cons (by decide) hhash _), cut?_concat (by decide) hhash,
      Option.map_map]
    rfl
  have hname : replace "~" "." (replace "module:" "" (replace "external:" "" l.text)) =
      dottedName l.text := rfl
  rw [plainType, form]
  simp only [hname, hcut]
  cases cut? "#" (dottedName l.content) with
  | none =>
    rw [text, dottedName_quoted l.isQuote_quote]
    exact namedType_quoted l.isQuote_quote _
  | some p =>
    simp only [Option.map_some]
    cases h : p.2 ++ [l.quote] with
    | nil => simp at h
    | cons c m => simp

theorem quote_ne {c : Char} (hc : isQuote c = false) : l.quote ≠ c := by
  rintro rfl
  rw [l.isQuote_quote] at hc
  cases hc

theorem declaredType_eq_form : declaredType l.text = l.form := by
  have hround : l.quote ≠ '(' := l.quote_ne (by decide)
  have hdot : l.quote ≠ '.' := l.quote_ne (by decide)
  have hbare : isParenthesised l.text = false := by
    simp [isParenthesised, text, hround]
  have hdots : after? "..." l.text = none := by
    rw [text]
    exact if_neg hdot.symm
  have hpiece : ¬1 < (alternatives l.text).length := by
    rw [alternatives_of_not_isParenthesised hbare]
    exact Nat.not_lt.2 (length_splitTopLevel_le l.isClosedPiece_text.isPiece)
  rw [declaredType_plain l.trim_text hpiece hdots, l.plainType_text]

/-- The literals are brought into their forms one by one. -/
theorem declaredType_literals (ls : List StringLiteral) :
    declaredType (union ls) = join "|" (ls.map form) := by
  match ls with
  | [] =>
    have hnil : declaredType [] = plainType [] :=
      declaredType_plain rfl (by decide +kernel) rfl
    rw [union, List.map_nil, List.map_nil, join, List.intercalate_nil, hnil]
    decide
  | [l] =>
    rw [union_singleton, l.declaredType_eq_form]
    simp [join]
  | l :: l' :: ls =>
    have hsplit := splitTopLevel_union (l :: l' :: ls) (List.cons_ne_nil _ _)
    have hlength : 1 < (splitTopLevel (some '|') (union (l :: l' :: ls))).length := by
      simp [hsplit]
    rw [declaredType_union (trim_union _) (balanced_union _) hlength, hsplit, List.map_map]
    exact congrArg (join _) (List.map_congr_left fun l _ => l.declaredType_eq_form)

/-! ### Literals that stay as they are -/

/-- Texts are the same up to the first place of a character, and behind it. -/
theorem eq_of_first_append {c : Char} {a b a' b' : Text} (h : a ++ c :: b = a' ++ c :: b')
    (ha : c ∉ a) (ha' : c ∉ a') : a = a' ∧ b = b' := by
  rcases List.append_eq_append_iff.1 h with ⟨w, rfl, hw⟩ | ⟨w, rfl, hw⟩
  · cases w with
    | nil => exact ⟨(List.append_nil a).symm, (List.cons.inj hw).2⟩
    | cons d w =>
      obtain ⟨rfl, -⟩ := List.cons.inj hw
      simp at ha'
  · cases w with
    | nil => exact ⟨List.append_nil a', (List.cons.inj hw).2.symm⟩
    | cons d w =>
      obtain ⟨rfl, -⟩ := List.cons.inj hw
      simp at ha

theorem quote_notMem_dottedName : l.quote ∉ dottedName l.content := by
  intro h
  have hquote := l.isQuote_of_mem_dottedName h
  rw [l.isQuote_quote] at hquote
  cases hquote

/-- The form of a literal without marks is the literal, and that of no other begins with it. -/
theorem form_append_eq_iff : l.form ++ s = l.text ++ t ↔ l.IsUnmarked ∧ s = t := by
  rw [form, text]
  cases hcut : cut? "#" (dottedName l.content) with
  | none =>
    have hhash := cut?_singleton_eq_none_iff.1 hcut
    constructor
    · intro h
      have htail : dottedName l.content ++ l.quote :: s = l.content ++ l.quote :: t := by
        simpa using h
      obtain ⟨hname, rfl⟩ :=
        eq_of_first_append htail l.quote_notMem_dottedName l.quote_notMem_content
      obtain ⟨htilde, hexternal, hmodule⟩ := dottedName_eq_self_iff.1 hname
      exact ⟨⟨htilde, hname ▸ hhash, hexternal, hmodule⟩, rfl⟩
    · rintro ⟨h, rfl⟩
      have hname := dottedName_eq_self_iff.2 ⟨h.no_tilde, h.no_external, h.no_module⟩
      simp only [hname]
  | some p =>
    constructor
    · intro h
      exact absurd (List.cons.inj h).1.symm (l.quote_ne (by decide))
    · rintro ⟨h, rfl⟩
      have hname := dottedName_eq_self_iff.2 ⟨h.no_tilde, h.no_external, h.no_module⟩
      have hnone : cut? "#" l.content = none := cut?_singleton_eq_none_iff.2 h.no_hash
      rw [hname, hnone] at hcut
      cases hcut

theorem join_form_eq_iff (ls : List StringLiteral) :
    join "|" (ls.map form) = union ls ↔ ∀ l ∈ ls, l.IsUnmarked := by
  induction ls with
  | nil => exact iff_of_true rfl (by simp)
  | cons l ls ih =>
    rw [List.forall_mem_cons]
    by_cases hls : ls = []
    · subst hls
      have hone := l.form_append_eq_iff (s := []) (t := [])
      rw [List.append_nil, List.append_nil] at hone
      rw [union_singleton, List.map_singleton, join, List.intercalate_singleton, hone]
      simp
    · rw [l.union_cons hls, List.map_cons, join_cons (by simpa using hls), List.append_assoc,
        form_append_eq_iff, List.append_cancel_left_eq, ih]

end StringLiteral

/-- What is declared for a type of string literals. -/
structure KeepsStringLiterals (ls : List StringLiteral) : Prop where
  /-- The bars are kept, and each literal between them is brought into its form. -/
  form_eq : declaredType (StringLiteral.union ls) = join "|" (ls.map StringLiteral.form)
  /-- The type stays as it is exactly if no mark of names stands in a literal. -/
  unchanged_iff :
    declaredType (StringLiteral.union ls) = StringLiteral.union ls ↔ ∀ l ∈ ls, l.IsUnmarked

/-- String literals are declared one by one, and stay as they are where no mark of names stands in
them. -/
theorem keepsStringLiterals (ls : List StringLiteral) : KeepsStringLiterals ls where
  form_eq := StringLiteral.declaredType_literals ls
  unchanged_iff := by
    rw [StringLiteral.declaredType_literals]
    exact StringLiteral.join_form_eq_iff ls

/-- A literal with one of the marks, and a union with a hash in its first literal. -/
theorem not_kept_of_mark :
    declaredType "'a~b'" = "'a.b'".toList ∧
      declaredType "'external:a'" = "'a'".toList ∧
      declaredType "\"module:a\"" = "\"a\"".toList ∧
      declaredType "'#fff'|'none'" = "typeof '.prototype.fff'|'none'".toList := by
  decide +kernel

end DocDecl

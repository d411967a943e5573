import DocDecl.Proofs.LineEnds.Alike
import DocDecl.Proofs.LineEnds.Literal
import DocDecl.Proofs.Literal.Reading

/-!
# The types of literals and line ends

The only line ends of a source that get into a type as they are stand in the keys of an object. All
keys that have one are in quotes, so the type of a value with carriage returns is the type of the
value with carriage returns at the line ends in quotes. Which line ends these are can be told from
the type alone: read from its end, a quote that no backslash stands in front of opens a key. So
values have the same type with carriage returns if they have the same type without, and the types of
the items of an array are repeated alike.

## Main definitions

* `Literal.IsUnix` : values without carriage returns in their keys.
* `QuoteState`, `quoteState`, `markQuoted` : a text with carriage returns at its line ends in
  quotes.

## Main results

* `isUnix_of_parseLiteral?` : the literals in a text without carriage returns.
* `type_dosLines` : the type of a value with carriage returns.
* `alike_type` : both types are alike.
-/

namespace DocDecl

open Text LiteralGrammar

/-! ### Keys without carriage returns -/

namespace Literal

mutual

/-- No key in the value has a carriage return. -/
def IsUnix : Literal → Prop
  | object members => AreUnixMembers members
  | array items => AreUnixItems items
  | _ => True

/-- No key in the items has a carriage return. -/
def AreUnixItems : List Literal → Prop
  | [] => True
  | v :: vs => IsUnix v ∧ AreUnixItems vs

/-- No key of the members, or in them, has a carriage return. -/
def AreUnixMembers : List (Text × Literal) → Prop
  | [] => True
  | (key, v) :: ms => '\r' ∉ key ∧ IsUnix v ∧ AreUnixMembers ms

end

end Literal

open Literal

theorem areUnixMembers_putMember {key : Text} {v : Literal} {ms : List (Text × Literal)}
    (hkey : '\r' ∉ key) (hv : v.IsUnix) (hms : AreUnixMembers ms) :
    AreUnixMembers (putMember key v ms) := by
  induction ms with
  | nil => exact ⟨hkey, hv, trivial⟩
  | cons m ms ih =>
    obtain ⟨k, w⟩ := m
    obtain ⟨hk, hw, hms⟩ := hms
    rw [putMember]
    split_ifs
    · exact ⟨hk, hv, hms⟩
    · exact ⟨hk, hw, ih hms⟩

theorem areUnixMembers_collected {ms : List (Text × Literal)} (hms : AreUnixMembers ms) :
    AreUnixMembers (collected ms) := by
  have key (acc : List (Text × Literal)) (hacc : AreUnixMembers acc) :
      AreUnixMembers (ms.foldl (fun obj m => putMember m.1 m.2 obj) acc) := by
    induction ms generalizing acc with
    | nil => exact hacc
    | cons m ms ih => exact ih hms.2.2 _ (areUnixMembers_putMember hms.1 hms.2.1 hacc)
  exact key [] trivial

namespace LiteralGrammar

/-- No key of a phrase, or in it, has a carriage return. -/
def Phrase.IsUnix : Phrase → Prop
  | .value v => v.IsUnix
  | .members ms => AreUnixMembers ms
  | .items vs => AreUnixItems vs

theorem Quoted.subset {q : Char} {t s r : Text} (h : Quoted q t s r) : s ⊆ t := by
  induction h with
  | close r => exact List.nil_subset _
  | escape _ ih => exact List.Subset.trans (List.cons_subset_cons _ ih) (List.subset_cons_self _ _)
  | plain _ _ _ _ ih => exact List.cons_subset_cons _ ih

theorem Key.subset {t k r : Text} (h : Key t k r) : k ⊆ t := by
  cases h with
  | quoted _ h => exact List.Subset.trans h.subset (List.subset_cons_self _ _)
  | identifier h => exact h.eq_append ▸ List.subset_append_left k r
  | number h => exact h.eq_append ▸ List.subset_append_left k r

theorem isUnix_of_derives {n : Nat} {p : Phrase} {t r : Text} (h : Derives n p t r)
    (ht : '\r' ∉ t) : p.IsUnix := by
  have hsub {s t : Text} (h : s <:+ t) (ht : '\r' ∉ t) : '\r' ∉ s := fun hs => ht (h.subset hs)
  induction h with
  | string => trivial
  | number => trivial
  | word _ hw => cases hw <;> trivial
  | object _ hobj ih =>
    exact hobj.eq_collected ▸ areUnixMembers_collected (ih (hsub (List.suffix_cons _ _) ht))
  | array _ ih => exact ih (hsub (List.suffix_cons _ _) ht)
  | noMember => trivial
  | lastMember h₁ hk h₂ h₃ hv h₄ ih =>
    have ht₁ := hsub h₁.suffix ht
    have ht₃ := hsub (List.suffix_cons _ _) (hsub h₂.suffix (hsub hk.suffix ht₁))
    exact ⟨fun hr => ht₁ (hk.subset hr), ih (hsub h₃.suffix ht₃), trivial⟩
  | member h₁ hk h₂ h₃ hv h₄ _ ih ihms =>
    have ht₁ := hsub h₁.suffix ht
    have ht₃ := hsub (List.suffix_cons _ _) (hsub h₂.suffix (hsub hk.suffix ht₁))
    have ht₄ := hsub h₃.suffix ht₃
    have ht₆ := hsub (List.suffix_cons _ _) (hsub h₄.suffix (hsub hv.suffix ht₄))
    exact ⟨fun hr => ht₁ (hk.subset hr), ih ht₄, ihms ht₆⟩
  | noItem => trivial
  | lastItem h₁ _ h₂ ih => exact ⟨ih (hsub h₁.suffix ht), trivial⟩
  | item h₁ hv h₂ _ ih ihvs =>
    have ht₁ := hsub h₁.suffix ht
    exact ⟨ih ht₁, ihvs (hsub (List.suffix_cons _ _) (hsub h₂.suffix (hsub hv.suffix ht₁)))⟩

end LiteralGrammar

/-- A text without carriage returns is read as a value without any in its keys. -/
theorem isUnix_of_parseLiteral? {t : Text} {v : Literal} (h : parseLiteral? t = some v)
    (ht : '\r' ∉ t) : v.IsUnix := by
  have hok : parseLiteral t = .ok v := by
    rw [parseLiteral?] at h
    cases hx : parseLiteral t with
    | error e => simp [hx, Except.toOption] at h
    | ok w => simpa [hx, Except.toOption] using h
  obtain ⟨s, r, hs, hd, -⟩ := parseLiteral_eq_ok_iff.1 hok
  exact isUnix_of_derives hd fun hr => ht (hs.suffix.subset hr)

/-! ### Line ends in quotes -/

/-- Where a text is that is read from its end: outside of quotes, inside, or behind a quote that
opens a key unless a backslash comes next. -/
inductive QuoteState where
  | outside
  | inside
  | opening
  deriving DecidableEq

namespace QuoteState

/-- The place in front of a character. -/
def next (c : Char) : QuoteState → QuoteState
  | outside => if c = '\'' then inside else outside
  | inside => if c = '\'' then opening else inside
  | opening => if c = '\\' then inside else if c = '\'' then inside else outside

/-- A character with a carriage return, if it is a line feed inside of quotes. -/
def out (c : Char) (q : QuoteState) : Text := if q = inside ∧ c = '\n' then ['\r', '\n'] else [c]

end QuoteState

/-- The place in front of a text, given the place behind it. -/
def quoteState (q : QuoteState) (t : Text) : QuoteState := t.foldr QuoteState.next q

/-- The text with carriage returns at its line ends inside of quotes, given the place behind it. -/
def markQuoted (q : QuoteState) : Text → Text
  | [] => []
  | c :: t => (quoteState q t).out c ++ markQuoted q t

section Marking

variable {q : QuoteState} {s t : Text}

theorem quoteState_cons (q : QuoteState) (c : Char) (t : Text) :
    quoteState q (c :: t) = (quoteState q t).next c := rfl

theorem quoteState_append (q : QuoteState) (s t : Text) :
    quoteState q (s ++ t) = quoteState (quoteState q t) s := List.foldr_append

theorem markQuoted_append (q : QuoteState) (s t : Text) :
    markQuoted q (s ++ t) = markQuoted (quoteState q t) s ++ markQuoted q t := by
  induction s with
  | nil => rfl
  | cons c s ih =>
    rw [List.cons_append, markQuoted, markQuoted, ih, quoteState_append, List.append_assoc]

/-- Nothing is lost: without carriage returns in the text, these are the marks. -/
theorem filter_markQuoted (h : '\r' ∉ t) (q : QuoteState) :
    (markQuoted q t).filter (· ≠ '\r') = t := by
  induction t with
  | nil => rfl
  | cons c t ih =>
    rw [List.mem_cons, not_or] at h
    rw [markQuoted, List.filter_append, ih h.2, QuoteState.out]
    split_ifs with hc
    · rw [hc.2]
      rfl
    · rw [List.filter_singleton, decide_eq_true (Ne.symm h.1)]
      rfl

theorem alike_markQuoted (h : '\r' ∉ t) (q : QuoteState) : Alike true t (markQuoted q t) := by
  induction t with
  | nil => exact .nil true
  | cons c t ih =>
    rw [List.mem_cons, not_or] at h
    rw [markQuoted, QuoteState.out]
    split_ifs with hc
    · rw [hc.2]
      exact .feed (ih h.2)
    · refine .cons true c ?_
      rw [bne_iff_ne.2 (Ne.symm h.1)]
      exact ih h.2

/-- A text without carriage returns that begins and ends outside of quotes, and the same text with
carriage returns at its line ends in quotes. -/
structure Marks (t t' : Text) : Prop where
  state_eq : quoteState .outside t = .outside
  mark_eq : markQuoted .outside t = t'
  notMem : '\r' ∉ t

namespace Marks

theorem append {s' t' : Text} (hs : Marks s s') (ht : Marks t t') : Marks (s ++ t) (s' ++ t') :=
  ⟨by rw [quoteState_append, ht.state_eq, hs.state_eq],
    by rw [markQuoted_append, ht.state_eq, hs.mark_eq, ht.mark_eq],
    by rw [List.mem_append, not_or]; exact ⟨hs.notMem, ht.notMem⟩⟩

theorem of_notMem (hr : '\r' ∉ t) (h : '\'' ∉ t) : Marks t t := by
  have key : quoteState .outside t = .outside ∧ markQuoted .outside t = t := by
    clear hr
    induction t with
    | nil => exact ⟨rfl, rfl⟩
    | cons c t ih =>
      rw [List.mem_cons, not_or] at h
      obtain ⟨hstate, hmark⟩ := ih h.2
      rw [quoteState_cons, markQuoted, hstate, hmark]
      exact ⟨if_neg (Ne.symm h.1), rfl⟩
  exact ⟨key.1, key.2, hr⟩

theorem join {sep : Text} (hsep : Marks sep sep) {ts ts' : List Text}
    (h : List.Forall₂ Marks ts ts') : Marks (join sep ts) (Text.join sep ts') := by
  induction h with
  | nil => exact .of_notMem List.not_mem_nil List.not_mem_nil
  | @cons t t' ts ts' ht hts ih =>
    cases hts with
    | nil => simpa [Text.join, List.intercalate] using ht
    | cons hu hus =>
      rw [join_cons (List.cons_ne_nil _ _), join_cons (List.cons_ne_nil _ _)]
      exact (ht.append hsep).append ih

end Marks

end Marking

/-! ### Indenting -/

/-- A text with its lines indented, except for the first. -/
def indentFollowing (t : Text) : Text := replace "\n" ("\n" ++ bodyTab) t

theorem indentFollowing_feed (t : Text) :
    indentFollowing ('\n' :: t) = '\n' :: ' ' :: ' ' :: indentFollowing t := rfl

theorem indentFollowing_cons {c : Char} (hc : c ≠ '\n') (t : Text) :
    indentFollowing (c :: t) = c :: indentFollowing t :=
  replace_singleton_cons_of_ne hc ("\n" ++ bodyTab) t

theorem quoteState_indentFollowing (q : QuoteState) (t : Text) :
    quoteState q (indentFollowing t) = quoteState q t := by
  induction t using Text.feed_induction with
  | nil => rfl
  | feed t ih =>
    rw [indentFollowing_feed, quoteState_cons, quoteState_cons, quoteState_cons, ih,
      quoteState_cons]
    cases quoteState q t <;> rfl
  | cons c t hc ih => rw [indentFollowing_cons hc, quoteState_cons, ih, quoteState_cons]

theorem markQuoted_indentFollowing (q : QuoteState) (t : Text) :
    markQuoted q (indentFollowing t) = indentFollowing (markQuoted q t) := by
  induction t using Text.feed_induction with
  | nil => rfl
  | feed t ih =>
    simp only [indentFollowing_feed, markQuoted, ih, quoteState_cons, quoteState_indentFollowing]
    cases quoteState q t <;> rfl
  | cons c t hc ih =>
    have hout (q : QuoteState) : q.out c = [c] := if_neg fun h => hc h.2
    rw [indentFollowing_cons hc, markQuoted, markQuoted, hout, hout, ih, List.singleton_append,
      List.singleton_append, indentFollowing_cons hc]

theorem notMem_indentFollowing {t : Text} (h : '\r' ∉ t) : '\r' ∉ indentFollowing t := by
  induction t using Text.feed_induction with
  | nil => exact h
  | feed t ih =>
    rw [List.mem_cons, not_or] at h
    simpa [indentFollowing_feed] using ih h.2
  | cons c t hc ih =>
    rw [List.mem_cons, not_or] at h
    rw [indentFollowing_cons hc, List.mem_cons, not_or]
    exact ⟨h.1, ih h.2⟩

theorem Marks.indentFollowing {t t' : Text} (h : Marks t t') :
    Marks (indentFollowing t) (DocDecl.indentFollowing t') :=
  ⟨(quoteState_indentFollowing _ _).trans h.state_eq,
    (markQuoted_indentFollowing _ _).trans (congrArg _ h.mark_eq),
    notMem_indentFollowing h.notMem⟩

/-! ### Keys -/

theorem escaped_cons (c : Char) (t : Text) :
    replace "'" "\\'" (c :: t) =
      (if c = '\'' then ['\\', '\''] else [c]) ++ replace "'" "\\'" t := by
  by_cases hc : c = '\''
  · rw [hc]
    rfl
  · rw [if_neg hc]
    exact replace_singleton_cons_of_ne hc "\\'" t

theorem notMem_escaped {t : Text} (h : '\r' ∉ t) : '\r' ∉ replace "'" "\\'" t := by
  induction t with
  | nil => exact h
  | cons c t ih =>
    rw [List.mem_cons, not_or] at h
    rw [escaped_cons, List.mem_append, not_or]
    refine ⟨?_, ih h.2⟩
    split_ifs
    · decide
    · simpa using h.1

theorem escaped_dosLines (t : Text) :
    replace "'" "\\'" (dosLines t) = dosLines (replace "'" "\\'" t) := by
  induction t using Text.feed_induction with
  | nil => rfl
  | feed t ih =>
    rw [dosLines_feed, escaped_cons, escaped_cons, escaped_cons, ih]
    rfl
  | cons c t hc ih =>
    rw [dosLines_cons hc, escaped_cons, escaped_cons, ih, dosLines_append]
    split_ifs
    · rfl
    · rw [dosLines_cons hc, dosLines_nil]

/-- In an escaped text every quote has a backslash in front. -/
theorem mark_escaped (t : Text) :
    quoteState .inside (replace "'" "\\'" t) = .inside ∧
      markQuoted .inside (replace "'" "\\'" t) = dosLines (replace "'" "\\'" t) := by
  induction t with
  | nil => exact ⟨rfl, rfl⟩
  | cons c t ih =>
    rw [escaped_cons, quoteState_append, markQuoted_append, ih.1, ih.2, dosLines_append]
    by_cases hc : c = '\''
    · simp only [if_pos hc]
      exact ⟨rfl, rfl⟩
    · simp only [if_neg hc]
      refine ⟨if_neg hc, congrArg (· ++ _) ?_⟩
      by_cases hn : c = '\n'
      · rw [hn]
        rfl
      · have hout : QuoteState.inside.out c = [c] := if_neg fun h => hn h.2
        rw [dosLines_cons hn, markQuoted, quoteState, List.foldr_nil, hout]
        rfl

theorem isIdentifier_dosLines (t : Text) : isIdentifier (dosLines t) = isIdentifier t := by
  by_cases hn : '\n' ∈ t
  · have hnot {u : Text} {c : Char} (hc : isBreak c = true) (hu : c ∈ u) :
        isIdentifier u = false := by
      rw [Bool.eq_false_iff]
      exact fun h => absurd hc (by simp [isBreak_of_mem_isIdentifier h c hu])
    rw [hnot rfl hn, hnot (c := '\n') rfl]
    obtain ⟨s, u, rfl⟩ := List.append_of_mem hn
    simp
  · rw [dosLines_of_notMem hn]

/-- The beginning of the line of a member. -/
theorem marks_keyText {key : Text} (hkey : '\r' ∉ key) :
    Marks (bodyTab ++ keyText key) (bodyTab ++ keyText (dosLines key)) := by
  have htab : Marks bodyTab bodyTab := .of_notMem (by decide) (by decide)
  rw [keyText, keyText, isIdentifier_dosLines, escaped_dosLines]
  by_cases h : isIdentifier key = true
  · rw [if_pos h, if_pos h, dosLines_of_oneLine (isBreak_of_mem_isIdentifier h)]
    refine htab.append (.of_notMem hkey fun hq => ?_)
    exact absurd (isAtomChar_of_mem_isIdentifier h _ hq) (by decide)
  · rw [if_neg h, if_neg h]
    obtain ⟨hstate, hmark⟩ := mark_escaped key
    have hquote : quoteState .outside "'" = .inside := rfl
    refine ⟨?_, ?_, ?_⟩
    · rw [quoteState_append, quoteState_append, quoteState_append, hquote, hstate]
      rfl
    · rw [markQuoted_append, markQuoted_append, markQuoted_append, quoteState_append,
        quoteState_append, hquote, hstate, hmark]
      rfl
    · simpa using ⟨htab.notMem, notMem_escaped hkey⟩

/-! ### Types -/

theorem Marks.arrayType {ts ts' : List Text} (h : List.Forall₂ Marks ts ts') :
    Marks (arrayType ts) (DocDecl.arrayType ts') := by
  have hts' : ts' = ts.map (markQuoted .outside) := by
    induction h with
    | nil => rfl
    | cons ht _ ih => rw [List.map_cons, ht.mark_eq, ih]
  have hall : ∀ t ∈ ts, Marks t (markQuoted .outside t) := by
    rw [hts', List.forall₂_map_right_iff, List.forall₂_same] at h
    exact h
  have hinj : ∀ t ∈ ts, ∀ u ∈ ts, markQuoted .outside t = markQuoted .outside u → t = u := by
    intro t ht u hu htu
    rw [← filter_markQuoted (hall t ht).notMem .outside, htu,
      filter_markQuoted (hall u hu).notMem]
  rw [DocDecl.arrayType, DocDecl.arrayType, hts', eraseDups_map hinj]
  have hdups : ∀ t ∈ ts.eraseDups, Marks t (markQuoted .outside t) :=
    fun t ht => hall t (List.mem_eraseDups.1 ht)
  generalize ts.eraseDups = us at hdups
  match us with
  | [] => exact .of_notMem (by decide) (by decide)
  | [t] => exact (hdups t List.mem_cons_self).append (.of_notMem (by decide) (by decide))
  | t :: u :: us =>
    have hus : List.Forall₂ Marks (t :: u :: us) ((t :: u :: us).map (markQuoted .outside)) := by
      rw [List.forall₂_map_right_iff, List.forall₂_same]
      exact hdups
    exact ((Marks.of_notMem (by decide) (by decide)).append
      (.join (.of_notMem (by decide) (by decide)) hus)).append (.of_notMem (by decide) (by decide))

theorem Marks.objectType {ls ls' : List Text} (h : List.Forall₂ Marks ls ls') :
    Marks (objectType ls) (DocDecl.objectType ls') := by
  have hbrace {t : Text} (hr : '\r' ∉ t) (hq : '\'' ∉ t) : List.Forall₂ Marks [t] [t] :=
    .cons (.of_notMem hr hq) .nil
  rw [DocDecl.objectType, DocDecl.objectType]
  cases h with
  | nil => exact .of_notMem (by decide) (by decide)
  | cons hl hls =>
    rw [if_neg (List.cons_ne_nil _ _), if_neg (List.cons_ne_nil _ _)]
    exact .join (.of_notMem (by decide) (by decide))
      (List.rel_append (List.rel_append (hbrace (by decide) (by decide)) (.cons hl hls))
        (hbrace (by decide) (by decide)))

mutual

/-- The type of a value with carriage returns is that of the value, with carriage returns at the
line ends in quotes. -/
theorem marks_type : (v : Literal) → v.IsUnix → Marks (v.type bodyTab) (v.dosLines.type bodyTab)
  | .object ms, h => .objectType (marks_memberLines ms h)
  | .array vs, h => .arrayType (marks_itemTypes vs h)
  | .string _, _ => .of_notMem (t := "string") (by decide) (by decide)
  | .number _, _ => .of_notMem (t := "number") (by decide) (by decide)
  | .boolean _, _ => .of_notMem (t := "boolean") (by decide) (by decide)
  | .null, _ => .of_notMem (t := "any") (by decide) (by decide)

theorem marks_itemTypes : (vs : List Literal) → AreUnixItems vs →
    List.Forall₂ Marks (itemTypes bodyTab vs) (itemTypes bodyTab (dosItems vs))
  | [], _ => .nil
  | v :: vs, h => .cons (marks_type v h.1) (marks_itemTypes vs h.2)

theorem marks_memberLines : (ms : List (Text × Literal)) → AreUnixMembers ms →
    List.Forall₂ Marks (memberLines bodyTab ms) (memberLines bodyTab (dosMembers ms))
  | [], _ => .nil
  | (_, v) :: ms, h =>
    .cons (((marks_keyText h.1).append (.of_notMem (by decide) (by decide))).append
      (marks_type v h.2.1).indentFollowing) (marks_memberLines ms h.2.2)

end

/-- The types of a value with and without carriage returns are alike. -/
theorem alike_type {v : Literal} (h : v.IsUnix) :
    Alike true (v.type bodyTab) (v.dosLines.type bodyTab) :=
  (marks_type v h).mark_eq ▸ alike_markQuoted (marks_type v h).notMem .outside

theorem getLast?_type_ne_feed (v : Literal) : (v.type bodyTab).getLast? ≠ some '\n' := by
  have hlast (s : Text) {t : Text} {c : Char} (ht : t.getLast? = some c) (hc : c ≠ '\n') :
      (s ++ t).getLast? ≠ some '\n' := by
    simpa [List.getLast?_append, ht] using hc
  cases v with
  | string => exact hlast [] (t := "string") rfl (by decide)
  | number => exact hlast [] (t := "number") rfl (by decide)
  | boolean => exact hlast [] (t := "boolean") rfl (by decide)
  | null => exact hlast [] (t := "any") rfl (by decide)
  | array vs =>
    change (arrayType (Literal.itemTypes bodyTab vs)).getLast? ≠ some '\n'
    rw [arrayType]
    split
    · decide
    · exact hlast _ (t := "[]") rfl (by decide)
    · exact hlast _ (t := ")[]") rfl (by decide)
  | object ms =>
    change (objectType (Literal.memberLines bodyTab ms)).getLast? ≠ some '\n'
    rw [objectType]
    split_ifs
    · decide
    · rw [unlines, join_concat (by simp)]
      exact hlast _ (t := ['}']) rfl (by decide)

end DocDecl

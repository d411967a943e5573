import DocDecl.Layout.Blocks
import DocDecl.Proofs.Delimiter.Grammar
import DocDecl.Proofs.Text.Pieces
import DocDecl.Proofs.Text.Replacing
import Mathlib

/-!
# Keys in declaration types

A key that is no identifier is written in single quotes, with a backslash in front of each single
quote in it. The type of a member is indented below the member, line by line, and a line of it may
end in a key. What is written is read back by dropping the backslashes. Reading and writing are
compared by counting: a key that comes back has as many backslashes dropped as it has quotes, and so
no backslash of its own, and no indentation.

## Main definitions

* `HasKey` : the keys of a value, at any depth.
* `writtenKey` : the text of a key in the type of a value.
* `WritesKey` : how a key is written, and what is read back.

## Main results

* `LiteralGrammar.Quoted.exists_count` : the backslashes that reading drops.
* `infix_type_of_hasKey` : where a key stands in the type.
* `writesKey_of_hasKey` : when a key is read back.
* `not_read_back_of_backslash` : a key that is not.
-/

namespace DocDecl

open Text LiteralGrammar

variable {indent k r : Text} {v : Literal} {d : Nat}

/-! ### Keys and where they are written -/

/-- A value has the key `k` inside of `d` members of objects, and in arrays or not. -/
inductive HasKey : Literal → Nat → Text → Prop
  | own {ms : List (Text × Literal)} {k : Text} {v : Literal} (h : (k, v) ∈ ms) :
      HasKey (.object ms) 0 k
  | inMember {ms : List (Text × Literal)} {key k : Text} {v : Literal} {d : Nat}
      (h : (key, v) ∈ ms) (hk : HasKey v d k) : HasKey (.object ms) (d + 1) k
  | inItem {vs : List Literal} {k : Text} {v : Literal} {d : Nat} (h : v ∈ vs)
      (hk : HasKey v d k) : HasKey (.array vs) d k

/-- The indentation inside of `d` members. -/
def margin (indent : Text) (d : Nat) : Text := (List.replicate d indent).flatten

/-- A key as it is written inside of `d` members: its lines are indented with those of the type. -/
def writtenKey (indent : Text) (d : Nat) (k : Text) : Text :=
  (replace "\n" ("\n" ++ indent))^[d] (keyText k)

theorem margin_succ (indent : Text) (d : Nat) : margin indent (d + 1) = indent ++ margin indent d :=
  rfl

theorem writtenKey_succ (indent : Text) (d : Nat) (k : Text) :
    writtenKey indent (d + 1) k = replace "\n" ("\n" ++ indent) (writtenKey indent d k) :=
  Function.iterate_succ_apply' _ d _

theorem mem_of_mem_margin {c : Char} (h : c ∈ margin indent d) : c ∈ indent := by
  simp only [margin, List.mem_flatten, List.mem_replicate] at h
  obtain ⟨t, ⟨-, rfl⟩, hc⟩ := h
  exact hc

/-- The line of a member in the type of an object. -/
theorem mem_memberLines (indent : Text) {ms : List (Text × Literal)} (h : (k, v) ∈ ms) :
    indent ++ keyText k ++ ": " ++ replace "\n" ("\n" ++ indent) (v.type indent) ∈
      Literal.memberLines indent ms := by
  induction ms with
  | nil => cases h
  | cons m ms ih =>
    obtain ⟨key, w⟩ := m
    rw [Literal.memberLines]
    rcases List.mem_cons.1 h with h | h
    · cases h
      exact List.mem_cons_self
    · exact List.mem_cons_of_mem _ (ih h)

theorem mem_itemTypes {vs : List Literal} (h : v ∈ vs) :
    v.type indent ∈ Literal.itemTypes indent vs := by
  induction vs with
  | nil => cases h
  | cons w vs ih =>
    rw [Literal.itemTypes]
    rcases List.mem_cons.1 h with rfl | h
    · exact List.mem_cons_self
    · exact List.mem_cons_of_mem _ (ih h)

/-- A member begins on a line of its own. -/
theorem infix_objectType {ls : List Text} {l : Text} (h : l ∈ ls) :
    '\n' :: l <:+: objectType ls := by
  rw [objectType, if_neg (List.ne_nil_of_mem h)]
  exact infix_join_cons (List.mem_append_left _ h) "\n" _

theorem infix_arrayType {ts : List Text} {t : Text} (h : t ∈ ts) : t <:+: arrayType ts := by
  have h := List.mem_eraseDups.2 h
  rw [arrayType]
  generalize ts.eraseDups = us at h
  match us with
  | [] => cases h
  | [u] =>
    obtain rfl := List.mem_singleton.1 h
    exact (List.prefix_append t _).isInfix
  | u :: u' :: us =>
    exact (infix_join h "|").trans
      ((List.suffix_append _ _).isInfix.trans (List.prefix_append _ _).isInfix)

/-- A key stands at the beginning of a line behind its indentation, with a colon behind it. -/
theorem infix_type_of_hasKey (hindent : '\n' ∉ indent) (h : HasKey v d k) :
    '\n' :: (margin indent (d + 1) ++ (writtenKey indent d k ++ ": ")) <:+: v.type indent := by
  induction h with
  | @own ms k v h =>
    refine List.IsInfix.trans ?_ (infix_objectType (mem_memberLines indent h))
    refine ⟨[], replace "\n" ("\n" ++ indent) (v.type indent), ?_⟩
    simp [margin, writtenKey]
  | @inMember ms key k v d h _ ih =>
    have hline := infix_objectType (mem_memberLines indent h)
    refine List.IsInfix.trans ?_ ((List.suffix_append ('\n' :: _) _).isInfix.trans hline)
    have hfeed : "\n".toList = ['\n'] := rfl
    have hread := replace_singleton_isInfix ih '\n' ("\n" ++ indent)
    rw [replace_singleton_cons_self, replace_singleton_append, replace_singleton_append,
      replace_singleton_of_notMem fun hn => hindent (mem_of_mem_margin hn),
      replace_singleton_of_notMem (by decide) (t := ": ")] at hread
    rw [margin_succ, writtenKey_succ, hfeed, ← List.singleton_append, List.append_assoc]
    rw [hfeed, List.append_assoc] at hread
    exact hread
  | inItem h _ ih => exact ih.trans (infix_arrayType (mem_itemTypes h))

/-! ### Backslashes in quoted texts -/

/-- Each character that is dropped in reading is a backslash, and each quote and each backslash that
is read has one in front. -/
theorem LiteralGrammar.Quoted.exists_count {q : Char} {t s : Text} (hq : q ≠ '\\')
    (h : Quoted q t s r) :
    ∃ e, t.length = s.length + e + (r.length + 1) ∧
      t.count '\\' = s.count '\\' + e + r.count '\\' ∧ s.count q + s.count '\\' ≤ e := by
  induction h with
  | close r => exact ⟨0, by simp, by simp [hq], by simp⟩
  | @escape c t s r _ ih =>
    obtain ⟨e, hlength, hcount, hle⟩ := ih
    have hone : (if c == q then 1 else 0) + (if c == '\\' then 1 else 0) ≤ 1 := by
      by_cases hc : c = q
      · simp [hc, hq]
      · simp only [beq_false_of_ne hc, Bool.false_eq_true, if_false, Nat.zero_add]
        split <;> simp
    refine ⟨e + 1, ?_, ?_, ?_⟩
    · simp only [List.length_cons, hlength]
      omega
    · rw [List.count_cons_self, List.count_cons, List.count_cons, hcount]
      omega
    · rw [List.count_cons, List.count_cons]
      omega
  | plain hb hc _ _ ih =>
    obtain ⟨e, hlength, hcount, hle⟩ := ih
    refine ⟨e, ?_, ?_, ?_⟩
    · simp only [List.length_cons, hlength]
      omega
    · rw [List.count_cons_of_ne hb, List.count_cons_of_ne hb, hcount]
    · rwa [List.count_cons_of_ne hc, List.count_cons_of_ne hb]

/-! ### Escaped keys -/

/-- A character of a key in quotes, where `gap` is put behind line feeds. -/
def writtenChar (gap : Text) (c : Char) : Text :=
  if c = '\'' then ['\\', '\''] else if c = '\n' then '\n' :: gap else [c]

/-- A key as it stands between quotes, where `gap` is put behind line feeds. -/
def escapedKey (gap k : Text) : Text := k.flatMap (writtenChar gap)

theorem escapedKey_quote (gap k : Text) :
    escapedKey gap ('\'' :: k) = '\\' :: '\'' :: escapedKey gap k := rfl

theorem escapedKey_feed (gap k : Text) :
    escapedKey gap ('\n' :: k) = '\n' :: (gap ++ escapedKey gap k) := rfl

theorem escapedKey_plain {c : Char} (hq : c ≠ '\'') (hn : c ≠ '\n') (gap k : Text) :
    escapedKey gap (c :: k) = c :: escapedKey gap k := by
  rw [escapedKey, List.flatMap_cons, writtenChar, if_neg hq, if_neg hn]
  rfl

/-- Quotes and line feeds apart from the other characters of a key. -/
@[elab_as_elim]
theorem escape_induction {motive : Text → Prop} (nil : motive [])
    (quote : ∀ k, motive k → motive ('\'' :: k)) (feed : ∀ k, motive k → motive ('\n' :: k))
    (plain : ∀ c k, c ≠ '\'' → c ≠ '\n' → motive k → motive (c :: k)) (k : Text) : motive k := by
  induction k with
  | nil => exact nil
  | cons c k ih =>
    by_cases hq : c = '\''
    · exact hq ▸ quote k ih
    · by_cases hn : c = '\n'
      · exact hn ▸ feed k ih
      · exact plain c k hq hn ih

theorem replace_escapedKey {gap : Text} (hgap : '\n' ∉ gap) (indent k : Text) :
    replace "\n" ("\n" ++ indent) (escapedKey gap k) = escapedKey (indent ++ gap) k := by
  have hfeed : "\n".toList = ['\n'] := rfl
  rw [hfeed]
  induction k using escape_induction with
  | nil => rfl
  | quote k ih =>
    rw [escapedKey_quote, escapedKey_quote, replace_singleton_cons_of_ne (by decide),
      replace_singleton_cons_of_ne (by decide), ih]
  | feed k ih =>
    rw [escapedKey_feed, escapedKey_feed, replace_singleton_cons_self, replace_singleton_append,
      replace_singleton_of_notMem hgap, ih, List.append_assoc, List.append_assoc]
    rfl
  | plain c k hq hn ih =>
    rw [escapedKey_plain hq hn, escapedKey_plain hq hn, replace_singleton_cons_of_ne hn, ih]

theorem replace_quote (k : Text) : replace "'" "\\'" k = escapedKey [] k := by
  have hquote : "'".toList = ['\''] := rfl
  rw [hquote]
  induction k using escape_induction with
  | nil => rfl
  | quote k ih => rw [escapedKey_quote, replace_singleton_cons_self, ih]; rfl
  | feed k ih => rw [escapedKey_feed, replace_singleton_cons_of_ne (by decide), ih]; rfl
  | plain c k hq hn ih => rw [escapedKey_plain hq hn, replace_singleton_cons_of_ne hq, ih]

theorem writtenKey_eq (hindent : '\n' ∉ indent) (d : Nat) (h : isIdentifier k = false) :
    writtenKey indent d k = '\'' :: (escapedKey (margin indent d) k ++ ['\'']) := by
  induction d with
  | zero =>
    rw [writtenKey, Function.iterate_zero, id_eq, keyText, h, if_neg Bool.false_ne_true,
      replace_quote]
    rfl
  | succ d ih =>
    have hfeed : "\n".toList = ['\n'] := rfl
    have hgap : '\n' ∉ margin indent d := fun hn => hindent (mem_of_mem_margin hn)
    rw [writtenKey_succ, ih, margin_succ, ← replace_escapedKey hgap, hfeed,
      replace_singleton_cons_of_ne (by decide), replace_singleton_append]
    rfl

theorem writtenKey_of_isIdentifier (indent : Text) (d : Nat) (h : isIdentifier k = true) :
    writtenKey indent d k = k := by
  have hfeed : '\n' ∉ k := fun hn =>
    absurd (isAtomChar_of_mem_isIdentifier h _ hn) (by decide)
  induction d with
  | zero => exact if_pos h
  | succ d ih =>
    rw [writtenKey_succ, ih]
    exact replace_singleton_of_notMem hfeed _

theorem length_escapedKey (gap k : Text) :
    (escapedKey gap k).length = k.length + k.count '\'' + k.count '\n' * gap.length := by
  induction k using escape_induction with
  | nil => simp [escapedKey]
  | quote k ih =>
    simp only [escapedKey_quote, List.length_cons, ih, List.count_cons_self]
    rw [List.count_cons_of_ne (by decide)]
    omega
  | feed k ih =>
    simp only [escapedKey_feed, List.length_cons, List.length_append, ih, List.count_cons_self,
      Nat.add_mul]
    rw [List.count_cons_of_ne (by decide)]
    omega
  | plain c k hq hn ih =>
    rw [escapedKey_plain hq hn, List.length_cons, List.length_cons, ih, List.count_cons_of_ne hq,
      List.count_cons_of_ne hn]
    omega

theorem count_escapedKey {gap : Text} (hgap : '\\' ∉ gap) (k : Text) :
    (escapedKey gap k).count '\\' = k.count '\\' + k.count '\'' := by
  induction k using escape_induction with
  | nil => rfl
  | quote k ih =>
    rw [escapedKey_quote, List.count_cons_self, List.count_cons_of_ne (by decide), ih,
      List.count_cons_of_ne (by decide), List.count_cons_self, Nat.add_assoc]
  | feed k ih =>
    rw [escapedKey_feed, List.count_cons_of_ne (by decide), List.count_append,
      List.count_eq_zero.2 hgap, ih, List.count_cons_of_ne (by decide),
      List.count_cons_of_ne (by decide), Nat.zero_add]
  | plain c k hq hn ih =>
    rw [escapedKey_plain hq hn, List.count_cons, ih, List.count_cons, List.count_cons_of_ne hq]
    omega

/-- A key without backslashes is read back, if its line feeds stay as they are. -/
theorem quoted_escapedKey {gap : Text} (hslash : '\\' ∉ k) (hfeed : '\n' ∈ k → gap = [])
    (r : Text) : Quoted '\'' (escapedKey gap k ++ '\'' :: r) k r := by
  induction k using escape_induction with
  | nil => exact .close r
  | quote k ih =>
    rw [List.mem_cons, not_or] at hslash
    exact .escape (ih hslash.2 fun h => hfeed (List.mem_cons_of_mem _ h))
  | feed k ih =>
    rw [List.mem_cons, not_or] at hslash
    obtain rfl := hfeed List.mem_cons_self
    exact .plain (by decide) (by decide) (by simp) (ih hslash.2 fun _ => rfl)
  | plain c k hq hn ih =>
    rw [List.mem_cons, not_or] at hslash
    rw [escapedKey_plain hq hn]
    exact .plain (Ne.symm hslash.1) hq (by simp)
      (ih hslash.2 fun h => hfeed (List.mem_cons_of_mem _ h))

/-- Other keys are not. -/
theorem of_quoted_escapedKey {gap : Text} (hgap : '\\' ∉ gap)
    (h : Quoted '\'' (escapedKey gap k ++ '\'' :: r) k r) :
    '\\' ∉ k ∧ ('\n' ∈ k → gap = []) := by
  obtain ⟨e, hlength, hcount, hle⟩ := h.exists_count (by decide)
  rw [List.length_append, length_escapedKey, List.length_cons] at hlength
  rw [List.count_append, count_escapedKey hgap, List.count_cons_of_ne (by decide)] at hcount
  have hslash : k.count '\\' = 0 := by omega
  have hfeed : k.count '\n' * gap.length = 0 := by omega
  refine ⟨List.count_eq_zero.1 hslash, fun hn => ?_⟩
  rcases Nat.mul_eq_zero.1 hfeed with hzero | hzero
  · exact absurd hn (List.count_eq_zero.1 hzero)
  · exact List.eq_nil_of_length_eq_zero hzero

/-! ### Keys that are read back -/

/-- An identifier is read up to its end. -/
theorem key_identifier (h : isIdentifier k = true) (hr : endsWord r = true) : Key (k ++ r) k r := by
  have htake : r.takeWhile isNameChar = [] ∧ r.dropWhile isNameChar = r := by
    cases r with
    | nil => exact ⟨rfl, rfl⟩
    | cons c r =>
      have hc : ¬isNameChar c = true := by simpa [endsWord] using hr
      exact ⟨List.takeWhile_cons_of_neg hc, List.dropWhile_cons_of_neg hc⟩
  obtain ⟨c, u, rfl, hc, hu⟩ := isIdentifier_iff.1 h
  refine .identifier (identifierAt?_eq_some_iff.1 ?_)
  rw [List.cons_append, identifierAt?, if_pos hc, List.takeWhile_append_of_pos hu,
    List.dropWhile_append_of_pos hu, htake.1, htake.2, List.append_nil]

theorem key_quote_iff {t : Text} : Key ('\'' :: t) k r ↔ Quoted '\'' t k r := by
  constructor
  · intro h
    cases h with
    | quoted _ h => exact h
    | identifier h => exact absurd (.inr rfl) (AtomAt.of_identifier h).not_quote
    | number h => exact absurd (.inr rfl) (AtomAt.of_number h).not_quote
  · exact .quoted (.inr rfl)

theorem IsQuoted.append_plain {q : Char} {w t : Text} (hw : ∀ c ∈ w, c ≠ '\\' ∧ c ≠ q)
    (ht : IsQuoted q t) : IsQuoted q (w ++ t) := by
  induction w with
  | nil => exact ht
  | cons c w ih =>
    obtain ⟨⟨hb, hc⟩, hw⟩ := List.forall_mem_cons.1 hw
    exact .plain hb hc (ih hw)

/-- A key without backslashes is written as one string. -/
theorem isQuoted_escapedKey {gap : Text} (hgap : ∀ c ∈ gap, c ≠ '\\' ∧ c ≠ '\'')
    (hslash : '\\' ∉ k) : IsQuoted '\'' (escapedKey gap k) := by
  induction k using escape_induction with
  | nil => exact .nil
  | quote k ih =>
    rw [List.mem_cons, not_or] at hslash
    exact .escape _ (ih hslash.2)
  | feed k ih =>
    rw [List.mem_cons, not_or] at hslash
    exact .plain (by decide) (by decide) ((ih hslash.2).append_plain hgap)
  | plain c k hq hn ih =>
    rw [List.mem_cons, not_or] at hslash
    rw [escapedKey_plain hq hn]
    exact .plain (Ne.symm hslash.1) hq (ih hslash.2)

/-- How a key is written in the type of a value, and what is read back. -/
structure WritesKey (indent : Text) (v : Literal) (d : Nat) (k : Text) : Prop where
  /-- The key stands at the beginning of a line behind its indentation, with a colon behind it. -/
  infix_type :
    '\n' :: (margin indent (d + 1) ++ (writtenKey indent d k ++ ": ")) <:+: v.type indent
  /-- It is read back where it stands, up to its end, exactly if it has no backslash and its line
  feeds are not indented. -/
  reads_iff {r : Text} (hr : endsWord r = true) :
    Yields (readKey (writtenKey indent d k ++ r)) k r ↔
      '\\' ∉ k ∧ ('\n' ∈ k → margin indent d = [])
  /-- Without a backslash it is one identifier, or one string in single quotes. -/
  form (h : '\\' ∉ k) : isIdentifier (writtenKey indent d k) = true ∨
    ∃ s, IsQuoted '\'' s ∧ writtenKey indent d k = '\'' :: (s ++ ['\''])

/-- **Keys in types.** -/
theorem writesKey_of_hasKey (hindent : ∀ c ∈ indent, isBlank c = true ∧ c ≠ '\n')
    (h : HasKey v d k) : WritesKey indent v d k := by
  have hfeed : '\n' ∉ indent := fun hn => (hindent _ hn).2 rfl
  have hgap : ∀ c ∈ margin indent d, c ≠ '\\' ∧ c ≠ '\'' := by
    intro c hc
    have hblank := (hindent c (mem_of_mem_margin hc)).1
    constructor
    · rintro rfl
      exact absurd hblank (by decide)
    · rintro rfl
      exact absurd hblank (by decide)
  refine ⟨infix_type_of_hasKey hfeed h, fun {r} hr => ?_, fun hslash => ?_⟩
  · rw [yields_readKey_iff]
    cases hk : isIdentifier k with
    | true =>
      rw [writtenKey_of_isIdentifier indent d hk]
      have hmem {c : Char} (hc : isAtomChar c = false) : c ∉ k := fun h => by
        simp [isAtomChar_of_mem_isIdentifier hk c h] at hc
      exact iff_of_true (key_identifier hk hr)
        ⟨hmem (by decide), fun hn => absurd hn (hmem (by decide))⟩
    | false =>
      rw [writtenKey_eq hfeed d hk, List.cons_append, List.append_assoc, key_quote_iff]
      exact ⟨of_quoted_escapedKey fun hb => (hgap _ hb).1 rfl, fun h => quoted_escapedKey h.1 h.2 r⟩
  · cases hk : isIdentifier k with
    | true => exact .inl (by rwa [writtenKey_of_isIdentifier indent d hk])
    | false => exact .inr ⟨_, isQuoted_escapedKey hgap hslash, writtenKey_eq hfeed d hk⟩

/-- A key with a quote, inside of a member and an array. -/
theorem writesKey_of_quote :
    parseLiteral "\x7b list: [\x7b \"it's\": 1 \x7d] \x7d" =
        .ok (.object [("list", .array [.object [("it's", .number "1")]])]) ∧
      "\n    'it\\'s': ".toList <:+:
        (Literal.object [("list", .array [.object [("it's", .number "1")]])]).type bodyTab ∧
      Yields (readKey "'it\\'s': number") "it's" ": number" := by
  have hkey : HasKey (.object [("list", .array [.object [("it's", .number "1")]])]) 1 "it's" :=
    .inMember List.mem_cons_self (.inItem List.mem_cons_self (.own List.mem_cons_self))
  have hindent : ∀ c ∈ bodyTab, isBlank c = true ∧ c ≠ '\n' := by
    intro c hc
    obtain rfl : c = ' ' := List.eq_of_mem_replicate (n := 2) hc
    decide
  have h := writesKey_of_hasKey hindent hkey
  exact ⟨by cbv, h.infix_type, (h.reads_iff (by decide)).2 (by decide)⟩

/-- A backslash in a key is read as the mark of an escape, and a line feed in a key gets the
indentation of the member that the key is in. -/
theorem not_read_back_of_backslash :
    (parseLiteral "\x7b 'a\\\\b': 1 \x7d" = .ok (.object [("a\\b", .number "1")]) ∧
      (Literal.object [("a\\b", .number "1")]).type bodyTab = "\x7b\n  'a\\b': number\n\x7d" ∧
      ¬Yields (readKey "'a\\b'") "a\\b" []) ∧
    parseLiteral "\x7b a: \x7b 'x\ny': 1 \x7d \x7d" =
        .ok (.object [("a", .object [("x\ny", .number "1")])]) ∧
      (Literal.object [("a", .object [("x\ny", .number "1")])]).type bodyTab =
        "\x7b\n  a: \x7b\n    'x\n  y': number\n  \x7d\n\x7d" ∧
      ¬Yields (readKey "'x\n  y'") "x\ny" [] := by
  have hback (gap k : Text) (hgap : '\\' ∉ gap)
      (h : Yields (readKey ('\'' :: (escapedKey gap k ++ ['\'']))) k []) :
      '\\' ∉ k ∧ ('\n' ∈ k → gap = []) :=
    of_quoted_escapedKey hgap (key_quote_iff.1 (yields_readKey_iff.1 h))
  refine ⟨⟨by cbv, by decide +kernel, fun h => ?_⟩, by cbv, by decide +kernel, fun h => ?_⟩
  · have h := hback [] "a\\b" (by decide) h
    exact h.1 (by decide)
  · have h := hback bodyTab "x\ny" (by decide) h
    exact absurd (h.2 (by decide)) (by decide)

end DocDecl

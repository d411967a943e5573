import DocDecl.Literal.Reader
import DocDecl.Proofs.List.Keys
import Mathlib.Data.List.Induction

/-!
# The grammar of literals

The texts that are literals, said without the reader. A rule relates a text, what is derived at its
beginning, and the rest of the text behind that: tokens are the longest of their class, and a line
comment needs a line feed or the end of the text behind it, so the rest belongs to the rule.

Trivia stands between the tokens of an object or an array, and around the whole literal. The members
of an object are derived in the order in which they are written; what they come to, where a key is
repeated, is `LiteralGrammar.Collects`.

## Main definitions

* `LiteralGrammar.Trivia` : blanks and comments.
* `LiteralGrammar.Quoted` : what a quoted text stands for.
* `LiteralGrammar.IsNumber` : the spellings of numbers.
* `LiteralGrammar.LongestAt` : the longest beginning of a text in a class.
* `LiteralGrammar.Derives` : values, and the members and items inside of brackets.
* `LiteralGrammar.IsLiteral` : a text that is one literal.

## Main results

* `LiteralGrammar.Trivia.trans` : trivia behind trivia is trivia.
* `LiteralGrammar.Derives.suffix` : the rest is the end of the text.
-/

namespace DocDecl

namespace LiteralGrammar

/-! ### Trivia -/

/-- Blanks, line comments up to the line feed or the end of the text, and closed block comments. -/
inductive Trivia : Text → Text → Prop
  | done (r : Text) : Trivia r r
  | blank {c : Char} {t r : Text} (hc : isBlank c = true) (h : Trivia t r) : Trivia (c :: t) r
  | line {s t r : Text} (hs : '\n' ∉ s) (ht : t = [] ∨ t.head? = some '\n') (h : Trivia t r) :
      Trivia ('/' :: '/' :: (s ++ t)) r
  | block {s t r : Text} (hs : ¬['*', '/'] <:+: s) (h : Trivia t r) :
      Trivia ('/' :: '*' :: (s ++ '*' :: '/' :: t)) r

/-! ### Quoted texts -/

/-- A text behind an opening quote, what it stands for up to the first unescaped quote, and the text
behind that. A backslash is dropped and the next character kept. Between back quotes no unescaped
dollar sign stands before a brace. -/
inductive Quoted (quote : Char) : Text → Text → Text → Prop
  | close (r : Text) : Quoted quote (quote :: r) [] r
  | escape {c : Char} {t s r : Text} (h : Quoted quote t s r) :
      Quoted quote ('\\' :: c :: t) (c :: s) r
  | plain {c : Char} {t s r : Text} (hb : c ≠ '\\') (hq : c ≠ quote)
      (hd : ¬(quote = '\x60' ∧ c = '$' ∧ t.head? = some '{')) (h : Quoted quote t s r) :
      Quoted quote (c :: t) (c :: s) r

/-! ### Numbers and words -/

/-- An optional sign. -/
inductive Sign : Text → Prop
  | none : Sign []
  | minus : Sign ['-']
  | plus : Sign ['+']

/-- The class of hexadecimal digits. -/
def isHexDigit (c : Char) : Bool := c.isDigit || ('a' ≤ c && c ≤ 'f') || ('A' ≤ c && c ≤ 'F')

/-- A number with a base, without its sign. -/
inductive Based : Text → Prop
  | hexadecimal {c : Char} {ds : Text} (hc : c = 'x' ∨ c = 'X') (hne : ds ≠ [])
      (hds : ∀ d ∈ ds, isHexDigit d = true) : Based ('0' :: c :: ds)
  | binary {c : Char} {ds : Text} (hc : c = 'b' ∨ c = 'B') (hne : ds ≠ [])
      (hds : ∀ d ∈ ds, d = '0' ∨ d = '1') : Based ('0' :: c :: ds)
  | octal {c : Char} {ds : Text} (hc : c = 'o' ∨ c = 'O') (hne : ds ≠ [])
      (hds : ∀ d ∈ ds, '0' ≤ d ∧ d ≤ '7') : Based ('0' :: c :: ds)

/-- The digits of a decimal number, with at most one point. -/
inductive Mantissa : Text → Prop
  | whole {ds : Text} (hne : ds ≠ []) (hds : ∀ d ∈ ds, isDecimal d = true) : Mantissa ds
  | point {ds fs : Text} (hne : ds ≠ []) (hds : ∀ d ∈ ds, isDecimal d = true)
      (hfs : ∀ d ∈ fs, isDecimal d = true) : Mantissa (ds ++ '.' :: fs)
  | fraction {fs : Text} (hne : fs ≠ []) (hfs : ∀ d ∈ fs, isDecimal d = true) :
      Mantissa ('.' :: fs)

/-- The exponent of a decimal number, if it has one. -/
inductive Exponent : Text → Prop
  | none : Exponent []
  | some {c : Char} {s ds : Text} (hc : c = 'e' ∨ c = 'E') (hs : Sign s) (hne : ds ≠ [])
      (hds : ∀ d ∈ ds, isDecimal d = true) : Exponent (c :: (s ++ ds))

/-- The spellings of numbers. -/
inductive IsNumber : Text → Prop
  | based {s w : Text} (hs : Sign s) (hw : Based w) : IsNumber (s ++ w)
  | decimal {s m e : Text} (hs : Sign s) (hm : Mantissa m) (he : Exponent e) :
      IsNumber (s ++ (m ++ e))

/-- The words that are values. -/
inductive Word : Text → Literal → Prop
  | true : Word "true" (.boolean true)
  | false : Word "false" (.boolean false)
  | null : Word "null" .null

/-- The longest beginning `w` of the text `t` in a class, and the text `r` behind it. -/
structure LongestAt (P : Text → Prop) (t w r : Text) : Prop where
  eq_append : t = w ++ r
  mem : P w
  length_le : ∀ w' r', t = w' ++ r' → P w' → w'.length ≤ w.length

/-- A key: a text in single or double quotes, an identifier or a number. -/
inductive Key : Text → Text → Text → Prop
  | quoted {q : Char} {t k r : Text} (hq : q = '"' ∨ q = '\'') (h : Quoted q t k r) :
      Key (q :: t) k r
  | identifier {t k r : Text} (h : LongestAt (isIdentifier · = true) t k r) : Key t k r
  | number {t k r : Text} (h : LongestAt IsNumber t k r) : Key t k r

/-! ### Values -/

/-- What members come to that are written in the order of `ms`: a key has the place where it is
written first, and the value that is written last. -/
structure Collects (ms obj : List (Text × Literal)) : Prop where
  keys : obj.map Prod.fst = (ms.map Prod.fst).eraseDups
  values : ∀ k, obj.lookup k = ms.reverse.lookup k

/-- What can be derived: a value, or the inside of a bracket with the bracket that closes it. -/
inductive Phrase where
  | value (v : Literal)
  | members (ms : List (Text × Literal))
  | items (vs : List Literal)

/-- The bracket that the inside of an object or of an array ends with. -/
def Phrase.closers : Phrase → List Char
  | .value _ => []
  | .members _ => ['}']
  | .items _ => [']']

/-- What a text begins with, where objects and arrays nest at most `n` deep. Behind its last member
or item an object or an array may have a comma. -/
inductive Derives : Nat → Phrase → Text → Text → Prop
  | string {n : Nat} {q : Char} {t s r : Text} (hq : isQuote q = true) (h : Quoted q t s r) :
      Derives n (.value (.string s)) (q :: t) r
  | number {n : Nat} {t w r : Text} (h : LongestAt IsNumber t w r) :
      Derives n (.value (.number w)) t r
  | word {n : Nat} {t w r : Text} {v : Literal} (h : LongestAt (isIdentifier · = true) t w r)
      (hw : Word w v) : Derives n (.value v) t r
  | object {n : Nat} {t r : Text} {ms obj : List (Text × Literal)}
      (h : Derives n (.members ms) t r) (hobj : Collects ms obj) :
      Derives (n + 1) (.value (.object obj)) ('{' :: t) r
  | array {n : Nat} {t r : Text} {vs : List Literal} (h : Derives n (.items vs) t r) :
      Derives (n + 1) (.value (.array vs)) ('[' :: t) r
  | noMember {n : Nat} {t r : Text} (h : Trivia t ('}' :: r)) : Derives n (.members []) t r
  | lastMember {n : Nat} {t t₁ t₂ t₃ t₄ t₅ r k : Text} {v : Literal} (h₁ : Trivia t t₁)
      (hk : Key t₁ k t₂) (h₂ : Trivia t₂ (':' :: t₃)) (h₃ : Trivia t₃ t₄)
      (hv : Derives n (.value v) t₄ t₅) (h₄ : Trivia t₅ ('}' :: r)) :
      Derives n (.members [(k, v)]) t r
  | member {n : Nat} {t t₁ t₂ t₃ t₄ t₅ t₆ r k : Text} {v : Literal} {ms : List (Text × Literal)}
      (h₁ : Trivia t t₁) (hk : Key t₁ k t₂) (h₂ : Trivia t₂ (':' :: t₃)) (h₃ : Trivia t₃ t₄)
      (hv : Derives n (.value v) t₄ t₅) (h₄ : Trivia t₅ (',' :: t₆))
      (hms : Derives n (.members ms) t₆ r) : Derives n (.members ((k, v) :: ms)) t r
  | noItem {n : Nat} {t r : Text} (h : Trivia t (']' :: r)) : Derives n (.items []) t r
  | lastItem {n : Nat} {t t₁ t₂ r : Text} {v : Literal} (h₁ : Trivia t t₁)
      (hv : Derives n (.value v) t₁ t₂) (h₂ : Trivia t₂ (']' :: r)) : Derives n (.items [v]) t r
  | item {n : Nat} {t t₁ t₂ t₃ r : Text} {v : Literal} {vs : List Literal} (h₁ : Trivia t t₁)
      (hv : Derives n (.value v) t₁ t₂) (h₂ : Trivia t₂ (',' :: t₃))
      (hvs : Derives n (.items vs) t₃ r) : Derives n (.items (v :: vs)) t r

/-- A text that is one literal, with trivia around it. -/
def IsLiteral (t : Text) (v : Literal) : Prop :=
  ∃ s r, Trivia t s ∧ Derives 100 (.value v) s r ∧ Trivia r []

/-! ### The rest is the end of the text -/

theorem Trivia.trans {t s r : Text} (h : Trivia t s) (h' : Trivia s r) : Trivia t r := by
  induction h with
  | done => exact h'
  | blank hc _ ih => exact .blank hc (ih h')
  | line hs ht _ ih => exact .line hs ht (ih h')
  | block hs _ ih => exact .block hs (ih h')

theorem Trivia.suffix {t r : Text} (h : Trivia t r) : r <:+ t := by
  induction h with
  | done => exact List.suffix_rfl
  | blank _ _ ih => exact ih.trans (List.suffix_cons _ _)
  | @line s t _ _ _ _ ih => exact ih.trans (List.suffix_append ('/' :: '/' :: s) t)
  | @block s t _ _ _ ih =>
    have h : '/' :: '*' :: (s ++ '*' :: '/' :: t) = ('/' :: '*' :: (s ++ ['*', '/'])) ++ t := by
      simp
    rw [h]
    exact ih.trans (List.suffix_append _ t)

theorem Quoted.suffix {q : Char} {t s r : Text} (h : Quoted q t s r) : r <:+ t := by
  induction h with
  | close r => exact List.suffix_cons q r
  | escape _ ih => exact ih.trans ((List.suffix_cons _ _).trans (List.suffix_cons _ _))
  | plain _ _ _ _ ih => exact ih.trans (List.suffix_cons _ _)

theorem LongestAt.suffix {P : Text → Prop} {t w r : Text} (h : LongestAt P t w r) : r <:+ t :=
  h.eq_append ▸ List.suffix_append w r

theorem Key.suffix {t k r : Text} (h : Key t k r) : r <:+ t := by
  cases h with
  | quoted _ h => exact h.suffix.trans (List.suffix_cons _ _)
  | identifier h => exact h.suffix
  | number h => exact h.suffix

/-- A bracket that ends the inside of another stands right before the rest. -/
theorem Derives.closers_suffix {n : Nat} {p : Phrase} {t r : Text} (h : Derives n p t r) :
    p.closers ++ r <:+ t := by
  induction h with
  | string _ h => exact h.suffix.trans (List.suffix_cons _ _)
  | number h => exact h.suffix
  | word h _ => exact h.suffix
  | object _ _ ih => exact ((List.suffix_append _ _).trans ih).trans (List.suffix_cons _ _)
  | array _ ih => exact ((List.suffix_append _ _).trans ih).trans (List.suffix_cons _ _)
  | noMember h => exact h.suffix
  | lastMember h₁ hk h₂ h₃ _ h₄ ih =>
    have hk := (List.suffix_cons _ _).trans (h₂.suffix.trans (hk.suffix.trans h₁.suffix))
    exact h₄.suffix.trans (ih.trans (h₃.suffix.trans hk))
  | member h₁ hk h₂ h₃ _ h₄ _ ih ihms =>
    have hk := (List.suffix_cons _ _).trans (h₂.suffix.trans (hk.suffix.trans h₁.suffix))
    have hv := (List.suffix_cons _ _).trans (h₄.suffix.trans (ih.trans (h₃.suffix.trans hk)))
    exact ihms.trans hv
  | noItem h => exact h.suffix
  | lastItem h₁ _ h₂ ih => exact h₂.suffix.trans (ih.trans h₁.suffix)
  | item h₁ _ h₂ _ ih ihvs =>
    exact ihvs.trans ((List.suffix_cons _ _).trans (h₂.suffix.trans (ih.trans h₁.suffix)))

theorem Derives.suffix {n : Nat} {p : Phrase} {t r : Text} (h : Derives n p t r) : r <:+ t :=
  (List.suffix_append _ _).trans h.closers_suffix

/-! ### Members that come together -/

theorem lookup_cons_eq_ite (k key : Text) (v : Literal) (obj : List (Text × Literal)) :
    ((key, v) :: obj).lookup k = if k = key then some v else obj.lookup k := by
  rw [List.lookup_cons]
  by_cases h : k = key
  · simp [h]
  · rw [beq_false_of_ne h, if_neg h]

theorem lookup_eq_none_of_notMem {k : Text} {obj : List (Text × Literal)}
    (h : k ∉ obj.map Prod.fst) : obj.lookup k = none := by
  rw [List.lookup_eq_none_iff]
  rintro p hp
  rw [bne_iff_ne]
  rintro rfl
  exact h (List.mem_map_of_mem hp)

theorem lookup_putMember (k key : Text) (v : Literal) (obj : List (Text × Literal)) :
    (putMember key v obj).lookup k = if k = key then some v else obj.lookup k := by
  induction obj with
  | nil => exact lookup_cons_eq_ite k key v []
  | cons m obj ih =>
    obtain ⟨key', w⟩ := m
    by_cases h : key' = key
    · subst h
      rw [putMember, if_pos rfl, lookup_cons_eq_ite, lookup_cons_eq_ite]
      split <;> rfl
    · rw [putMember, if_neg h, lookup_cons_eq_ite, ih, lookup_cons_eq_ite]
      by_cases hk : k = key'
      · rw [if_pos hk, if_pos hk, if_neg (hk ▸ h)]
      · rw [if_neg hk, if_neg hk]

/-- The members of an object that is read, put together in the order in which they are written. -/
def collected (ms : List (Text × Literal)) : List (Text × Literal) :=
  ms.foldl (fun obj m => putMember m.1 m.2 obj) []

theorem collects_collected (ms : List (Text × Literal)) : Collects ms (collected ms) := by
  induction ms using List.reverseRecOn with
  | nil => exact ⟨rfl, fun _ => rfl⟩
  | append_singleton ms m ih =>
    obtain ⟨key, v⟩ := m
    have hc : collected (ms ++ [(key, v)]) = putMember key v (collected ms) := by
      simp only [collected, List.foldl_append, List.foldl_cons, List.foldl_nil]
    constructor
    · rw [hc, map_fst_putMember, ih.keys, List.map_append, List.eraseDups_append]
      by_cases h : key ∈ ms.map Prod.fst
      · rw [if_pos (List.mem_eraseDups.2 h)]
        simp only [List.map_cons, List.map_nil, List.removeAll, List.filter_cons, List.filter_nil,
          List.elem_eq_mem, h, decide_true, Bool.not_true, Bool.false_eq_true, if_false,
          List.eraseDups_nil, List.append_nil]
      · rw [if_neg fun hm => h (List.mem_eraseDups.1 hm)]
        simp only [List.map_cons, List.map_nil, List.removeAll, List.filter_cons, List.filter_nil,
          List.elem_eq_mem, h, decide_false, Bool.not_false, if_true, List.eraseDups_cons,
          List.eraseDups_nil]
    · intro k
      rw [hc, lookup_putMember, ih.values, List.reverse_append, List.reverse_singleton,
        List.singleton_append, lookup_cons_eq_ite]

/-- The keys and the last value of each key determine an object. -/
theorem eq_of_keys_of_lookup {obj obj' : List (Text × Literal)} (hn : (obj.map Prod.fst).Nodup)
    (hk : obj.map Prod.fst = obj'.map Prod.fst) (hv : ∀ k, obj.lookup k = obj'.lookup k) :
    obj = obj' := by
  induction obj generalizing obj' with
  | nil => exact (List.map_eq_nil_iff.1 hk.symm).symm
  | cons m obj ih =>
    obtain ⟨key, v⟩ := m
    cases obj' with
    | nil => simp at hk
    | cons m' obj' =>
      obtain ⟨key', v'⟩ := m'
      simp only [List.map_cons, List.cons.injEq] at hk hn
      obtain ⟨rfl, hk⟩ := hk
      have hvv : v = v' := by simpa using hv key
      obtain ⟨hkey, hn⟩ := List.nodup_cons.1 hn
      have htail (k : Text) : obj.lookup k = obj'.lookup k := by
        by_cases hkk : k = key
        · rw [lookup_eq_none_of_notMem (hkk ▸ hkey), lookup_eq_none_of_notMem (hkk ▸ hk ▸ hkey)]
        · have h := hv k
          rwa [lookup_cons_eq_ite, lookup_cons_eq_ite, if_neg hkk, if_neg hkk] at h
      rw [ih hn hk htail, hvv]

theorem Collects.eq_collected {ms obj : List (Text × Literal)} (h : Collects ms obj) :
    obj = collected ms := by
  have hc := collects_collected ms
  refine eq_of_keys_of_lookup ?_ (h.keys.trans hc.keys.symm) fun k => ?_
  · rw [h.keys]
    exact nodup_eraseDups _
  · rw [h.values, hc.values]

end LiteralGrammar

end DocDecl

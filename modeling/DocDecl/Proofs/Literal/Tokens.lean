import DocDecl.Proofs.Failure
import DocDecl.Proofs.Literal.Grammar
import DocDecl.Proofs.Text.Classes

/-!
# The tokens of a literal

Each reader of a token takes exactly what the grammar says. Trivia is skipped as far as it goes,
which is where a token begins; a quoted text ends with its first unescaped quote; a number and an
identifier are the longest ones.

## Main definitions

* `LiteralGrammar.AtToken` : a text that does not go on with trivia.

## Main results

* `LiteralGrammar.trivia_of_skipTrivia`, `LiteralGrammar.skipTrivia_of_trivia` : trivia.
* `LiteralGrammar.quotedContent_eq_ok_iff` : quoted texts.
* `LiteralGrammar.numberAt?_eq_some_iff`, `LiteralGrammar.identifierAt?_eq_some_iff` : numbers and
  identifiers.
-/

namespace DocDecl

namespace LiteralGrammar

/-! ### Comments -/

theorem notMem_spanLineComment (t : Text) : '\n' ∉ (spanLineComment t).1 := by
  fun_induction spanLineComment t with
  | case1 => simp
  | case2 => simp
  | case3 c t hc ih => simp [Ne.symm hc, ih]

theorem spanLineComment_stops (t : Text) :
    (spanLineComment t).2 = [] ∨ (spanLineComment t).2.head? = some '\n' := by
  fun_induction spanLineComment t with
  | case1 => exact .inl rfl
  | case2 => exact .inr rfl
  | case3 c t _ ih => exact ih

theorem spanLineComment_append {s t : Text} (hs : '\n' ∉ s)
    (ht : t = [] ∨ t.head? = some '\n') : spanLineComment (s ++ t) = (s, t) := by
  induction s with
  | nil =>
    cases t with
    | nil => rfl
    | cons c t =>
      have hc : c = '\n' := by simpa using ht
      rw [List.nil_append, spanLineComment, if_pos hc]
  | cons c s ih =>
    have hc : c ≠ '\n' := fun h => hs (h ▸ List.mem_cons_self)
    rw [List.cons_append, spanLineComment, if_neg hc, ih fun h => hs (List.mem_cons_of_mem c h)]

theorem afterBlockComment?_append {s : Text} (hs : ¬['*', '/'] <:+: s) (t : Text) :
    afterBlockComment? (s ++ '*' :: '/' :: t) = some t := by
  induction s with
  | nil => rfl
  | cons c s ih =>
    rw [List.cons_append, afterBlockComment?, ih fun h => hs (List.infix_cons h)]
    rintro r rfl hr
    cases s with
    | nil => simp at hr
    | cons d s =>
      obtain ⟨rfl, -⟩ := List.cons.inj hr
      exact hs (List.prefix_append ['*', '/'] s).isInfix

theorem exists_of_afterBlockComment? {t r : Text} (h : afterBlockComment? t = some r) :
    ∃ s, t = s ++ '*' :: '/' :: r ∧ ¬['*', '/'] <:+: s := by
  fun_induction afterBlockComment? t with
  | case1 => simp at h
  | case2 t =>
    obtain rfl := Option.some.inj h
    exact ⟨[], rfl, by simp⟩
  | case3 c t hne ih =>
    obtain ⟨s, rfl, hs⟩ := ih h
    refine ⟨c :: s, rfl, fun hi => ?_⟩
    rcases List.infix_cons_iff.1 hi with hp | hi
    · obtain ⟨u, hu⟩ := hp
      simp only [List.cons_append, List.nil_append, List.cons.injEq] at hu
      obtain ⟨rfl, rfl⟩ := hu
      exact hne _ rfl rfl
    · exact hs hi

/-! ### Trivia -/

/-- A text that does not go on with trivia, as every token begins. -/
def AtToken (t : Text) : Prop := ∀ c ∈ t.head?, isBlank c = false ∧ c ≠ '/'

theorem atToken_cons {c : Char} (hb : isBlank c = false) (hs : c ≠ '/') (t : Text) :
    AtToken (c :: t) := by
  rintro d hd
  obtain rfl := Option.some.inj hd
  exact ⟨hb, hs⟩

theorem trivia_of_skipTrivia {t : Text} {p : { r : Text // r.length ≤ t.length }}
    (h : skipTrivia t = .ok p) : Trivia t p.1 := by
  fun_induction skipTrivia t with
  | case1 => exact Except.ok.inj h ▸ .done []
  | case2 c t hc ih =>
    obtain ⟨q, hq, rfl⟩ := map_eq_ok_iff.1 h
    exact .blank hc (ih hq)
  | case3 c t _ hl _ ih =>
    obtain ⟨q, hq, rfl⟩ := map_eq_ok_iff.1 h
    obtain ⟨rfl, hl⟩ := hl
    obtain ⟨u, rfl⟩ := List.head?_eq_some_iff.1 hl
    have hu := append_spanLineComment u
    have ht := Trivia.line (notMem_spanLineComment u) (spanLineComment_stops u) (ih hq)
    rwa [hu] at ht
  | case4 c t _ _ hb s hs _ ih =>
    obtain ⟨q, hq, rfl⟩ := map_eq_ok_iff.1 h
    obtain ⟨rfl, hb⟩ := hb
    obtain ⟨u, rfl⟩ := List.head?_eq_some_iff.1 hb
    obtain ⟨w, rfl, hw⟩ := exists_of_afterBlockComment? hs
    exact .block hw (ih hq)
  | case5 => simp at h
  | case6 c t => exact Except.ok.inj h ▸ .done (c :: t)

theorem skipTrivia_line {t r : Text} (h : ∃ hl, skipTrivia (spanLineComment t).2 = .ok ⟨r, hl⟩) :
    ∃ hl, skipTrivia ('/' :: '/' :: t) = .ok ⟨r, hl⟩ := by
  obtain ⟨hl, h⟩ := h
  have hle := length_spanLineComment_le t
  refine ⟨by simp only [List.length_cons]; omega, ?_⟩
  rw [skipTrivia, if_neg (by decide), if_pos ⟨rfl, rfl⟩]
  simp only [List.tail_cons, h]
  rfl

theorem skipTrivia_block {t s r : Text} (hs : afterBlockComment? t = some s)
    (h : ∃ hl, skipTrivia s = .ok ⟨r, hl⟩) : ∃ hl, skipTrivia ('/' :: '*' :: t) = .ok ⟨r, hl⟩ := by
  obtain ⟨hl, h⟩ := h
  have hle := length_afterBlockComment?_le hs
  refine ⟨by simp only [List.length_cons]; omega, ?_⟩
  rw [skipTrivia, if_neg (by decide), if_neg (by simp), if_pos ⟨rfl, rfl⟩]
  split
  · next s' hs' =>
    obtain rfl : s = s' := Option.some.inj (hs.symm.trans hs')
    simp only [h]
    rfl
  · next hn => exact absurd (hs.symm.trans hn) (by simp)

/-- Trivia is skipped up to the next token. -/
theorem skipTrivia_of_trivia {t r : Text} (h : Trivia t r) (hr : AtToken r) :
    ∃ hl, skipTrivia t = .ok ⟨r, hl⟩ := by
  induction h with
  | done r =>
    cases r with
    | nil => exact ⟨Nat.le_refl _, by rw [skipTrivia]⟩
    | cons c r =>
      obtain ⟨hb, hs⟩ := hr c rfl
      exact ⟨Nat.le_refl _, by rw [skipTrivia]; simp [hb, hs]⟩
  | blank hc _ ih =>
    obtain ⟨hl, ih⟩ := ih hr
    exact ⟨Nat.le_succ_of_le hl, by rw [skipTrivia, if_pos hc, ih]; rfl⟩
  | line hs ht _ ih =>
    have hl := congrArg Prod.snd (spanLineComment_append hs ht)
    exact skipTrivia_line (hl ▸ ih hr)
  | block hs _ ih => exact skipTrivia_block (afterBlockComment?_append hs _) (ih hr)

theorem suffix_of_skipTrivia {t : Text} {e : LiteralFailure} (h : skipTrivia t = .error e) :
    e.rest <:+ t := by
  fun_induction skipTrivia t with
  | case1 => simp at h
  | case2 c t _ ih => exact (ih (map_eq_error_iff.1 h)).trans (List.suffix_cons c t)
  | case3 c t _ _ _ ih =>
    have hl : (spanLineComment t.tail).2 <:+ t.tail :=
      ⟨_, append_spanLineComment t.tail⟩
    have ht := (hl.trans (List.tail_suffix t)).trans (List.suffix_cons c t)
    exact (ih (map_eq_error_iff.1 h)).trans ht
  | case4 c t _ _ hb s hs _ ih =>
    have hl : s <:+ t.tail :=
      spanBlockComment_of_afterBlockComment? hs ▸ ⟨_, append_spanBlockComment t.tail⟩
    have ht := (hl.trans (List.tail_suffix t)).trans (List.suffix_cons c t)
    exact (ih (map_eq_error_iff.1 h)).trans ht
  | case5 => exact Except.error.inj h ▸ List.suffix_rfl
  | case6 => simp at h

/-! ### Quoted texts -/

/-- A reading that gives `a` and leaves `r`. -/
def Yields {α : Type} {t : Text} (x : Reading α t) (a : α) (r : Text) : Prop :=
  ∃ h, x = .ok ⟨a, r, h⟩

theorem yields_of_eq_ok {α : Type} {t : Text} {x : Reading α t} {p : Parsed α t}
    (h : x = .ok p) : Yields x p.value p.rest := ⟨p.shorter, h⟩

theorem quoted_of_quotedContent {q : Char} {t : Text} {p : Text × Text}
    (h : quotedContent q t = .ok p) : Quoted q t p.1 p.2 := by
  fun_induction quotedContent q t generalizing p with
  | case1 => simp at h
  | case2 c t ih =>
    obtain ⟨p', hp, rfl⟩ := map_eq_ok_iff.1 h
    exact .escape (ih hp)
  | case3 => simp at h
  | case4 t => exact Except.ok.inj h ▸ .close t
  | case5 c t hne hd hc ih =>
    obtain ⟨p', hp, rfl⟩ := map_eq_ok_iff.1 h
    refine .plain ?_ hc hd (ih hp)
    rintro rfl
    cases t with
    | nil => simp [quotedContent] at hp
    | cons d t => exact hne d t rfl rfl

theorem quotedContent_of_quoted {q : Char} {t s r : Text} (hq : q ≠ '\\') (h : Quoted q t s r) :
    quotedContent q t = .ok (s, r) := by
  induction h with
  | close r =>
    rw [quotedContent, if_neg (by rintro ⟨rfl, h, -⟩; simp at h), if_pos rfl]
    exact fun _ _ h _ => hq h
  | escape _ ih => rw [quotedContent, ih]; rfl
  | plain hb hc hd _ ih =>
    rw [quotedContent, if_neg hd, if_neg hc, ih]
    · rfl
    · exact fun _ _ h _ => hb h

theorem yields_readString_iff {q : Char} {t s r : Text} (hq : q ≠ '\\') :
    Yields (readString q t) s r ↔ Quoted q t s r := by
  constructor
  · rintro ⟨hl, h⟩
    rw [readString] at h
    split at h
    · next p hp =>
      have hpr := Except.ok.inj h
      simp only [Parsed.mk.injEq] at hpr
      exact hpr.1 ▸ hpr.2 ▸ quoted_of_quotedContent hp
    · simp at h
  · intro h
    have hp := quotedContent_of_quoted hq h
    refine ⟨Nat.lt_succ_of_lt (length_quotedContent_lt hp), ?_⟩
    rw [readString]
    split
    · next p hp' =>
      obtain rfl := Except.ok.inj (hp'.symm.trans hp)
      rfl
    · next e he => exact absurd (he.symm.trans hp) (by simp)

theorem eq_of_readString_eq_error {q : Char} {t : Text} {e : LiteralFailure}
    (h : readString q t = .error e) : e.rest = q :: t := by
  rw [readString] at h
  split at h
  · simp at h
  · exact Except.error.inj h ▸ rfl

/-! ### Runs of digits -/

theorem of_spanSome? {p : Char → Bool} {t : Text} {s : Text × Text} (h : spanSome? p t = some s) :
    t = s.1 ++ s.2 ∧ s.1 ≠ [] ∧ ∀ d ∈ s.1, p d = true := by
  simp only [spanSome?] at h
  split at h
  · simp at h
  · next hne =>
    obtain rfl := Option.some.inj h
    exact ⟨List.takeWhile_append_dropWhile.symm, hne, List.all_eq_true.1 List.all_takeWhile⟩

theorem spanSome?_append {p : Char → Bool} {ds : Text} (hne : ds ≠ []) (hds : ∀ d ∈ ds, p d = true)
    (t : Text) : spanSome? p (ds ++ t) = some (ds ++ t.takeWhile p, t.dropWhile p) := by
  rw [spanSome?, List.takeWhile_append_of_pos hds, List.dropWhile_append_of_pos hds, if_neg]
  exact fun h => hne (List.append_eq_nil_iff.1 h).1

theorem spanSome?_eq_none {p : Char → Bool} {c : Char} (hc : p c = false) (t : Text) :
    spanSome? p (c :: t) = none := by
  rw [spanSome?, if_pos]
  simp [hc]

/-! ### Longest tokens -/

/-- A reader of a class that never reads less than what stands there reads the longest. -/
theorem eq_some_iff_longestAt {P : Text → Prop} {f : Text → Option (Text × Text)}
    (hf : ∀ t s, f t = some s → t = s.1 ++ s.2 ∧ P s.1)
    (hP : ∀ w, P w → ∀ t, ∃ s, f (w ++ t) = some s ∧ w.length ≤ s.1.length) {t w r : Text} :
    f t = some (w, r) ↔ LongestAt P t w r := by
  constructor
  · intro h
    obtain ⟨ht, hw⟩ := hf t _ h
    refine ⟨ht, hw, fun w' r' ht' hw' => ?_⟩
    obtain ⟨s, hs, hle⟩ := hP w' hw' r'
    rw [← ht', h] at hs
    obtain rfl := Option.some.inj hs
    exact hle
  · rintro ⟨rfl, hw, hmax⟩
    obtain ⟨⟨w', r'⟩, hs, hle⟩ := hP w hw r
    obtain ⟨ht, hw'⟩ := hf _ _ hs
    have hlen := Nat.le_antisymm (hmax w' r' ht hw') hle
    obtain ⟨rfl, rfl⟩ := List.append_inj ht hlen.symm
    exact hs

/-! ### Numbers with a base -/

theorem based_of_basedNumber? {t : Text} {s : Text × Text} (h : basedNumber? t = some s) :
    t = s.1 ++ s.2 ∧ Based s.1 := by
  unfold basedNumber? at h
  split at h
  · next c t =>
    simp only [Option.bind_eq_some_iff, Option.map_eq_some_iff] at h
    obtain ⟨p, hp, q, hq, rfl⟩ := h
    obtain ⟨rfl, hne, hds⟩ := of_spanSome? hq
    refine ⟨rfl, ?_⟩
    split_ifs at hp with hx hb ho
    · obtain rfl := Option.some.inj hp
      exact .hexadecimal hx hne hds
    · obtain rfl := Option.some.inj hp
      exact .binary hb hne fun d hd => by simpa using hds d hd
    · obtain rfl := Option.some.inj hp
      exact .octal ho hne fun d hd => by simpa using hds d hd
  · simp at h

theorem basedNumber?_of_based {w : Text} (h : Based w) (t : Text) :
    ∃ s, basedNumber? (w ++ t) = some s ∧ w.length ≤ s.1.length := by
  -- the run of digits goes on as far as the class of the base does
  have hrun {c : Char} {ds : Text} {p : Char → Bool} (hne : ds ≠ []) (hds : ∀ d ∈ ds, p d = true)
      (hp : basedNumber? ('0' :: c :: (ds ++ t)) =
        (spanSome? p (ds ++ t)).map fun s => ('0' :: c :: s.1, s.2)) :
      ∃ s, basedNumber? ('0' :: c :: ds ++ t) = some s ∧ ('0' :: c :: ds).length ≤ s.1.length := by
    refine ⟨('0' :: c :: (ds ++ t.takeWhile p), t.dropWhile p), ?_, by simp⟩
    rw [List.cons_append, List.cons_append, hp, spanSome?_append hne hds, Option.map_some]
  cases h with
  | hexadecimal hc hne hds =>
    exact hrun hne hds (by simp only [basedNumber?, if_pos hc, Option.bind_some]; rfl)
  | @binary c ds hc hne hds =>
    have hx : ¬(c = 'x' ∨ c = 'X') := by rcases hc with rfl | rfl <;> decide
    exact hrun (p := fun d => d == '0' || d == '1') hne (fun d hd => by simpa using hds d hd)
      (by simp only [basedNumber?, if_neg hx, if_pos hc, Option.bind_some])
  | @octal c ds hc hne hds =>
    have hx : ¬(c = 'x' ∨ c = 'X') := by rcases hc with rfl | rfl <;> decide
    have hb : ¬(c = 'b' ∨ c = 'B') := by rcases hc with rfl | rfl <;> decide
    exact hrun (p := fun d => '0' ≤ d && d ≤ '7') hne (fun d hd => by simpa using hds d hd)
      (by simp only [basedNumber?, if_neg hx, if_neg hb, if_pos hc, Option.bind_some])

/-- The letter of a base belongs to no decimal number. -/
theorem Based.exists_eq_cons {w : Text} (h : Based w) :
    ∃ c ds, w = '0' :: c :: ds ∧ isDecimal c = false ∧ c ≠ '.' ∧ c ≠ 'e' ∧ c ≠ 'E' := by
  cases h with
  | hexadecimal hc _ _ => exact ⟨_, _, rfl, by rcases hc with rfl | rfl <;> decide⟩
  | binary hc _ _ => exact ⟨_, _, rfl, by rcases hc with rfl | rfl <;> decide⟩
  | octal hc _ _ => exact ⟨_, _, rfl, by rcases hc with rfl | rfl <;> decide⟩

/-! ### Decimal numbers -/

theorem sign_spanSign (t : Text) : Sign (spanSign t).1 ∧ (spanSign t).1 ++ (spanSign t).2 = t := by
  cases t with
  | nil => exact ⟨.none, rfl⟩
  | cons c t =>
    rw [spanSign]
    split_ifs with hc
    · rcases hc with rfl | rfl
      · exact ⟨.minus, rfl⟩
      · exact ⟨.plus, rfl⟩
    · exact ⟨.none, rfl⟩

theorem spanSign_append {s : Text} (hs : Sign s) {c : Char} (hc : c ≠ '-' ∧ c ≠ '+') (t : Text) :
    spanSign (s ++ c :: t) = (s, c :: t) := by
  cases hs with
  | none => rw [List.nil_append, spanSign, if_neg fun h => h.elim hc.1 hc.2]
  | minus => rfl
  | plus => rfl

theorem mantissa_of_decimalDigits? {t : Text} {s : Text × Text} (h : decimalDigits? t = some s) :
    t = s.1 ++ s.2 ∧ Mantissa s.1 := by
  unfold decimalDigits? at h
  split at h
  · next ds r hs =>
    obtain ⟨rfl, hne, hds⟩ := of_spanSome? hs
    obtain rfl := Option.some.inj h
    refine ⟨?_, .point hne hds (List.all_eq_true.1 List.all_takeWhile)⟩
    rw [List.append_assoc, List.cons_append, List.takeWhile_append_dropWhile]
  · next s' _ hs =>
    obtain ⟨ht, hne, hds⟩ := of_spanSome? hs
    obtain rfl := Option.some.inj h
    exact ⟨ht, .whole hne hds⟩
  · split at h
    · next r _ =>
      obtain ⟨q, hq, rfl⟩ := Option.map_eq_some_iff.1 h
      obtain ⟨rfl, hne, hds⟩ := of_spanSome? hq
      exact ⟨rfl, .fraction hne hds⟩
    · simp at h

theorem decimalDigits?_of_mantissa {m : Text} (h : Mantissa m) (t : Text) :
    ∃ s, decimalDigits? (m ++ t) = some s ∧ m.length ≤ s.1.length := by
  cases h with
  | whole hne hds =>
    unfold decimalDigits?
    rw [spanSome?_append hne hds]
    split
    · next ds r hs =>
      obtain ⟨rfl, -⟩ := Prod.mk.inj (Option.some.inj hs)
      exact ⟨_, rfl, by simp⟩
    · next s _ hs => exact ⟨s, rfl, by rw [← Option.some.inj hs]; simp⟩
    · next hn => exact absurd hn (by simp)
  | @point ds fs hne hds hfs =>
    have hdot : isDecimal '.' = false := by decide
    refine ⟨(ds ++ '.' :: (fs ++ t.takeWhile isDecimal), t.dropWhile isDecimal), ?_, by simp⟩
    unfold decimalDigits?
    rw [List.append_assoc, List.cons_append, spanSome?_append hne hds]
    simp [hdot, List.takeWhile_append_of_pos hfs, List.dropWhile_append_of_pos hfs]
  | @fraction fs hne hfs =>
    have hdot : isDecimal '.' = false := by decide
    refine ⟨('.' :: (fs ++ t.takeWhile isDecimal), t.dropWhile isDecimal), ?_, by simp⟩
    unfold decimalDigits?
    rw [List.cons_append, spanSome?_eq_none hdot]
    simp only [spanSome?_append hne hfs, Option.map_some]

theorem exponent_of_exponent? {t : Text} {s : Text × Text} (h : exponent? t = some s) :
    t = s.1 ++ s.2 ∧ Exponent s.1 := by
  cases t with
  | nil => simp [exponent?] at h
  | cons c t =>
    rw [exponent?] at h
    split_ifs at h with hc
    obtain ⟨q, hq, rfl⟩ := Option.map_eq_some_iff.1 h
    obtain ⟨ht, hne, hds⟩ := of_spanSome? hq
    obtain ⟨hs, hst⟩ := sign_spanSign t
    refine ⟨?_, .some hc hs hne hds⟩
    simp only [List.cons_append, List.append_assoc, ← ht, hst]

theorem exponent?_append {c : Char} {s ds : Text} (hc : c = 'e' ∨ c = 'E') (hs : Sign s)
    (hne : ds ≠ []) (hds : ∀ d ∈ ds, isDecimal d = true) (t : Text) :
    exponent? (c :: (s ++ ds) ++ t) =
      some (c :: s ++ (ds ++ t.takeWhile isDecimal), t.dropWhile isDecimal) := by
  obtain ⟨d, ds', rfl⟩ := List.exists_cons_of_ne_nil hne
  have hd := hds d List.mem_cons_self
  have hsign : d ≠ '-' ∧ d ≠ '+' :=
    ⟨fun h => absurd (h ▸ hd) (by decide), fun h => absurd (h ▸ hd) (by decide)⟩
  rw [List.cons_append, List.append_assoc, exponent?, if_pos hc, List.cons_append,
    spanSign_append hs hsign]
  rw [← List.cons_append, spanSome?_append hne hds]
  rfl

theorem Mantissa.class_of_mem {m : Text} (h : Mantissa m) :
    ∀ d ∈ m, isDecimal d = true ∨ d = '.' := by
  cases h with
  | whole _ hds => exact fun d hd => .inl (hds d hd)
  | point _ hds hfs =>
    intro d hd
    rcases List.mem_append.1 hd with hd | hd
    · exact .inl (hds d hd)
    · rcases List.mem_cons.1 hd with rfl | hd
      · exact .inr rfl
      · exact .inl (hfs d hd)
  | fraction _ hfs =>
    intro d hd
    rcases List.mem_cons.1 hd with rfl | hd
    · exact .inr rfl
    · exact .inl (hfs d hd)

theorem Mantissa.ne_nil {m : Text} (h : Mantissa m) : m ≠ [] := by
  cases h with
  | whole hne _ => exact hne
  | point _ _ _ => simp
  | fraction _ _ => simp

theorem decimalNumber?_of_exponent {t m r e r' : Text} (hm : decimalDigits? t = some (m, r))
    (he : exponent? r = some (e, r')) : decimalNumber? t = some (m ++ e, r') := by
  rw [decimalNumber?, hm, Option.map_some]
  simp only [he]

theorem decimalNumber?_of_no_exponent {t m r : Text} (hm : decimalDigits? t = some (m, r))
    (he : exponent? r = none) : decimalNumber? t = some (m, r) := by
  rw [decimalNumber?, hm, Option.map_some]
  simp only [he]

theorem decimal_of_decimalNumber? {t : Text} {s : Text × Text} (h : decimalNumber? t = some s) :
    ∃ m e, Mantissa m ∧ Exponent e ∧ s.1 = m ++ e ∧ t = s.1 ++ s.2 := by
  obtain ⟨⟨m, r⟩, hd, -⟩ := Option.map_eq_some_iff.1 h
  obtain ⟨ht, hm⟩ := mantissa_of_decimalDigits? hd
  cases hx : exponent? r with
  | none =>
    obtain rfl := Option.some.inj ((decimalNumber?_of_no_exponent hd hx).symm.trans h)
    exact ⟨m, [], hm, .none, (List.append_nil m).symm, ht⟩
  | some x =>
    obtain ⟨e, r'⟩ := x
    obtain ⟨hr, he⟩ := exponent_of_exponent? hx
    obtain rfl := Option.some.inj ((decimalNumber?_of_exponent hd hx).symm.trans h)
    refine ⟨m, e, hm, he, rfl, ?_⟩
    simp only at ht hr ⊢
    rw [ht, hr, List.append_assoc]

/-- A decimal number is read as far as possible: digits first, and an exponent only behind all of
them. -/
theorem decimalNumber?_of_decimal {m e : Text} (hm : Mantissa m) (he : Exponent e) (t : Text) :
    ∃ s, decimalNumber? (m ++ e ++ t) = some s ∧ (m ++ e).length ≤ s.1.length := by
  rw [List.append_assoc]
  obtain ⟨⟨m', r⟩, hd, hle⟩ := decimalDigits?_of_mantissa hm (e ++ t)
  obtain ⟨heq, hmant⟩ := mantissa_of_decimalDigits? hd
  simp only at heq hmant hle
  cases he with
  | none =>
    rw [List.append_nil]
    cases hx : exponent? r with
    | none => exact ⟨_, decimalNumber?_of_no_exponent hd hx, hle⟩
    | some x =>
      refine ⟨_, decimalNumber?_of_exponent hd hx, ?_⟩
      rw [List.length_append]
      omega
  | @some c sg ds hc hs hne hds =>
    -- the letter of the exponent is no digit, so the digits end in front of it
    have hmm : m' = m := by
      obtain ⟨u, rfl⟩ := List.prefix_of_prefix_length_le (List.prefix_append m _)
        (heq ▸ List.prefix_append m' r) hle
      cases u with
      | nil => exact List.append_nil m
      | cons d u =>
        rw [List.append_assoc, List.append_cancel_left_eq, List.cons_append, List.cons_append,
          List.cons.injEq] at heq
        have hcd := hmant.class_of_mem d (by simp)
        rw [← heq.1] at hcd
        rcases hc with rfl | rfl <;> exact absurd hcd (by decide)
    subst hmm
    rw [List.append_cancel_left_eq] at heq
    have hx := heq ▸ exponent?_append hc hs hne hds t
    refine ⟨_, decimalNumber?_of_exponent hd hx, ?_⟩
    simp only [List.length_append, List.length_cons]
    omega

/-! ### Numbers -/

theorem isNumber_of_numberAt? {t : Text} {s : Text × Text} (h : numberAt? t = some s) :
    t = s.1 ++ s.2 ∧ IsNumber s.1 := by
  obtain ⟨hs, hst⟩ := sign_spanSign t
  simp only [numberAt?, Option.map_eq_some_iff, Option.or_eq_some_iff] at h
  obtain ⟨q, hq | ⟨_, hq⟩, rfl⟩ := h
  · obtain ⟨hq, hb⟩ := based_of_basedNumber? hq
    exact ⟨by rw [List.append_assoc, ← hq, hst], .based hs hb⟩
  · obtain ⟨m, e, hm, he, hme, hq⟩ := decimal_of_decimalNumber? hq
    exact ⟨by rw [List.append_assoc, ← hq, hst], by rw [hme]; exact .decimal hs hm he⟩

/-- Where a number with a base is read, no longer decimal number stands. -/
theorem length_decimal_le_of_basedNumber? {m e t : Text} {s : Text × Text} (hm : Mantissa m)
    (he : Exponent e) (hs : basedNumber? (m ++ e ++ t) = some s) :
    (m ++ e).length ≤ s.1.length := by
  obtain ⟨heq, hb⟩ := based_of_basedNumber? hs
  obtain ⟨c, ds, hw, hc, hdot, he₁, he₂⟩ := hb.exists_eq_cons
  rw [hw] at heq ⊢
  match m, hm.ne_nil, hm.class_of_mem with
  | [d], _, _ =>
    cases he with
    | none => simp
    | some hc' _ _ _ =>
      simp only [List.cons_append, List.nil_append, List.cons.injEq] at heq
      exact absurd hc' (heq.2.1 ▸ not_or.2 ⟨he₁, he₂⟩)
  | d :: d' :: m', _, hcl =>
    simp only [List.cons_append, List.cons.injEq] at heq
    have hd := hcl d' (by simp)
    rw [heq.2.1, hc] at hd
    exact absurd hd (by simp [hdot])

theorem numberAt?_of_isNumber {w : Text} (h : IsNumber w) (t : Text) :
    ∃ s, numberAt? (w ++ t) = some s ∧ w.length ≤ s.1.length := by
  have hread {s w : Text} {x : Text × Text} {c : Char} (hs : Sign s) (hc : c ≠ '-' ∧ c ≠ '+')
      (hx : (basedNumber? (c :: w ++ t)).or (decimalNumber? (c :: w ++ t)) = some x)
      (hle : (c :: w).length ≤ x.1.length) :
      ∃ y, numberAt? (s ++ c :: w ++ t) = some y ∧ (s ++ c :: w).length ≤ y.1.length := by
    refine ⟨(s ++ x.1, x.2), ?_, ?_⟩
    · rw [List.append_assoc, numberAt?, List.cons_append, spanSign_append hs hc,
        ← List.cons_append, hx, Option.map_some]
    · simp only [List.length_append]
      omega
  cases h with
  | based hs hw =>
    obtain ⟨x, hx, hle⟩ := basedNumber?_of_based hw t
    obtain ⟨c, ds, rfl, -⟩ := hw.exists_eq_cons
    exact hread hs (by decide) (by rw [hx, Option.some_or]) hle
  | @decimal s m e hs hm he =>
    obtain ⟨d, m', rfl⟩ := List.exists_cons_of_ne_nil hm.ne_nil
    have hsign : d ≠ '-' ∧ d ≠ '+' := by
      have hd := hm.class_of_mem d List.mem_cons_self
      exact ⟨fun h => absurd (h ▸ hd) (by decide), fun h => absurd (h ▸ hd) (by decide)⟩
    obtain ⟨y, hy, hle⟩ := decimalNumber?_of_decimal hm he t
    rw [List.cons_append] at hy hle ⊢
    cases hx : basedNumber? (d :: (m' ++ e) ++ t) with
    | none => exact hread hs hsign (by rw [hx, hy, Option.none_or]) hle
    | some x =>
      have hle' := length_decimal_le_of_basedNumber? hm he hx
      exact hread hs hsign (by rw [hx, Option.some_or]) hle'

theorem numberAt?_eq_some_iff {t w r : Text} :
    numberAt? t = some (w, r) ↔ LongestAt IsNumber t w r :=
  eq_some_iff_longestAt (fun _ _ h => isNumber_of_numberAt? h) fun _ h t =>
    numberAt?_of_isNumber h t

/-- The first character of a number. -/
theorem IsNumber.exists_eq_cons {w : Text} (h : IsNumber w) :
    ∃ c u, w = c :: u ∧ (c ∈ ['-', '+', '.'] ∨ isDecimal c = true) := by
  cases h with
  | based hs hw =>
    obtain ⟨c, ds, rfl, -⟩ := hw.exists_eq_cons
    cases hs with
    | none => exact ⟨_, _, rfl, by decide⟩
    | minus => exact ⟨_, _, rfl, by decide⟩
    | plus => exact ⟨_, _, rfl, by decide⟩
  | @decimal s m e hs hm he =>
    cases hs with
    | none =>
      obtain ⟨c, u, rfl⟩ := List.exists_cons_of_ne_nil hm.ne_nil
      refine ⟨c, u ++ e, rfl, ?_⟩
      rcases hm.class_of_mem c List.mem_cons_self with hc | rfl
      · exact .inr hc
      · exact .inl (by decide)
    | minus => exact ⟨_, _, rfl, by decide⟩
    | plus => exact ⟨_, _, rfl, by decide⟩

/-! ### Identifiers and words -/

theorem isIdentifier_iff {w : Text} :
    isIdentifier w = true ↔
      ∃ c u, w = c :: u ∧ isIdentifierStart c = true ∧ ∀ d ∈ u, isNameChar d = true := by
  cases w with
  | nil => simp [isIdentifier]
  | cons c u => simp [isIdentifier]

theorem identifierAt?_eq_some_iff {t w r : Text} :
    identifierAt? t = some (w, r) ↔ LongestAt (isIdentifier · = true) t w r := by
  refine eq_some_iff_longestAt (fun t s h => ?_) fun w h t => ?_
  · cases t with
    | nil => simp [identifierAt?] at h
    | cons c t =>
      rw [identifierAt?] at h
      split_ifs at h with hc
      obtain rfl := Option.some.inj h
      have hall := List.all_eq_true.1 (List.all_takeWhile (p := isNameChar) (l := t))
      exact ⟨by simp, isIdentifier_iff.2 ⟨c, _, rfl, hc, hall⟩⟩
  · obtain ⟨c, u, rfl, hc, hu⟩ := isIdentifier_iff.1 h
    refine ⟨(c :: (u ++ t.takeWhile isNameChar), t.dropWhile isNameChar), ?_, by simp⟩
    rw [List.cons_append, identifierAt?, if_pos hc, List.takeWhile_append_of_pos hu,
      List.dropWhile_append_of_pos hu]

theorem isDecimal_of_isIdentifierStart {c : Char} (h : isIdentifierStart c = true) :
    isDecimal c = false := by
  simp only [isIdentifierStart, isAlpha_iff, Bool.or_eq_true, beq_iff_eq] at h
  rcases h with (h | rfl) | rfl
  · have hc : c.toNat < 0x80 ∧ 57 < c.val.toNat := by
      rcases h with ⟨h₁, h₂⟩ | ⟨h₁, h₂⟩
      · exact ⟨Nat.lt_of_le_of_lt h₂ (by decide), Nat.lt_of_lt_of_le (by decide) h₁⟩
      · exact ⟨Nat.lt_of_le_of_lt h₂ (by decide), Nat.lt_of_lt_of_le (by decide) h₁⟩
    rw [isDecimal, if_pos hc.1]
    simp only [Char.isDigit, Bool.and_eq_false_iff, decide_eq_false_iff_not, ge_iff_le,
      UInt32.le_iff_toNat_le]
    exact .inr (Nat.not_le.2 hc.2)
  · decide
  · decide

/-- No text begins both with a number and with an identifier. -/
theorem not_number_and_identifier {t w r w' r' : Text} (h : LongestAt IsNumber t w r)
    (h' : LongestAt (isIdentifier · = true) t w' r') : False := by
  obtain ⟨c, u, rfl, hc⟩ := h.mem.exists_eq_cons
  obtain ⟨c', u', rfl, hc', -⟩ := isIdentifier_iff.1 h'.mem
  obtain ⟨rfl, -⟩ := List.cons.inj (h.eq_append.symm.trans h'.eq_append)
  rcases hc with hc | hc
  · simp only [List.mem_cons, List.not_mem_nil, or_false] at hc
    rcases hc with rfl | rfl | rfl <;> exact absurd hc' (by decide)
  · exact absurd (isDecimal_of_isIdentifierStart hc') (by simp [hc])

theorem word_iff {w : Text} {v : Literal} : wordValue? w = some v ↔ Word w v := by
  constructor
  · intro h
    rw [wordValue?] at h
    split_ifs at h with h₁ h₂ h₃
    · exact h₁ ▸ Option.some.inj h ▸ .true
    · exact h₂ ▸ Option.some.inj h ▸ .false
    · exact h₃ ▸ Option.some.inj h ▸ .null
  · rintro (_ | _ | _) <;> rfl

/-! ### The characters of numbers and identifiers -/

theorem isAlphanum_of_isHexDigit {c : Char} (h : isHexDigit c = true) : c.isAlphanum = true := by
  have hle {a b : Char} (h : a ≤ b) : a.val.toNat ≤ b.val.toNat := UInt32.le_iff_toNat_le.1 h
  simp only [isHexDigit, Bool.or_eq_true, Bool.and_eq_true, decide_eq_true_eq] at h
  simp only [Char.isAlphanum, isAlpha_iff, Bool.or_eq_true]
  rcases h with (h | ⟨h₁, h₂⟩) | ⟨h₁, h₂⟩
  · exact .inr h
  · exact .inl (.inr ⟨hle h₁, Nat.le_trans (hle h₂) (by decide)⟩)
  · exact .inl (.inl ⟨hle h₁, Nat.le_trans (hle h₂) (by decide)⟩)

theorem Sign.class_of_mem {s : Text} (h : Sign s) : ∀ d ∈ s, isAtomChar d = true := by
  cases h with
  | none => simp
  | minus => exact List.forall_mem_singleton.2 (by decide)
  | plus => exact List.forall_mem_singleton.2 (by decide)

theorem Based.class_of_mem {w : Text} (h : Based w) : ∀ d ∈ w, isAtomChar d = true := by
  have hcons {c : Char} {ds : Text} (hc : isAtomChar c = true)
      (hds : ∀ d ∈ ds, isAtomChar d = true) : ∀ d ∈ '0' :: c :: ds, isAtomChar d = true :=
    List.forall_mem_cons.2 ⟨by decide, List.forall_mem_cons.2 ⟨hc, hds⟩⟩
  have hdigit {d : Char} (h₁ : '0' ≤ d) (h₂ : d ≤ '9') : isAtomChar d = true := by
    refine isAtomChar_of_isAlphanum ?_
    simp only [Char.isAlphanum, Bool.or_eq_true]
    exact .inr (by simpa [Char.isDigit] using ⟨h₁, h₂⟩)
  cases h with
  | hexadecimal hc _ hds =>
    exact hcons (by rcases hc with rfl | rfl <;> decide) fun d hd =>
      isAtomChar_of_isAlphanum (isAlphanum_of_isHexDigit (hds d hd))
  | binary hc _ hds =>
    refine hcons (by rcases hc with rfl | rfl <;> decide) fun d hd => ?_
    rcases hds d hd with rfl | rfl <;> decide
  | octal hc _ hds =>
    exact hcons (by rcases hc with rfl | rfl <;> decide) fun d hd =>
      hdigit (hds d hd).1 (Char.le_trans (hds d hd).2 (by decide))

theorem Exponent.class_of_mem {e : Text} (h : Exponent e) : ∀ d ∈ e, isAtomChar d = true := by
  cases h with
  | none => simp
  | some hc hs _ hds =>
    refine List.forall_mem_cons.2 ⟨by rcases hc with rfl | rfl <;> decide, ?_⟩
    exact List.forall_mem_append.2
      ⟨hs.class_of_mem, fun d hd => isAtomChar_of_isDecimal (hds d hd)⟩

theorem IsNumber.class_of_mem {w : Text} (h : IsNumber w) : ∀ d ∈ w, isAtomChar d = true := by
  cases h with
  | based hs hw => exact List.forall_mem_append.2 ⟨hs.class_of_mem, hw.class_of_mem⟩
  | decimal hs hm he =>
    refine List.forall_mem_append.2
      ⟨hs.class_of_mem, List.forall_mem_append.2 ⟨fun d hd => ?_, he.class_of_mem⟩⟩
    rcases hm.class_of_mem d hd with h | rfl
    · exact isAtomChar_of_isDecimal h
    · decide

theorem isNameChar_of_isIdentifierStart {c : Char} (h : isIdentifierStart c = true) :
    isNameChar c = true := by
  simp only [isIdentifierStart, Bool.or_eq_true, beq_iff_eq] at h
  rcases h with (h | rfl) | rfl
  · have ha : c.isAlphanum = true := by simp [Char.isAlphanum, h]
    simp [isNameChar, isWordChar_of_isAlphanum ha]
  · decide
  · decide

theorem isAtomChar_of_mem_isIdentifier {w : Text} (h : isIdentifier w = true) :
    ∀ c ∈ w, isAtomChar c = true := by
  obtain ⟨d, u, rfl, hd, hu⟩ := isIdentifier_iff.1 h
  refine fun c hc => isAtomChar_of_isNameChar ?_
  rcases List.mem_cons.1 hc with rfl | hc
  · exact isNameChar_of_isIdentifierStart hd
  · exact hu c hc

/-- A number or an identifier at the beginning of a text. -/
structure AtomAt (t w r : Text) : Prop where
  eq_append : t = w ++ r
  ne_nil : w ≠ []
  class_of_mem : ∀ d ∈ w, isAtomChar d = true

theorem AtomAt.of_number {t w r : Text} (h : LongestAt IsNumber t w r) : AtomAt t w r := by
  obtain ⟨c, u, rfl, -⟩ := h.mem.exists_eq_cons
  exact ⟨h.eq_append, List.cons_ne_nil c u, h.mem.class_of_mem⟩

theorem AtomAt.of_identifier {t w r : Text} (h : LongestAt (isIdentifier · = true) t w r) :
    AtomAt t w r := by
  have hclass := isAtomChar_of_mem_isIdentifier h.mem
  obtain ⟨c, u, rfl, -⟩ := isIdentifier_iff.1 h.mem
  exact ⟨h.eq_append, List.cons_ne_nil c u, hclass⟩

theorem AtomAt.exists_eq_cons {t w r : Text} (h : AtomAt t w r) :
    ∃ c u, t = c :: u ∧ isAtomChar c = true := by
  obtain ⟨c, u, rfl⟩ := List.exists_cons_of_ne_nil h.ne_nil
  exact ⟨c, u ++ r, h.eq_append, h.class_of_mem c List.mem_cons_self⟩

theorem AtomAt.head?_ne {t w r : Text} (h : AtomAt t w r) {c : Char} (hc : isAtomChar c = false) :
    t.head? ≠ some c := by
  obtain ⟨d, u, rfl, hd⟩ := h.exists_eq_cons
  rintro hdc
  obtain rfl := Option.some.inj hdc
  exact absurd hd (by simp [hc])

theorem AtomAt.atToken {t w r : Text} (h : AtomAt t w r) : AtToken t := by
  obtain ⟨c, u, rfl, hc⟩ := h.exists_eq_cons
  refine atToken_cons (Bool.eq_false_iff.2 fun hb => ?_) ?_ _
  · exact absurd hc (by simp [isAtomChar_of_isBlank hb])
  · rintro rfl
    exact absurd hc (by decide)

/-! ### Keys and atoms -/

theorem AtomAt.not_quote {c : Char} {t w r : Text} (h : AtomAt (c :: t) w r) :
    ¬(c = '"' ∨ c = '\'') := by
  rintro (rfl | rfl)
  · exact h.head?_ne (by decide) rfl
  · exact h.head?_ne (by decide) rfl

theorem key_of_readKey {t k r : Text} (h : Yields (readKey t) k r) : Key t k r := by
  obtain ⟨hl, h⟩ := h
  rw [readKey.eq_def] at h
  split at h
  · simp at h
  · next c t =>
    split_ifs at h with hq
    · have hb : c ≠ '\\' := by rcases hq with rfl | rfl <;> decide
      exact .quoted hq ((yields_readString_iff hb).1 ⟨hl, h⟩)
    · split at h
      · next s hs =>
        cases Except.ok.inj h
        exact .identifier (identifierAt?_eq_some_iff.1 hs)
      · split at h
        · next s hs =>
          cases Except.ok.inj h
          exact .number (numberAt?_eq_some_iff.1 hs)
        · simp at h

theorem readKey_of_key {t k r : Text} (h : Key t k r) : Yields (readKey t) k r := by
  cases h with
  | @quoted q t k r hq h =>
    have hb : q ≠ '\\' := by rcases hq with rfl | rfl <;> decide
    rw [readKey, if_pos hq]
    exact (yields_readString_iff hb).2 h
  | identifier h =>
    have hs := identifierAt?_eq_some_iff.2 h
    refine ⟨length_identifierAt?_lt hs, ?_⟩
    cases t with
    | nil => simp [identifierAt?] at hs
    | cons c t =>
      rw [readKey, if_neg (AtomAt.of_identifier h).not_quote]
      split
      · next s hs' =>
        obtain rfl := Option.some.inj (hs'.symm.trans hs)
        rfl
      · next hn => exact absurd (hn.symm.trans hs) (by simp)
  | number h =>
    have hs := numberAt?_eq_some_iff.2 h
    refine ⟨length_numberAt?_lt hs, ?_⟩
    cases t with
    | nil =>
      obtain ⟨c, u, rfl, -⟩ := h.mem.exists_eq_cons
      exact absurd h.eq_append (by simp)
    | cons c t =>
      rw [readKey, if_neg (AtomAt.of_number h).not_quote]
      split
      · next s hs' =>
        exact (not_number_and_identifier h (identifierAt?_eq_some_iff.1 hs')).elim
      · split
        · next s hs' =>
          obtain rfl := Option.some.inj (hs'.symm.trans hs)
          rfl
        · next hn => exact absurd (hn.symm.trans hs) (by simp)

theorem yields_readKey_iff {t k r : Text} : Yields (readKey t) k r ↔ Key t k r :=
  ⟨key_of_readKey, readKey_of_key⟩

theorem Key.atToken {t k r : Text} (h : Key t k r) : AtToken t := by
  cases h with
  | quoted hq _ =>
    rcases hq with rfl | rfl <;> exact atToken_cons (by decide) (by decide) _
  | identifier h => exact (AtomAt.of_identifier h).atToken
  | number h => exact (AtomAt.of_number h).atToken

theorem suffix_of_readKey {t : Text} {e : LiteralFailure} (h : readKey t = .error e) :
    e.rest <:+ t := by
  rw [readKey.eq_def] at h
  split at h
  · exact Except.error.inj h ▸ List.suffix_rfl
  · split_ifs at h with hq
    · exact eq_of_readString_eq_error h ▸ List.suffix_rfl
    · split at h
      · simp at h
      · split at h
        · simp at h
        · exact Except.error.inj h ▸ List.suffix_rfl

theorem yields_readAtom_iff {t r : Text} {v : Literal} :
    Yields (readAtom t) v r ↔
      (∃ w, v = .number w ∧ LongestAt IsNumber t w r) ∨
        ∃ w, Word w v ∧ LongestAt (isIdentifier · = true) t w r := by
  constructor
  · rintro ⟨hl, h⟩
    rw [readAtom] at h
    split at h
    · next s hs =>
      cases Except.ok.inj h
      exact .inl ⟨s.1, rfl, numberAt?_eq_some_iff.1 hs⟩
    · split at h
      · next s hs =>
        split at h
        · next v' hv =>
          cases Except.ok.inj h
          exact .inr ⟨s.1, word_iff.1 hv, identifierAt?_eq_some_iff.1 hs⟩
        · simp at h
      · simp at h
  · rintro (⟨w, rfl, h⟩ | ⟨w, hw, h⟩)
    · have hs := numberAt?_eq_some_iff.2 h
      refine ⟨length_numberAt?_lt hs, ?_⟩
      rw [readAtom]
      split
      · next s hs' =>
        obtain rfl := Option.some.inj (hs'.symm.trans hs)
        rfl
      · next hn => exact absurd (hn.symm.trans hs) (by simp)
    · have hs := identifierAt?_eq_some_iff.2 h
      refine ⟨length_identifierAt?_lt hs, ?_⟩
      rw [readAtom]
      split
      · next s hs' => exact (not_number_and_identifier (numberAt?_eq_some_iff.1 hs') h).elim
      · split
        · next s hs' =>
          obtain rfl := Option.some.inj (hs'.symm.trans hs)
          simp only [word_iff.2 hw]
        · next hn => exact absurd (hn.symm.trans hs) (by simp)

theorem eq_of_readAtom_eq_error {t : Text} {e : LiteralFailure} (h : readAtom t = .error e) :
    e.rest = t := by
  rw [readAtom] at h
  split at h
  · simp at h
  · split at h
    · split at h
      · simp at h
      · exact Except.error.inj h ▸ rfl
    · exact Except.error.inj h ▸ rfl

end LiteralGrammar

end DocDecl

import DocDecl.Delimiter.Group
import DocDecl.Proofs.Literal.Reading

/-!
# Where a literal ends

The scan over brackets ends an object or an array where the reader of literals ends it. Both know
the same quotes, escapes and comments, so the scan goes over every token and all trivia of a
derivation with the brackets it has, and closes the innermost one where the derivation does. What
stands behind the literal does not matter to either.

## Main definitions

* `LiteralGrammar.isMark`, `LiteralGrammar.marks` : the characters that the scan stops at.

## Main results

* `LiteralGrammar.closing?_of_derives` : a scan over a phrase.
* `LiteralGrammar.afterGroup?_of_derives` : the group that an object or an array is.
-/

namespace DocDecl

namespace LiteralGrammar

/-! ### Steps of the scan -/

/-- The class of characters that a scan over brackets stops at. -/
def isMark (c : Char) : Bool := isQuote c || c == '/' || (closer? c).isSome || isCloser c

/-- The characters of that class. -/
def marks : List Char := ['"', '\'', '\x60', '/', '(', '[', '{', ')', ']', '}']

theorem mem_marks_of_isMark {c : Char} (h : isMark c = true) : c ∈ marks := by
  have hopen : (closer? c).isSome = true → c = '(' ∨ c = '[' ∨ c = '{' := by
    rw [closer?.eq_def]
    split <;> simp_all
  simp only [isMark, isCloser, Bool.or_eq_true, isQuote_iff, beq_iff_eq] at h
  simp only [marks, List.mem_cons, List.not_mem_nil, or_false]
  rcases h with ((h | rfl) | h) | h
  · rcases h with rfl | rfl | rfl <;> simp
  · simp
  · rcases hopen h with rfl | rfl | rfl <;> simp
  · rcases h with (rfl | rfl) | rfl <;> simp

/-- A class that holds no mark, one by one, is one that the scan goes over. -/
theorem isMark_eq_false {p : Char → Bool} (hp : marks.all (fun c => !p c) = true) {c : Char}
    (h : p c = true) : isMark c = false := by
  rw [Bool.eq_false_iff]
  intro hc
  have hpc := List.all_eq_true.1 hp c (mem_marks_of_isMark hc)
  simp [h] at hpc

section Scan

variable {k : Char} {ks : List Char}

theorem closing?_plain {c : Char} (hc : isMark c = false) (t : Text) :
    closing? (k :: ks) (c :: t) = closing? (k :: ks) t := by
  simp only [isMark, Bool.or_eq_false_iff, beq_eq_false_iff_ne, Option.isSome_eq_false_iff,
    Option.isNone_iff_eq_none] at hc
  obtain ⟨⟨⟨hq, hs⟩, ho⟩, hcl⟩ := hc
  rw [closing?]
  simp only [hq, hs, ho, hcl, Bool.false_eq_true, false_and, if_false]

theorem closing?_open {c k' : Char} (h : closer? c = some k') (t : Text) :
    closing? (k :: ks) (c :: t) = closing? (k' :: k :: ks) t := by
  have hc : c = '(' ∨ c = '[' ∨ c = '{' := by
    rw [closer?.eq_def] at h
    split at h <;> simp_all
  have hq : isQuote c = false ∧ c ≠ '/' := by rcases hc with rfl | rfl | rfl <;> decide
  rw [closing?]
  simp only [hq, h, Bool.false_eq_true, false_and, if_false]

theorem closing?_close (h : isCloser k = true) (t : Text) :
    closing? (k :: ks) (k :: t) = closing? ks t := by
  have hk : k = ')' ∨ k = ']' ∨ k = '}' := by
    simpa [isCloser, Bool.or_eq_true, or_assoc] using h
  have hq : isQuote k = false ∧ k ≠ '/' ∧ closer? k = none := by
    rcases hk with rfl | rfl | rfl <;> exact ⟨by decide, by decide, rfl⟩
  rw [closing?]
  simp only [hq, h, Bool.false_eq_true, false_and, if_false, if_true]

theorem closing?_quoted {q : Char} {t w r : Text} (hq : isQuote q = true) (h : Quoted q t w r)
    (s : Text) : closing? (k :: ks) (q :: (t ++ s)) = closing? (k :: ks) (r ++ s) := by
  have hb : q ≠ '\\' := by
    rintro rfl
    exact absurd hq (by decide)
  rw [closing?, if_pos hq]
  congr 1
  clear hq
  induction h with
  | close r =>
    rw [List.cons_append, spanQuoted, if_pos rfl]
    · exact fun h => absurd h hb
    · exact fun _ _ h => absurd h hb
  | escape _ ih => rw [List.cons_append, List.cons_append, spanQuoted, ih]
  | plain hb' hc _ _ ih =>
    rw [List.cons_append, spanQuoted, if_neg hc, ih]
    · exact fun h => absurd h hb'
    · exact fun _ _ h => absurd h hb'

theorem closing?_atoms {w : Text} (hw : ∀ c ∈ w, isAtomChar c = true) (t : Text) :
    closing? (k :: ks) (w ++ t) = closing? (k :: ks) t := by
  induction w with
  | nil => rfl
  | cons c w ih =>
    obtain ⟨hc, hw⟩ := List.forall_mem_cons.1 hw
    rw [List.cons_append, closing?_plain (isMark_eq_false (by decide) hc), ih hw]

theorem closing?_atomAt {t w r : Text} (h : AtomAt t w r) (s : Text) :
    closing? (k :: ks) (t ++ s) = closing? (k :: ks) (r ++ s) := by
  rw [h.eq_append, List.append_assoc, closing?_atoms h.class_of_mem]

theorem closing?_key {t key r : Text} (h : Key t key r) (s : Text) :
    closing? (k :: ks) (t ++ s) = closing? (k :: ks) (r ++ s) := by
  cases h with
  | quoted hq h =>
    exact closing?_quoted (isQuote_iff.2 (hq.imp_right .inl)) h s
  | identifier h => exact closing?_atomAt (.of_identifier h) s
  | number h => exact closing?_atomAt (.of_number h) s

/-- Trivia is scanned over. A line comment at the end of the text is none that a token follows. -/
theorem closing?_trivia {t r : Text} (h : Trivia t r) (hr : r ≠ []) (s : Text) :
    closing? (k :: ks) (t ++ s) = closing? (k :: ks) (r ++ s) := by
  induction h with
  | done => rfl
  | blank hc _ ih =>
    rw [List.cons_append, closing?_plain (isMark_eq_false (by decide) hc), ih hr]
  | @line u t r hu ht h ih =>
    have hfeed : t.head? = some '\n' := by
      refine ht.resolve_left ?_
      rintro rfl
      exact hr (List.suffix_nil.1 h.suffix)
    have hspan : spanLineComment (u ++ (t ++ s)) = (u, t ++ s) := by
      refine spanLineComment_append hu (.inr ?_)
      rw [List.head?_append, hfeed, Option.some_or]
    have hskip : (spanLineComment (u ++ t ++ s)).2 = t ++ s := by
      rw [List.append_assoc, hspan]
    rw [List.cons_append, List.cons_append, closing?, if_neg (by decide), if_neg (by simp),
      if_pos ⟨rfl, rfl⟩, List.tail_cons, hskip, ih hr]
  | @block u t r hu _ ih =>
    have hskip : (spanBlockComment (u ++ '*' :: '/' :: t ++ s)).2 = t ++ s := by
      rw [List.append_assoc]
      exact spanBlockComment_of_afterBlockComment? (afterBlockComment?_append hu (t ++ s))
    rw [List.cons_append, List.cons_append, closing?, if_neg (by decide), if_pos ⟨rfl, rfl⟩,
      List.tail_cons, hskip, ih hr]

end Scan

/-! ### A scan over a derivation -/

theorem Derives.ne_nil {n : Nat} {v : Literal} {t r : Text} (h : Derives n (.value v) t r) :
    t ≠ [] := by
  cases h with
  | string _ _ => exact List.cons_ne_nil _ _
  | number h =>
    obtain ⟨c, u, rfl, -⟩ := (AtomAt.of_number h).exists_eq_cons
    exact List.cons_ne_nil c u
  | word h _ =>
    obtain ⟨c, u, rfl, -⟩ := (AtomAt.of_identifier h).exists_eq_cons
    exact List.cons_ne_nil c u
  | object _ _ => exact List.cons_ne_nil _ _
  | array _ => exact List.cons_ne_nil _ _

theorem Key.ne_nil {t k r : Text} (h : Key t k r) : t ≠ [] := by
  cases h with
  | quoted _ _ => exact List.cons_ne_nil _ _
  | identifier h =>
    obtain ⟨c, u, rfl, -⟩ := (AtomAt.of_identifier h).exists_eq_cons
    exact List.cons_ne_nil c u
  | number h =>
    obtain ⟨c, u, rfl, -⟩ := (AtomAt.of_number h).exists_eq_cons
    exact List.cons_ne_nil c u

/-- A scan over a member, from the trivia before its key to its value. -/
theorem closing?_key_colon {k : Char} {ks : List Char} {t t₁ t₂ t₃ t₄ key : Text}
    (h₁ : Trivia t t₁) (hk : Key t₁ key t₂) (h₂ : Trivia t₂ (':' :: t₃)) (h₃ : Trivia t₃ t₄)
    (hne : t₄ ≠ []) (s : Text) : closing? (k :: ks) (t ++ s) = closing? (k :: ks) (t₄ ++ s) := by
  rw [closing?_trivia h₁ hk.ne_nil, closing?_key hk, closing?_trivia h₂ (List.cons_ne_nil _ _),
    List.cons_append, closing?_plain (by decide), closing?_trivia h₃ hne]

/-- A scan goes over a value with the brackets it has, and closes the bracket that the inside of an
object or an array ends with. -/
theorem closing?_of_derives {n : Nat} {p : Phrase} {t r : Text} (h : Derives n p t r)
    (ks : List Char) (hks : p.closers ++ ks ≠ []) (s : Text) :
    closing? (p.closers ++ ks) (t ++ s) = closing? ks (r ++ s) := by
  have hmark {k : Char} {ks : List Char} {t r : Text} {c : Char} (h : Trivia t (c :: r)) :
      closing? (k :: ks) (t ++ s) = closing? (k :: ks) (c :: (r ++ s)) :=
    closing?_trivia h (List.cons_ne_nil c r) s
  induction h generalizing ks with
  | string hq h =>
    obtain ⟨k, ks, rfl⟩ := List.exists_cons_of_ne_nil hks
    exact closing?_quoted hq h s
  | number h =>
    obtain ⟨k, ks, rfl⟩ := List.exists_cons_of_ne_nil hks
    exact closing?_atomAt (.of_number h) s
  | word h _ =>
    obtain ⟨k, ks, rfl⟩ := List.exists_cons_of_ne_nil hks
    exact closing?_atomAt (.of_identifier h) s
  | object _ _ ih =>
    obtain ⟨k, ks, rfl⟩ := List.exists_cons_of_ne_nil hks
    have hopen : closer? '{' = some '}' := rfl
    exact (closing?_open hopen _).trans (ih (k :: ks) (List.cons_ne_nil _ _))
  | array _ ih =>
    obtain ⟨k, ks, rfl⟩ := List.exists_cons_of_ne_nil hks
    have hopen : closer? '[' = some ']' := rfl
    exact (closing?_open hopen _).trans (ih (k :: ks) (List.cons_ne_nil _ _))
  | noMember h => exact (hmark h).trans (closing?_close rfl _)
  | lastMember h₁ hk h₂ h₃ hv h₄ ih =>
    have hval := ih ('}' :: ks) (List.cons_ne_nil _ _)
    exact (closing?_key_colon h₁ hk h₂ h₃ hv.ne_nil s).trans
      (hval.trans ((hmark h₄).trans (closing?_close rfl _)))
  | member h₁ hk h₂ h₃ hv h₄ _ ih ihms =>
    have hval := ih ('}' :: ks) (List.cons_ne_nil _ _)
    have hms := ihms ks (List.cons_ne_nil _ _)
    exact (closing?_key_colon h₁ hk h₂ h₃ hv.ne_nil s).trans
      (hval.trans ((hmark h₄).trans ((closing?_plain (by decide) _).trans hms)))
  | noItem h => exact (hmark h).trans (closing?_close rfl _)
  | lastItem h₁ hv h₂ ih =>
    have hval := ih (']' :: ks) (List.cons_ne_nil _ _)
    exact (closing?_trivia h₁ hv.ne_nil s).trans
      (hval.trans ((hmark h₂).trans (closing?_close rfl _)))
  | item h₁ hv h₂ _ ih ihvs =>
    have hval := ih (']' :: ks) (List.cons_ne_nil _ _)
    have hvs := ihvs ks (List.cons_ne_nil _ _)
    exact (closing?_trivia h₁ hv.ne_nil s).trans
      (hval.trans ((hmark h₂).trans ((closing?_plain (by decide) _).trans hvs)))

theorem Derives.inside {n : Nat} {v : Literal} {c : Char} {u r : Text}
    (hc : c = '{' ∨ c = '[') (h : Derives n (.value v) (c :: u) r) :
    ∃ m p k, closer? c = some k ∧ p.closers = [k] ∧ Derives m p u r := by
  have hatom {w : Text} (h : AtomAt (c :: u) w r) : False := by
    rcases hc with rfl | rfl <;> exact h.head?_ne (by decide) rfl
  cases h with
  | string hq _ => rcases hc with rfl | rfl <;> exact absurd hq (by decide)
  | number h => exact (hatom (.of_number h)).elim
  | word h _ => exact (hatom (.of_identifier h)).elim
  | object h _ => exact ⟨_, _, '}', rfl, rfl, h⟩
  | array h => exact ⟨_, _, ']', rfl, rfl, h⟩

/-- The group that a text with an object or an array at its beginning begins with. -/
theorem afterGroup?_of_derives {n : Nat} {v : Literal} {c : Char} {u r : Text}
    (hc : c = '{' ∨ c = '[') (h : Derives n (.value v) (c :: u) r) (s : Text) :
    afterGroup? (c :: u ++ s) = some (r ++ s) := by
  obtain ⟨m, p, k, hk, hp, h⟩ := h.inside hc
  have hscan := closing?_of_derives h [] (by simp [hp]) s
  rw [List.append_nil, hp] at hscan
  rw [List.cons_append, afterGroup?, hk, Option.bind_some, hscan, closing?]

theorem getLast?_of_derives {n : Nat} {v : Literal} {c : Char} {u r : Text}
    (hc : c = '{' ∨ c = '[') (h : Derives n (.value v) (c :: u) r) :
    ∃ w, c :: u = w ++ r ∧ w.getLast? = closer? c := by
  obtain ⟨m, p, k, hk, hp, h⟩ := h.inside hc
  obtain ⟨w, rfl⟩ := h.closers_suffix
  refine ⟨c :: w ++ [k], by simp [hp], ?_⟩
  rw [List.getLast?_concat, hk]

end LiteralGrammar

end DocDecl

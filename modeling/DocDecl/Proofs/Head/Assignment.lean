import DocDecl.Head.Basic
import DocDecl.Proofs.Literal.Extent
import DocDecl.Proofs.Text.Trim

/-!
# The literal that a head assigns

A name with an equals sign or a colon behind it is the head of an assignment: nothing in it stops
the head, so the head stops at the brace behind it and takes the whole group that opens there. Where
an object literal stands, that group is the literal, whatever follows it.

## Main results

* `spanHead_append` : a head goes on over plain characters.
* `extent_of_parseLiteral` : the scan over brackets, the reader of literals and the head agree on
  the end of a literal.
-/

namespace DocDecl

/-! ### Heads of assignments -/

open LiteralGrammar

theorem spanHead_cons {c : Char} {t : Text} (hm : isMark c = false) (hc : c ≠ ';' ∧ c ≠ ',')
    (ha : c = '=' → t.head? ≠ some '>') :
    spanHead 0 (c :: t) = (spanHead 0 t).prepend [c] := by
  have hne {d : Char} (hd : isMark d = true) : c ≠ d := by
    rintro rfl
    exact absurd hd (by simp [hm])
  have hq : isQuote c = false := by
    rw [Bool.eq_false_iff]
    intro hq
    exact absurd hm (by simp [isMark, hq])
  have harrow : ¬(c = '=' ∧ t.head? = some '>') := fun h => ha h.1 h.2
  have hs : c ≠ '/' := hne (by decide)
  have ho : c ≠ '(' ∧ c ≠ '[' ∧ c ≠ '{' := ⟨hne (by decide), hne (by decide), hne (by decide)⟩
  have hcl : c ≠ ')' ∧ c ≠ ']' ∧ c ≠ '}' := ⟨hne (by decide), hne (by decide), hne (by decide)⟩
  rw [spanHead]
  simp only [hq, hs, ho, hcl, hc, harrow, Bool.false_eq_true, false_and, false_or, and_false,
    if_false]

theorem spanHead_append {w : Text}
    (hw : ∀ c ∈ w, isMark c = false ∧ (c ≠ ';' ∧ c ≠ ',') ∧ c ≠ '=') (t : Text) :
    spanHead 0 (w ++ t) = (spanHead 0 t).prepend w := by
  induction w with
  | nil => rfl
  | cons c w ih =>
    obtain ⟨⟨hm, hc, he⟩, hw⟩ := List.forall_mem_cons.1 hw
    rw [List.cons_append, spanHead_cons hm hc (fun h => absurd h he), ih hw]
    rfl

theorem spanHead_brace (t : Text) : spanHead 0 ('{' :: t) = ⟨[], .brace, '{' :: t⟩ := by
  rw [spanHead]
  simp [isQuote]

/-- The head of an assignment goes up to the brace behind its sign. -/
theorem spanHead_assignment {name gap : Text} {sign : Char}
    (hname : ∀ c ∈ name, isNameChar c = true ∨ c = '.' ∨ c = ' ')
    (hsign : sign = '=' ∨ sign = ':') (hgap : ∀ c ∈ gap, c = ' ') (t : Text) :
    spanHead 0 (name ++ sign :: (gap ++ '{' :: t)) =
      ⟨name ++ sign :: gap, .brace, '{' :: t⟩ := by
  have hplain : ∀ c ∈ name, isMark c = false ∧ (c ≠ ';' ∧ c ≠ ',') ∧ c ≠ '=' := by
    intro c hc
    rcases hname c hc with h | rfl | rfl
    · refine ⟨isMark_eq_false (by decide) (isAtomChar_of_isNameChar h), ⟨?_, ?_⟩, ?_⟩ <;>
        (rintro rfl; exact absurd h (by decide))
    · decide
    · decide
  have hspace : ∀ c ∈ gap, isMark c = false ∧ (c ≠ ';' ∧ c ≠ ',') ∧ c ≠ '=' := by
    rintro c hc
    obtain rfl := hgap c hc
    decide
  have harrow : (gap ++ '{' :: t).head? ≠ some '>' := by
    cases gap with
    | nil => simp
    | cons d gap => simp [hgap d List.mem_cons_self]
  have hm : isMark sign = false ∧ sign ≠ ';' ∧ sign ≠ ',' := by
    rcases hsign with rfl | rfl <;> decide
  rw [spanHead_append hplain, spanHead_cons hm.1 hm.2 fun _ => harrow, spanHead_append hspace,
    spanHead_brace]
  simp [HeadSpan.prepend]

theorem Head.literal_scan_assignment {name gap : Text} {sign : Char}
    (hname : ∀ c ∈ name, isNameChar c = true ∨ c = '.' ∨ c = ' ')
    (hsign : sign = '=' ∨ sign = ':') (hgap : ∀ c ∈ gap, c = ' ') {t w r : Text}
    (ht : '{' :: t = w ++ r) (hr : afterGroup? ('{' :: t) = some r) :
    (Head.scan (name ++ sign :: (gap ++ '{' :: t))).literal = w := by
  have hblank : gap.all isBlank = true := List.all_eq_true.2 fun c hc => hgap c hc ▸ by decide
  have hlast : (Text.trim (name ++ sign :: gap)).getLast? = some sign :=
    Text.getLast?_trim (by rcases hsign with rfl | rfl <;> decide) hblank name
  have hlen : ('{' :: t).length - r.length = w.length := by
    rw [ht, List.length_append, Nat.add_sub_cancel]
  rw [Head.scan, spanHead_assignment hname hsign hgap]
  simp only [Head.literalOf, hlast, Option.some.injEq, true_and, group?, hr, Option.map_some,
    Option.getD_some, hlen]
  rw [if_pos hsign, ht, List.take_left]

/-- The extent of a text that is read as an object or an array. Whatever follows the text, the group
that it begins with ends behind the bracket that closes the value, and only trivia is left of the
text there. An object is the literal of every assignment to a dotted name in front of it. -/
theorem extent_of_parseLiteral {t : Text} {v : Literal} (h : parseLiteral t = .ok v)
    (hb : t.head? = some '{' ∨ t.head? = some '[') :
    ∃ e ≤ t.length,
      (∀ s, groupEnd? (t ++ s) 0 = some e) ∧
        Derives 100 (.value v) t (t.drop e) ∧
        (t.take e).getLast? = t.head?.bind closer? ∧
        Trivia (t.drop e) [] ∧
        ∀ ms, v = .object ms → ∀ name sign gap s,
          (∀ c ∈ name, isNameChar c = true ∨ c = '.' ∨ c = ' ') → (sign = '=' ∨ sign = ':') →
            (∀ c ∈ gap, c = ' ') →
              (Head.scan (name ++ sign :: (gap ++ (t ++ s)))).literal = t.take e := by
  obtain ⟨s, r, hs, hd, hr⟩ := parseLiteral_eq_ok_iff.1 h
  obtain ⟨c, u, rfl, hc⟩ : ∃ c u, t = c :: u ∧ (c = '{' ∨ c = '[') := by
    rcases hb with hb | hb <;> obtain ⟨u, rfl⟩ := List.head?_eq_some_iff.1 hb
    · exact ⟨_, u, rfl, .inl rfl⟩
    · exact ⟨_, u, rfl, .inr rfl⟩
  have hsu : s = c :: u := by
    have hc' : isBlank c = false ∧ c ≠ '/' := by rcases hc with rfl | rfl <;> decide
    cases hs with
    | done => rfl
    | blank hb _ => exact absurd hb (by simp [hc'.1])
    | line _ _ _ => exact absurd rfl hc'.2
    | block _ _ => exact absurd rfl hc'.2
  subst hsu
  obtain ⟨w, hw, hlast⟩ := getLast?_of_derives hc hd
  have hdrop : (c :: u).drop w.length = r := by rw [hw, List.drop_left]
  have htake : (c :: u).take w.length = w := by rw [hw, List.take_left]
  refine ⟨w.length, ?_, fun s => ?_, ?_, ?_, ?_, ?_⟩
  · rw [hw, List.length_append]
    exact Nat.le_add_right _ _
  · rw [groupEnd?, List.drop_zero, afterGroup?_of_derives hc hd s, Option.map_some, hw]
    simp only [List.length_append]
    rw [Nat.add_assoc, Nat.add_sub_cancel]
  · exact hdrop ▸ hd
  · rw [htake, hlast, List.head?_cons, Option.bind_some]
  · exact hdrop ▸ hr
  · rintro ms rfl name sign gap s hname hsign hgap
    have hbrace : c = '{' := by
      cases hd with
      | word _ hw => cases hw
      | object _ _ => rfl
    subst hbrace
    rw [htake]
    refine Head.literal_scan_assignment hname hsign hgap (t := u ++ s) (r := r ++ s) ?_ ?_
    · rw [← List.append_assoc, ← hw, List.cons_append]
    · exact afterGroup?_of_derives hc hd s

/-- A brace in a string does not end the object, and neither does one in the code behind it. -/
theorem extent_of_quoted_brace :
    ∃ e ≤ 12,
      (∀ s, groupEnd? ("\x7ba:'\x7d'\x7d // b".toList ++ s) 0 = some e) ∧
        (Head.scan ("x = \x7ba:'\x7d'\x7d // b\n\x7d")).literal =
          "\x7ba:'\x7d'\x7d // b".toList.take e := by
  have hkey : Key "a:'\x7d'\x7d // b" "a" ":'\x7d'\x7d // b" :=
    .identifier (identifierAt?_eq_some_iff.1 (by decide +kernel))
  have hobject : Derives 100 (.value (.object [("a", .string "\x7d")])) "\x7ba:'\x7d'\x7d // b"
      " // b" :=
    .object (.lastMember (.done _) hkey (.done _) (.done _)
      (.string rfl (.plain (by decide) (by decide) (by decide) (.close _))) (.done _))
      ⟨rfl, fun _ => rfl⟩
  have hcomment : Trivia " // b" [] :=
    .blank (c := ' ') rfl (.line (s := " b".toList) (by decide) (.inl rfl) (.done []))
  have h := parseLiteral_eq_ok_iff.2 ⟨_, _, .done _, hobject, hcomment⟩
  obtain ⟨e, hle, hend, -, -, -, hscan⟩ := extent_of_parseLiteral h (.inl rfl)
  have hname : ∀ c ∈ "x ".toList, isNameChar c = true ∨ c = '.' ∨ c = ' ' :=
    List.forall_mem_cons.2 ⟨by decide, List.forall_mem_singleton.2 (by decide)⟩
  have hgap : ∀ c ∈ " ".toList, c = ' ' := List.forall_mem_singleton.2 rfl
  have hscan := hscan _ rfl _ '=' _ "\n\x7d" hname (.inl rfl) hgap
  exact ⟨e, hle, hend, hscan⟩

end DocDecl

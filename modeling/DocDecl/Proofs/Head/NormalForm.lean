import DocDecl.Proofs.Head.Collapse
import DocDecl.Proofs.Head.State

/-!
# Heads in normal form

Folding a head onto one line takes out no character that begins or ends a mark, and it brings no two
characters together that stood apart, but for those at a round bracket. So the scan reads the folded
head as it read the head, in strings and comments too: it stops nowhere, and the head of a head is
the head itself.

## Main definitions

* `HeadState.settled` : what blanks lead to.
* `IsNormalHead` : the heads in normal form.

## Main results

* `HeadState.run_collapseBlanks` : folded code stops where the code does.
* `Head.isNormalHead_scan` : every head is in normal form.
-/

namespace DocDecl

open Text

variable {b c : Char} {depth : Nat} {s : HeadState} {h t : Text}

/-! ### Blanks in the code that is read -/

namespace HeadState

/-- What blanks lead to. -/
def settled : HeadState → HeadState
  | slash depth => code depth
  | equals => code 0
  | escape quote depth => string quote depth
  | opened depth => comment depth
  | star depth => comment depth
  | s => s

@[simp]
theorem settled_settled (s : HeadState) : s.settled.settled = s.settled := by
  cases s <;> rfl

@[simp]
theorem settled_eq_stopped_iff : s.settled = stopped ↔ s = stopped := by
  cases s <;> simp [settled]

/-- The characters that lead elsewhere from one of the states. -/
def marks : List Char :=
  ['"', '\'', '\x60', '\\', '/', '*', '(', '[', ')', ']', ';', '}', ',', '{', '=', '>']

theorem ne_quote (hc : isQuote c = false) (quote : Quote) : c ≠ quote.1 := by
  rintro rfl
  rw [quote.2] at hc
  cases hc

/-- Every other character leads where a blank leads. -/
theorem step_of_notMem_marks (hc : c ∉ marks) (s : HeadState) : s.step c = s.settled := by
  simp only [marks, List.mem_cons, List.not_mem_nil, or_false, not_or] at hc
  have hcode (depth : Nat) : stepCode depth c = code depth := by simp [stepCode, isQuote, hc]
  cases s with
  | string quote depth =>
    have hquote : c ≠ quote.1 := ne_quote (by simp [isQuote, hc]) quote
    simp [step, settled, hc, hquote]
  | _ => simp [step, settled, hc, hcode]

theorem step_blank (hb : isBlank b = true) (s : HeadState) : s.step b = s.settled := by
  have hmarks : marks.all (fun c => !isBlank c) = true := by decide
  refine step_of_notMem_marks (fun hmem => ?_) s
  have hb' := List.all_eq_true.1 hmarks b hmem
  simp [hb] at hb'

/-- Behind an opening bracket a blank leads nowhere else. -/
theorem settled_step_open (s : HeadState) : (s.step '(').settled = s.step '(' := by
  have hcode (depth : Nat) : stepCode depth '(' = code (depth + 1) := by
    simp [stepCode, isQuote]
  cases s with
  | string quote depth => simp [step, settled, ne_quote (c := '(') (by decide) quote]
  | _ => simp [step, settled, hcode]

/-- In front of a closing bracket it does not matter where a blank leads. -/
theorem step_close_settled (s : HeadState) : s.settled.step ')' = s.step ')' := by
  cases s with
  | escape quote depth => simp [step, settled, ne_quote (c := ')') (by decide) quote]
  | _ => simp [step, settled]

theorem run_blanks (ht : t.all isBlank = true) : s.run t = stopped ↔ s = stopped := by
  induction t generalizing s with
  | nil => rfl
  | cons b t ih =>
    rw [List.all_cons, Bool.and_eq_true] at ht
    rw [run_cons, step_blank ht.1, ih ht.2, settled_eq_stopped_iff]

/-- Words with one space between them stop where the text does. Where the text begins with a blank,
this is so in a state that blanks keep. -/
theorem run_spacedWords (hs : ∀ b ∈ t.head?, isBlank b = true → s.settled = s) :
    s.run (spacedWords t) = stopped ↔ s.run t = stopped := by
  induction t using blank_induction generalizing s with
  | nil => rfl
  | blank b t hb ih =>
    have hs := hs b rfl hb
    rw [spacedWords_blank_cons hb, run_cons, step_blank hb, hs]
    exact ih fun _ _ _ => hs
  | cons c t hc ht ih =>
    rw [spacedWords_cons hc ht, run_cons, run_cons]
    exact ih fun b hb hblank => absurd hblank (by simp [ht b hb])
  | gap c b t hc hb ih =>
    rw [spacedWords_cons_blank hc hb, run_cons, run_cons, run_cons, step_blank hb]
    split_ifs with hnil
    · rw [run_nil, run_blanks (spacedWords_eq_nil_iff.1 hnil), settled_eq_stopped_iff]
    · rw [run_cons, step_blank (by decide)]
      exact ih fun _ _ _ => settled_settled _

theorem run_replace_open (s : HeadState) (t : Text) :
    s.run (replace ['(', ' '] ['('] t) = s.run t := by
  induction t using pair_induction '(' ' ' generalizing s with
  | nil => rfl
  | pair t ih =>
    rw [replace_pair, List.singleton_append, run_cons, ih, run_cons, run_cons,
      step_blank (b := ' ') rfl, settled_step_open]
  | cons e t h ih => rw [replace_pair_cons h, run_cons, run_cons, ih]

theorem run_replace_close (s : HeadState) (t : Text) :
    s.run (replace [' ', ')'] [')'] t) = s.run t := by
  induction t using pair_induction ' ' ')' generalizing s with
  | nil => rfl
  | pair t ih =>
    rw [replace_pair, List.singleton_append, run_cons, ih, run_cons, run_cons,
      step_blank (b := ' ') rfl, step_close_settled]
  | cons e t h ih => rw [replace_pair_cons h, run_cons, run_cons, ih]

/-- Folded code stops where the code does. -/
theorem run_collapseBlanks (depth : Nat) (t : Text) :
    (code depth).run (collapseBlanks t) = stopped ↔ (code depth).run t = stopped := by
  rw [collapseBlanks_eq, run_replace_close, run_replace_open]
  exact run_spacedWords fun _ _ _ => rfl

end HeadState

/-! ### Heads -/

/-- A head in normal form. -/
structure IsNormalHead (h : Text) : Prop where
  /-- It is on one line. -/
  feed_notMem : '\n' ∉ h
  /-- It has no blanks at its ends. -/
  trim_eq : trim h = h
  /-- Of two characters in a row one at least is no blank. -/
  not_both_blank : ∀ c d, [c, d] <:+: h → isBlank c = false ∨ isBlank d = false
  /-- No space stands behind an opening round bracket. -/
  not_open_isInfix : ¬"( ".toList <:+: h
  /-- No space stands in front of a closing round bracket. -/
  not_close_isInfix : ¬" )".toList <:+: h
  /-- Folding leaves it as it is. -/
  collapseBlanks_eq : collapseBlanks h = h
  /-- It is its own head. -/
  text_scan_eq : (Head.scan h).text = h

namespace Head

/-- The scan of a head goes up to its end. -/
theorem spanHead_text_scan (code : Text) :
    spanHead 0 (scan code).text = ⟨(scan code).text, .other, []⟩ := by
  refine (scansAs_spanHead 0 (scan code).text).eq_of_ne ?_
  rw [text_scan_eq, ne_eq, HeadState.run_collapseBlanks]
  exact (scansAs_spanHead 0 code).head_ne

/-- **Every head is in normal form**, also one with strings and comments in it. -/
theorem isNormalHead_scan (code : Text) : IsNormalHead (scan code).text := by
  have hspaced : SingleSpaced Parted (scan code).text := singleSpaced_collapseBlanks _
  have hcollapse := collapseBlanks_eq_self_iff.2 hspaced
  refine ⟨fun hfeed => ?_, hspaced.trim_eq, fun c d hp => ?_, hspaced.not_open_isInfix,
    hspaced.not_close_isInfix, hcollapse, ?_⟩
  · obtain ⟨s, r, hs⟩ := List.append_of_mem hfeed
    have hspace := ((hs ▸ hspaced).of_append_cons (b := '\n') rfl).1
    exact absurd hspace (by decide)
  · by_cases hd : isBlank d = true
    · exact .inl (hspaced.of_pair_behind hp hd).1
    · exact .inr (Bool.eq_false_iff.2 hd)
  · rw [text_scan_eq, spanHead_text_scan, hcollapse]

/-- Strings are folded too, and the marks in them and in comments stop no head. -/
example :
    (scan "save( 'a  ;',\n  /* ; */ c ) => c".toList).text = "save('a ;', /* ; */ c)".toList := by
  cbv

end Head

end DocDecl

import DocDecl.Head.Basic
import DocDecl.Proofs.Delimiter.Grammar
import Mathlib.Data.List.Basic

/-!
# The scan of a head, character by character

How a head goes on depends on little of the code in front: whether a string or a comment is open,
how many brackets are, and whether the last character may begin a mark. Read character by character
with this in mind, code stops where the scan stops its head; so the head of code is a head up to its
own end, and code that does not stop is its own head.

## Main definitions

* `HeadState`, `HeadState.step`, `HeadState.run` : reading character by character.
* `Passes` : code that leads from one depth to another.
* `ScansAs` : a division of code at the place where it stops.

## Main results

* `scansAs_spanHead` : heads stop where reading stops.
-/

namespace DocDecl

variable {c : Char} {depth depth' : Nat} {t w : Text}

/-! ### Reading character by character -/

/-- The quotes that open a string. -/
abbrev Quote := { c : Char // isQuote c = true }

/-- What matters of the code that is read. -/
inductive HeadState where
  /-- Outside strings and comments. -/
  | code (depth : Nat)
  /-- Behind a slash. -/
  | slash (depth : Nat)
  /-- Behind an equals sign outside brackets. -/
  | equals
  /-- In a string. -/
  | string (quote : Quote) (depth : Nat)
  /-- Behind a backslash in a string. -/
  | escape (quote : Quote) (depth : Nat)
  /-- Behind the opening mark of a comment. -/
  | opened (depth : Nat)
  /-- In a comment. -/
  | comment (depth : Nat)
  /-- Behind a star in a comment. -/
  | star (depth : Nat)
  /-- Behind the head. -/
  | stopped
  deriving DecidableEq

namespace HeadState

/-- What a character leads to outside strings and comments. -/
def stepCode (depth : Nat) (c : Char) : HeadState :=
  if h : isQuote c = true then string ⟨c, h⟩ depth
  else if c = '/' then slash depth
  else if c = '(' ∨ c = '[' then code (depth + 1)
  else if c = ')' ∨ c = ']' then if depth = 0 then stopped else code (depth - 1)
  else if depth = 0 ∧ (c = ';' ∨ c = '}' ∨ c = ',' ∨ c = '{') then stopped
  else if depth = 0 ∧ c = '=' then equals
  else code depth

theorem stepCode_slash (depth : Nat) : stepCode depth '/' = slash depth := by
  simp [stepCode, isQuote]

theorem stepCode_equals : stepCode 0 '=' = equals := by
  simp [stepCode, isQuote]

/-- What a character leads to. -/
def step : HeadState → Char → HeadState
  | code depth, c => stepCode depth c
  | slash depth, c =>
    if c = '/' then stopped else if c = '*' then opened depth else stepCode depth c
  | equals, c => if c = '>' then stopped else stepCode 0 c
  | string quote depth, c =>
    if c = '\\' then escape quote depth
    else if c = quote then code depth else string quote depth
  | escape quote depth, _ => string quote depth
  | opened depth, c => if c = '*' then stopped else comment depth
  | comment depth, c => if c = '*' then star depth else comment depth
  | star depth, c => if c = '/' then code depth else if c = '*' then star depth else comment depth
  | stopped, _ => stopped

/-- What a text leads to. -/
def run (s : HeadState) (t : Text) : HeadState := t.foldl step s

variable {p q s : HeadState}

@[simp]
theorem run_nil (s : HeadState) : s.run [] = s := rfl

@[simp]
theorem run_cons (s : HeadState) (c : Char) (t : Text) : s.run (c :: t) = (s.step c).run t := rfl

@[simp]
theorem run_append (s : HeadState) (t u : Text) : s.run (t ++ u) = (s.run t).run u :=
  List.foldl_append

@[simp]
theorem run_stopped (t : Text) : stopped.run t = stopped := by
  induction t with
  | nil => rfl
  | cons c t ih => exact ih

/-- States that the first character leads to the same state stop with the same texts. -/
theorem run_eq_stopped_congr (hnil : p = stopped ↔ q = stopped)
    (hcons : ∀ c ∈ t.head?, p.step c = q.step c) : p.run t = stopped ↔ q.run t = stopped := by
  cases t with
  | nil => exact hnil
  | cons c t => rw [run_cons, run_cons, hcons c rfl]

end HeadState

open HeadState

/-! ### Code that is passed -/

/-- In front of a text, code leads from one depth to another: up to any place of the text, reading
stops if it does behind the code. -/
def Passes (depth : Nat) (w : Text) (depth' : Nat) (t : Text) : Prop :=
  ∀ u, u <+: t → ((code depth).run (w ++ u) = stopped ↔ (code depth').run u = stopped)

theorem passes_char (h : stepCode depth c = code depth') (t : Text) :
    Passes depth [c] depth' t := by
  intro u _
  rw [List.singleton_append, run_cons, step, h]

theorem head?_of_prefix {u : Text} (hu : u <+: t) (hc : c ∈ u.head?) : t.head? = some c := by
  obtain ⟨r, rfl⟩ := hu
  rw [List.head?_append, Option.mem_def.1 hc, Option.some_or]

/-- A slash that begins no mark. -/
theorem passes_slash (hline : t.head? ≠ some '/') (hblock : t.head? ≠ some '*') :
    Passes depth ['/'] depth t := by
  intro u hu
  rw [List.singleton_append, run_cons, step, stepCode_slash]
  refine run_eq_stopped_congr (by simp) fun c hc => ?_
  have hc := head?_of_prefix hu hc
  have hne : c ≠ '/' ∧ c ≠ '*' := ⟨fun h => hline (h ▸ hc), fun h => hblock (h ▸ hc)⟩
  simp only [step, if_neg hne.1, if_neg hne.2]

/-- An equals sign that begins no arrow. -/
theorem passes_equals (h : t.head? ≠ some '>') : Passes 0 ['='] 0 t := by
  intro u hu
  rw [List.singleton_append, run_cons, step, stepCode_equals]
  refine run_eq_stopped_congr (by simp) fun c hc => ?_
  have hne : c ≠ '>' := fun hc' => h (hc' ▸ head?_of_prefix hu hc)
  simp only [step, if_neg hne]

theorem run_string (quote : Quote) (t : Text) {u : Text} (hu : u <+: (spanQuoted quote t).2) :
    (string quote depth).run ((spanQuoted quote t).1 ++ u) = stopped ↔
      (code depth).run u = stopped := by
  have hback : quote.1 ≠ '\\' := fun h => absurd (h ▸ quote.2) (by decide)
  fun_induction spanQuoted quote.1 t with
  | case1 =>
    obtain rfl := List.prefix_nil.1 hu
    simp
  | case2 =>
    obtain rfl := List.prefix_nil.1 hu
    simp [step]
  | case3 c t ih => simpa [step] using ih hu
  | case4 t => simp [step, hback]
  | case5 c t hlast hescape hc ih =>
    have hb : c ≠ '\\' := ne_backslash hlast hescape
    simpa [step, hb, hc] using ih hu

theorem passes_string (hc : isQuote c = true) (t : Text) :
    Passes depth (c :: (spanQuoted c t).1) depth (spanQuoted c t).2 := by
  intro u hu
  rw [List.cons_append, run_cons, step, stepCode, dif_pos hc]
  exact run_string ⟨c, hc⟩ t hu

theorem prefix_of_prefix_spanBlockComment {u : Text} (hu : u <+: (spanBlockComment t).2) :
    (spanBlockComment t).1 ++ u <+: t := by
  conv_rhs => rw [← append_spanBlockComment t]
  exact (List.prefix_append_right_inj _).2 hu

theorem run_comment (t : Text) {u : Text} (hu : u <+: (spanBlockComment t).2) :
    (comment depth).run ((spanBlockComment t).1 ++ u) = stopped ↔
      (code depth).run u = stopped := by
  fun_induction spanBlockComment t with
  | case1 =>
    obtain rfl := List.prefix_nil.1 hu
    simp
  | case2 t => simp [step]
  | case3 c t h ih =>
    -- behind a star the comment goes on, for no slash follows it
    rw [List.cons_append, run_cons, ← ih hu]
    refine run_eq_stopped_congr ?_ fun d hd => ?_
    · simp only [step]
      split_ifs <;> simp
    · have hslash : c = '*' → d ≠ '/' := by
        rintro rfl rfl
        have hd := head?_of_prefix (prefix_of_prefix_spanBlockComment hu) hd
        obtain ⟨r, rfl⟩ := List.head?_eq_some_iff.1 hd
        exact h r rfl rfl
      simp only [step]
      split_ifs <;> simp_all

theorem passes_comment (h : t.head? ≠ some '*') :
    Passes depth ('/' :: '*' :: (spanBlockComment t).1) depth (spanBlockComment t).2 := by
  intro u hu
  rw [← run_comment t hu, List.cons_append, List.cons_append, run_cons, run_cons, step,
    stepCode_slash, step, if_neg (by decide), if_pos rfl]
  refine run_eq_stopped_congr (by simp) fun c hc => ?_
  have hne : c ≠ '*' := fun hc' =>
    h (hc' ▸ head?_of_prefix (prefix_of_prefix_spanBlockComment hu) hc)
  simp only [step, if_neg hne]

/-! ### Heads -/

/-- Code divided where reading stops. -/
structure ScansAs (depth : Nat) (t : Text) (s : HeadSpan) : Prop where
  /-- The head does not stop. -/
  head_ne : (code depth).run s.head ≠ stopped
  /-- Code that does not stop is the head. -/
  eq_of_ne : (code depth).run t ≠ stopped → s = ⟨t, .other, []⟩

namespace ScansAs

theorem of_stopped (h : (code depth).run t = stopped) (stop : HeadStop) :
    ScansAs depth t ⟨[], stop, t⟩ :=
  ⟨by simp, fun hne => absurd h hne⟩

/-- A character that a head stops at. -/
theorem of_stepCode (h : stepCode depth c = stopped) (t : Text) (stop : HeadStop) :
    ScansAs depth (c :: t) ⟨[], stop, c :: t⟩ :=
  of_stopped (by rw [run_cons, step, h, run_stopped]) stop

theorem prepend {s : HeadSpan} (hw : Passes depth w depth' t) (hs : ScansAs depth' t s)
    (ht : s.head ++ s.rest = t) : ScansAs depth (w ++ t) (s.prepend w) where
  head_ne h := hs.head_ne ((hw s.head ⟨s.rest, ht⟩).1 h)
  eq_of_ne h := by
    rw [hs.eq_of_ne fun hstop => h ((hw t List.prefix_rfl).2 hstop)]
    rfl

end ScansAs

/-- Heads stop where reading stops. -/
theorem scansAs_spanHead (depth : Nat) (t : Text) : ScansAs depth t (spanHead depth t) := by
  fun_induction spanHead depth t with
  | case1 => exact ⟨by simp, fun _ => rfl⟩
  | case2 depth c t hq ih =>
    have h := ih.prepend (passes_string hq t) (append_spanHead _ _)
    rwa [List.cons_append, append_spanQuoted] at h
  | case3 depth c t hq h =>
    obtain ⟨rfl, h⟩ := h
    refine .of_stopped ?_ _
    rw [run_cons, step, stepCode_slash]
    rcases h with h | h
    · obtain ⟨t, rfl⟩ := List.head?_eq_some_iff.1 h
      simp [step]
    · obtain ⟨t, rfl⟩ := List.isPrefixOf_iff_prefix.1 h
      simp [step]
  | case4 depth c t hq hl h ih =>
    obtain ⟨rfl, h⟩ := h
    obtain ⟨t, rfl⟩ := List.head?_eq_some_iff.1 h
    have hdoc : t.head? ≠ some '*' := by
      intro hdoc
      obtain ⟨t, rfl⟩ := List.head?_eq_some_iff.1 hdoc
      simp [List.isPrefixOf] at hl
    have h := ih.prepend (passes_comment hdoc) (append_spanHead _ _)
    rwa [List.tail_cons, List.cons_append, List.cons_append, append_spanBlockComment] at h
  | case5 depth c t hq hl hb h ih =>
    refine ih.prepend (passes_char ?_ t) (append_spanHead _ _)
    rcases h with rfl | rfl <;> simp [stepCode, isQuote]
  | case6 c t hq hl hb ho h =>
    refine .of_stepCode ?_ t _
    rcases h with rfl | rfl <;> simp [stepCode, isQuote]
  | case7 depth c t hq hl hb ho h hd ih =>
    refine ih.prepend (passes_char ?_ t) (append_spanHead _ _)
    rcases h with rfl | rfl <;> simp [stepCode, isQuote, hd]
  | case8 depth c t hq hl hb ho hcl h =>
    obtain ⟨rfl, h⟩ := h
    refine .of_stepCode ?_ t _
    rcases h with rfl | rfl | rfl <;> simp [stepCode, isQuote]
  | case9 depth c t hq hl hb ho hcl hs h =>
    obtain ⟨rfl, rfl⟩ := h
    exact .of_stepCode (by simp [stepCode, isQuote]) t _
  | case10 depth c t hq hl hb ho hcl hs hbr h =>
    obtain ⟨rfl, rfl, h⟩ := h
    obtain ⟨t, rfl⟩ := List.head?_eq_some_iff.1 h
    exact .of_stopped (by simp [step, stepCode, isQuote]) _
  | case11 depth c t hq hl hb ho hcl hs hbr ha ih =>
    suffices hc : Passes depth [c] depth t from ih.prepend hc (append_spanHead _ _)
    by_cases hslash : c = '/'
    · subst hslash
      exact passes_slash (fun h => hl ⟨rfl, .inl h⟩) fun h => hb ⟨rfl, h⟩
    · by_cases hequals : depth = 0 ∧ c = '='
      · obtain ⟨rfl, rfl⟩ := hequals
        exact passes_equals fun h => ha ⟨rfl, rfl, h⟩
      · refine passes_char ?_ t
        have hstop : ¬(depth = 0 ∧ (c = ';' ∨ c = '}' ∨ c = ',' ∨ c = '{')) := by
          rintro ⟨hd, h | h | h | h⟩
          · exact hs ⟨hd, .inl h⟩
          · exact hs ⟨hd, .inr (.inl h)⟩
          · exact hs ⟨hd, .inr (.inr h)⟩
          · exact hbr ⟨hd, h⟩
        rw [stepCode, dif_neg hq, if_neg hslash, if_neg ho, if_neg hcl, if_neg hstop,
          if_neg hequals]

end DocDecl

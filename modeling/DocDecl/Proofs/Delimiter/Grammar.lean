import DocDecl.Proofs.Literal.Extent

/-!
# The grammar of groups

Which texts are groups, said without the scan: an opening bracket, a body, and the bracket that
closes it. A body is made up of groups, strings, comments and other characters. A line comment needs
the line feed behind it, so no bracket stands behind it in its line.

The scan keeps the brackets that are still to be closed. What it has gone over when it stops is a
body for each of them, with the bracket behind it; from this the two directions follow.

## Main definitions

* `IsQuoted` : what may stand between two quotes.
* `GroupBody`, `IsGroup` : bodies and groups.
* `Closes` : bodies and the brackets that close them, for all brackets that are open.

## Main results

* `closing?_eq_some_iff` : where the scan stops.
* `afterGroup?_eq_some_iff` : the group that a text begins with.
* `groupEnd?_spec` : the scan by offset finds exactly the groups.
-/

namespace DocDecl

open LiteralGrammar

variable {c k o q : Char} {ks : List Char} {g r s t x : Text}

/-! ### Strings and comments -/

/-- A text that may stand between two quotes: behind a backslash stands another character, and no
other character is the quote. -/
inductive IsQuoted (q : Char) : Text → Prop
  | nil : IsQuoted q []
  | escape (c : Char) {t : Text} (h : IsQuoted q t) : IsQuoted q ('\\' :: c :: t)
  | plain {c : Char} {t : Text} (hb : c ≠ '\\') (hc : c ≠ q) (h : IsQuoted q t) :
      IsQuoted q (c :: t)

/-- A backslash is the last character or takes the next one with it. -/
theorem ne_backslash (hlast : c = '\\' → t = [] → False)
    (hescape : ∀ d r, c = '\\' → t = d :: r → False) : c ≠ '\\' := by
  rintro rfl
  cases t with
  | nil => exact hlast rfl rfl
  | cons d r => exact hescape d r rfl rfl

theorem spanQuoted_plain (hb : c ≠ '\\') (hc : c ≠ q) (t : Text) :
    spanQuoted q (c :: t) = (c :: (spanQuoted q t).1, (spanQuoted q t).2) := by
  rw [spanQuoted, if_neg hc]
  · exact fun h => absurd h hb
  · exact fun _ _ h => absurd h hb

theorem spanQuoted_of_isQuoted (hq : isQuote q = true) (h : IsQuoted q s) (t : Text) :
    spanQuoted q (s ++ q :: t) = (s ++ [q], t) := by
  have hb : q ≠ '\\' := by
    rintro rfl
    exact absurd hq (by decide)
  induction h with
  | nil =>
    rw [List.nil_append, spanQuoted, if_pos rfl]
    · rfl
    · exact fun h => absurd h hb
    · exact fun _ _ h => absurd h hb
  | escape c _ ih => rw [List.cons_append, List.cons_append, spanQuoted, ih]; rfl
  | plain hb' hc _ ih => rw [List.cons_append, spanQuoted_plain hb' hc, ih]; rfl

/-- A string that something follows ends with its quote. -/
theorem exists_isQuoted (h : (spanQuoted q t).2 ≠ []) :
    ∃ s, IsQuoted q s ∧ t = s ++ q :: (spanQuoted q t).2 := by
  fun_induction spanQuoted q t with
  | case1 => exact absurd rfl h
  | case2 => exact absurd rfl h
  | case3 c t ih =>
    obtain ⟨s, hs, ht⟩ := ih h
    exact ⟨'\\' :: c :: s, .escape c hs, congrArg ('\\' :: c :: ·) ht⟩
  | case4 t => exact ⟨[], .nil, rfl⟩
  | case5 c t hlast hescape hc ih =>
    obtain ⟨s, hs, ht⟩ := ih h
    have hb : c ≠ '\\' := ne_backslash hlast hescape
    exact ⟨c :: s, .plain hb hc hs, congrArg (c :: ·) ht⟩

/-- A block comment that something follows ends with its first end mark. -/
theorem afterBlockComment?_eq_of_ne_nil (h : (spanBlockComment t).2 ≠ []) :
    afterBlockComment? t = some (spanBlockComment t).2 := by
  fun_induction spanBlockComment t with
  | case1 => exact absurd rfl h
  | case2 t => rfl
  | case3 c t hmark ih => rw [afterBlockComment?, ih h]; exact hmark

/-! ### Bodies and groups -/

/-- A text in front of which a slash opens no comment. -/
def NoComment (t : Text) : Prop := t.head? ≠ some '/' ∧ t.head? ≠ some '*'

/-- The body of a group: groups, strings up to their first unescaped quote, block comments up to
their first end mark, line comments up to their line feed, and characters that are no bracket and no
quote and begin no comment. -/
inductive GroupBody : Text → Prop
  | nil : GroupBody []
  | plain {c : Char} {t : Text} (hc : isMark c = false) (h : GroupBody t) : GroupBody (c :: t)
  | slash {t : Text} (ht : NoComment t) (h : GroupBody t) : GroupBody ('/' :: t)
  | quoted {q : Char} {s t : Text} (hq : isQuote q = true) (hs : IsQuoted q s)
      (h : GroupBody t) : GroupBody (q :: (s ++ q :: t))
  | block {s t : Text} (hs : ¬['*', '/'] <:+: s) (h : GroupBody t) :
      GroupBody ('/' :: '*' :: (s ++ '*' :: '/' :: t))
  | line {s t : Text} (hs : '\n' ∉ s) (h : GroupBody ('\n' :: t)) :
      GroupBody ('/' :: '/' :: (s ++ '\n' :: t))
  | group {o k : Char} {s t : Text} (hk : closer? o = some k) (hs : GroupBody s)
      (h : GroupBody t) : GroupBody (o :: (s ++ k :: t))

/-- An opening bracket, a body, and the bracket that closes it. -/
inductive IsGroup : Text → Prop
  | intro {o k : Char} {s : Text} (hk : closer? o = some k) (hs : GroupBody s) :
      IsGroup (o :: (s ++ [k]))

/-- Bodies for all brackets that are to be closed, the innermost first, each with its bracket behind
it. -/
inductive Closes : List Char → Text → Prop
  | nil : Closes [] []
  | cons {k : Char} {ks : List Char} {s t : Text} (hs : GroupBody s) (h : Closes ks t) :
      Closes (k :: ks) (s ++ k :: t)

theorem closes_cons_iff :
    Closes (k :: ks) g ↔ ∃ s t, GroupBody s ∧ Closes ks t ∧ g = s ++ k :: t := by
  constructor
  · rintro (_ | ⟨hs, h⟩)
    exact ⟨_, _, hs, h, rfl⟩
  · rintro ⟨s, t, hs, h, rfl⟩
    exact .cons hs h

theorem closes_singleton_iff : Closes [k] g ↔ ∃ s, GroupBody s ∧ g = s ++ [k] := by
  rw [closes_cons_iff]
  constructor
  · rintro ⟨s, t, hs, ⟨⟩, rfl⟩
    exact ⟨s, hs, rfl⟩
  · rintro ⟨s, hs, rfl⟩
    exact ⟨s, [], hs, .nil, rfl⟩

/-! ### What the scan goes over -/

theorem isCloser_of_closer? (h : closer? o = some k) : isCloser k = true := by
  rw [closer?.eq_def] at h
  split at h
  all_goals cases h
  all_goals rfl

theorem noComment_of_isCloser (h : isCloser k = true) (t : Text) : NoComment (k :: t) := by
  simp only [isCloser, Bool.or_eq_true, beq_iff_eq] at h
  rcases h with (rfl | rfl) | rfl
  all_goals exact ⟨by simp, by simp⟩

theorem closing?_slash (ht : NoComment t) (ks : List Char) :
    closing? (k :: ks) ('/' :: t) = closing? (k :: ks) t := by
  rw [closing?, if_neg (by decide), if_neg fun h => ht.2 h.2, if_neg fun h => ht.1 h.2]
  rfl

/-- The scan goes over a body with the brackets it has. -/
theorem closing?_groupBody (h : GroupBody t) (hx : NoComment x) (ks : List Char) :
    closing? (k :: ks) (t ++ x) = closing? (k :: ks) x := by
  induction h generalizing k ks x with
  | nil => rfl
  | plain hc _ ih => rw [List.cons_append, closing?_plain hc, ih hx]
  | @slash u hu _ ih =>
    have hhead : NoComment (u ++ x) := by
      cases u with
      | nil => exact hx
      | cons d u => exact hu
    rw [List.cons_append, closing?_slash hhead, ih hx]
  | quoted hq hs _ ih =>
    rw [List.cons_append, List.append_assoc, List.cons_append, closing?, if_pos hq,
      spanQuoted_of_isQuoted hq hs, ih hx]
  | @block s u hs _ ih =>
    have hskip : (spanBlockComment (s ++ '*' :: '/' :: (u ++ x))).2 = u ++ x :=
      spanBlockComment_of_afterBlockComment? (afterBlockComment?_append hs (u ++ x))
    rw [List.cons_append, List.cons_append, List.append_assoc, closing?, if_neg (by decide),
      if_pos ⟨rfl, rfl⟩, List.tail_cons, List.cons_append, List.cons_append, hskip, ih hx]
  | @line s u hs _ ih =>
    have hspan : spanLineComment (s ++ '\n' :: (u ++ x)) = (s, '\n' :: (u ++ x)) :=
      spanLineComment_append hs (.inr rfl)
    rw [List.cons_append, List.cons_append, List.append_assoc, closing?, if_neg (by decide),
      if_neg (by simp), if_pos ⟨rfl, rfl⟩, List.tail_cons, List.cons_append, hspan]
    exact ih hx ks
  | group hk _ _ ihs ih =>
    have hclose := isCloser_of_closer? hk
    rw [List.cons_append, List.append_assoc, List.cons_append, closing?_open hk,
      ihs (noComment_of_isCloser hclose _), closing?_close hclose, ih hx]

/-! ### Where the scan stops -/

/-- What stands in front of the next bracket joins its body. -/
theorem Closes.prepend {w : Text} (h : Closes (k :: ks) g)
    (hw : ∀ s t, g = s ++ k :: t → GroupBody s → GroupBody (w ++ s)) :
    Closes (k :: ks) (w ++ g) := by
  obtain ⟨s, t, hs, ht, rfl⟩ := closes_cons_iff.1 h
  exact closes_cons_iff.2 ⟨w ++ s, t, hw s t rfl hs, ht, (List.append_assoc w s (k :: t)).symm⟩

theorem Closes.ne_nil (h : Closes (k :: ks) g) : g ≠ [] := by
  obtain ⟨s, t, -, -, rfl⟩ := closes_cons_iff.1 h
  simp

/-- What the scan has gone over where it stops. -/
theorem exists_closes (hks : ∀ k ∈ ks, isCloser k = true) (h : closing? ks t = some r) :
    ∃ g, Closes ks g ∧ t = g ++ r := by
  fun_induction closing? ks t with
  | case1 t => exact ⟨[], .nil, Option.some.inj h⟩
  | case2 => simp at h
  | case3 k ks c t hq ih =>
    obtain ⟨g, hg, ht⟩ := ih hks h
    obtain ⟨s, hs, hspan⟩ := exists_isQuoted (q := c) (t := t) (by simp [ht, hg.ne_nil])
    refine ⟨(c :: (s ++ [c])) ++ g, hg.prepend fun u v _ hu => ?_, ?_⟩
    · have hquoted := GroupBody.quoted hq hs hu
      simpa using hquoted
    · rw [hspan, ht]
      simp
  | case4 k ks c t hq hc ih =>
    obtain ⟨g, hg, ht⟩ := ih hks h
    obtain ⟨rfl, hhead⟩ := hc
    obtain ⟨t, rfl⟩ := List.head?_eq_some_iff.1 hhead
    rw [List.tail_cons] at ht
    obtain ⟨s, hspan, hs⟩ := exists_of_afterBlockComment?
      (afterBlockComment?_eq_of_ne_nil (t := t) (by simp [ht, hg.ne_nil]))
    refine ⟨('/' :: '*' :: (s ++ ['*', '/'])) ++ g, hg.prepend fun u v _ hu => ?_, ?_⟩
    · have hblock := GroupBody.block hs hu
      simpa using hblock
    · rw [hspan, ht]
      simp
  | case5 k ks c t hq hb hc ih =>
    obtain ⟨g, hg, ht⟩ := ih hks h
    obtain ⟨rfl, hhead⟩ := hc
    obtain ⟨t, rfl⟩ := List.head?_eq_some_iff.1 hhead
    rw [List.tail_cons] at ht
    have hfeed : g.head? = some '\n' := by
      have hstops := spanLineComment_stops t
      rwa [ht, List.append_eq_nil_iff, or_iff_right fun h => hg.ne_nil h.1,
        List.head?_append_of_ne_nil g hg.ne_nil] at hstops
    refine ⟨('/' :: '/' :: (spanLineComment t).1) ++ g, hg.prepend fun u v hgu hu => ?_, ?_⟩
    · -- the line feed is no closing bracket, so it belongs to the body
      cases u with
      | nil =>
        rw [hgu, List.nil_append, List.head?_cons, Option.some.injEq] at hfeed
        exact absurd (hks k List.mem_cons_self) (by rw [hfeed]; decide)
      | cons d u =>
        rw [hgu, List.cons_append, List.head?_cons, Option.some.injEq] at hfeed
        subst hfeed
        exact .line (notMem_spanLineComment t) hu
    · rw [List.append_assoc, ← ht, List.cons_append, List.cons_append, append_spanLineComment]
  | case6 k ks c t _ _ _ k' hk ih =>
    have hclose := isCloser_of_closer? hk
    obtain ⟨g, hg, rfl⟩ := ih (List.forall_mem_cons.2 ⟨hclose, hks⟩) h
    obtain ⟨s, u, hs, hu, rfl⟩ := closes_cons_iff.1 hg
    refine ⟨(c :: (s ++ [k'])) ++ u, hu.prepend fun v _ _ hv => ?_, by simp⟩
    have hgroup := GroupBody.group hk hs hv
    simpa using hgroup
  | case7 ks c t hq hb hl hk hc ih =>
    obtain ⟨g, hg, rfl⟩ := ih (List.forall_mem_cons.1 hks).2 h
    exact ⟨c :: g, .cons .nil hg, rfl⟩
  | case8 => simp at h
  | case9 k ks c t hq hb hl hk hc ih =>
    obtain ⟨g, hg, rfl⟩ := ih hks h
    refine ⟨[c] ++ g, hg.prepend fun u v hgu hu => ?_, rfl⟩
    by_cases hslash : c = '/'
    · subst hslash
      refine .slash ?_ hu
      rw [List.head?_append_of_ne_nil g hg.ne_nil] at hb hl
      cases u with
      | nil => exact ⟨by simp, by simp⟩
      | cons d u =>
        rw [hgu] at hb hl
        exact ⟨fun h => hl ⟨rfl, h⟩, fun h => hb ⟨rfl, h⟩⟩
    · refine .plain ?_ hu
      simp [isMark, hq, hslash, hk, hc]

/-- The scan stops behind a body for each bracket that is to be closed. -/
theorem closing?_eq_some_iff (hks : ∀ k ∈ ks, isCloser k = true) :
    closing? ks t = some r ↔ ∃ g, Closes ks g ∧ t = g ++ r := by
  refine ⟨exists_closes hks, ?_⟩
  rintro ⟨g, hg, rfl⟩
  induction hg with
  | nil => rw [List.nil_append, closing?]
  | @cons k ks s u hs _ ih =>
    obtain ⟨hk, hks⟩ := List.forall_mem_cons.1 hks
    rw [List.append_assoc, List.cons_append,
      closing?_groupBody hs (noComment_of_isCloser hk _), closing?_close hk, ih hks]

/-! ### The group that a text begins with -/

theorem afterGroup?_eq_some_iff : afterGroup? t = some r ↔ ∃ g, IsGroup g ∧ t = g ++ r := by
  have hstack {o k : Char} (hk : closer? o = some k) : ∀ k' ∈ [k], isCloser k' = true := by
    simpa using isCloser_of_closer? hk
  constructor
  · intro h
    cases t with
    | nil => simp [afterGroup?] at h
    | cons o t =>
      obtain ⟨k, hk, h⟩ := Option.bind_eq_some_iff.1 h
      obtain ⟨g, hg, rfl⟩ := (closing?_eq_some_iff (hstack hk)).1 h
      obtain ⟨s, hs, rfl⟩ := closes_singleton_iff.1 hg
      exact ⟨_, .intro hk hs, rfl⟩
  · rintro ⟨g, ⟨hk, hs⟩, rfl⟩
    rw [List.cons_append, afterGroup?, hk, Option.bind_some]
    exact (closing?_eq_some_iff (hstack hk)).2 ⟨_, closes_singleton_iff.2 ⟨_, hs, rfl⟩, rfl⟩

theorem IsGroup.ne_nil (h : IsGroup g) : g ≠ [] := by
  obtain ⟨-, -⟩ := h
  exact List.cons_ne_nil _ _

/-- A group ends where it ends, with any text in front of it and behind it. -/
theorem groupEnd?_append (hg : IsGroup g) (p s : Text) :
    groupEnd? (p ++ (g ++ s)) p.length = some (p.length + g.length) := by
  rw [groupEnd?, List.drop_left, afterGroup?_eq_some_iff.2 ⟨g, hg, rfl⟩, Option.map_some]
  congr 1
  simp only [List.length_append]
  omega

theorem groupEnd?_eq_some_iff {start e : Nat} :
    groupEnd? t start = some e ↔ e ≤ t.length ∧ IsGroup ((t.take e).drop start) := by
  constructor
  · intro h
    obtain ⟨r, hr, rfl⟩ := Option.map_eq_some_iff.1 h
    obtain ⟨g, hg, ht⟩ := afterGroup?_eq_some_iff.1 hr
    have hpos := List.length_pos_iff.2 hg.ne_nil
    have hlen := congrArg List.length ht
    simp only [List.length_drop, List.length_append] at hlen
    have hsize : t.length - r.length - start = g.length := by omega
    refine ⟨Nat.sub_le _ _, ?_⟩
    rwa [List.drop_take, hsize, ht, List.take_left]
  · rintro ⟨he, hg⟩
    have hstart : start < e := by
      by_contra hle
      refine hg.ne_nil (List.drop_eq_nil_of_le ?_)
      rw [List.length_take]
      omega
    have hsize : ((t.take e).drop start).length = e - start := by
      rw [List.length_drop, List.length_take, Nat.min_eq_left he]
    -- the text is what stands in front of the group, the group, and what stands behind it
    have hcut : t = t.take start ++ ((t.take e).drop start ++ t.drop e) := by
      have htake : (t.take e).take start = t.take start := by
        rw [List.take_take, Nat.min_eq_left (Nat.le_of_lt hstart)]
      rw [← List.append_assoc, ← htake, List.take_append_drop, List.take_append_drop]
    have hfront : (t.take start).length = start := by
      rw [List.length_take]
      omega
    have hend := groupEnd?_append hg (t.take start) (t.drop e)
    rwa [← hcut, hfront, hsize, Nat.add_sub_cancel' (Nat.le_of_lt hstart)] at hend

/-- The scan by offset finds exactly the groups: an offset is found if and only if the text from the
start up to it is a group, and none is found where there is no such offset. What stands in front of
a group and behind it does not matter. -/
theorem groupEnd?_spec (t : Text) (start : Nat) :
    (∀ e, groupEnd? t start = some e ↔ e ≤ t.length ∧ IsGroup ((t.take e).drop start)) ∧
      (groupEnd? t start = none ↔ ∀ e ≤ t.length, ¬IsGroup ((t.take e).drop start)) ∧
      ∀ e, groupEnd? t start = some e → ∀ p s,
        groupEnd? (p ++ ((t.take e).drop start ++ s)) p.length = some (p.length + (e - start)) := by
  refine ⟨fun e => groupEnd?_eq_some_iff, ?_, fun e he p s => ?_⟩
  · rw [Option.eq_none_iff_forall_ne_some]
    refine forall_congr' fun e => ?_
    rw [ne_eq, groupEnd?_eq_some_iff, not_and]
  · obtain ⟨hle, hg⟩ := groupEnd?_eq_some_iff.1 he
    rw [groupEnd?_append hg, List.length_drop, List.length_take, Nat.min_eq_left hle]

/-- Brackets in a string and in both kinds of comments do not count, and a group ends where it ends
also when it stands in front of the bracket that would close it. -/
theorem groupEnd?_spec_of_comments :
    groupEnd? "f(')' /*)*/ //)\n[x]) + 1" 1 = some 20 ∧
      groupEnd? "((')' /*)*/ //)\n[x]))" 1 = some 20 := by
  have h := (groupEnd?_spec "f(')' /*)*/ //)\n[x]) + 1" 1).2.2 20 (by decide +kernel)
  exact ⟨by decide +kernel, h "(" ")"⟩

end DocDecl

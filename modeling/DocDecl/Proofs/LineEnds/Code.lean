import DocDecl.Proofs.Delimiter.Group
import DocDecl.Proofs.Head.PropertyAssignment
import DocDecl.Proofs.LineEnds.Text

/-!
# Code and line ends

Strings, comments, brackets and heads end at the same places where the lines of code end with
carriage returns. Only a line comment takes the carriage return of its line with it. The head of a
definition is put on one line, so it is the same text; the literal behind it keeps its lines.

## Main results

* `closing?_dosLines`, `group?_dosLines` : brackets.
* `spanHead_dosLines` : the end of a head.
* `Head.read_dosLines` : the head of a definition.
-/

namespace DocDecl

open Text

variable {t : Text} {q : Char}

theorem isBreak_of_isQuote (h : isQuote q = true) : q ≠ '\r' ∧ q ≠ '\n' := by
  constructor <;>
    · rintro rfl
      exact absurd h (by decide)

/-! ### Strings and comments -/

theorem spanQuoted_dosLines (hq : isQuote q = true) (t : Text) :
    spanQuoted q (dosLines t) = Prod.map dosLines dosLines (spanQuoted q t) := by
  have hbreak := isBreak_of_isQuote hq
  have hback : q ≠ '\\' := by
    rintro rfl
    exact absurd hq (by decide)
  fun_induction spanQuoted q t with
  | case1 => rfl
  | case2 => rfl
  | case3 c t ih =>
    rw [dosLines_cons (by decide)]
    by_cases hc : c = '\n'
    · -- the backslash takes the carriage return, and the line feed stands for itself
      subst hc
      rw [dosLines_feed, spanQuoted, spanQuoted_plain (by decide) hbreak.2.symm, ih]
      rfl
    · rw [dosLines_cons hc, spanQuoted, ih]
      simp [dosLines_cons, hc]
  | case4 t =>
    rw [dosLines_cons hbreak.2, spanQuoted, if_pos rfl]
    · simp [dosLines_cons hbreak.2]
    · exact fun h => absurd h hback
    · exact fun _ _ h => absurd h hback
  | case5 c t hlast hescape hc ih =>
    have hb : c ≠ '\\' := ne_backslash hlast hescape
    by_cases hn : c = '\n'
    · subst hn
      rw [dosLines_feed, spanQuoted_plain (by decide) hbreak.1.symm,
        spanQuoted_plain (by decide) hbreak.2.symm, ih]
      rfl
    · rw [dosLines_cons hn, spanQuoted_plain hb hc, ih]
      simp [dosLines_cons hn]

theorem spanBlockComment_plain {c : Char} (h : c = '*' → t.head? ≠ some '/') :
    spanBlockComment (c :: t) = (c :: (spanBlockComment t).1, (spanBlockComment t).2) := by
  rw [spanBlockComment]
  rintro r rfl rfl
  exact h rfl rfl

theorem spanBlockComment_dosLines (t : Text) :
    spanBlockComment (dosLines t) = Prod.map dosLines dosLines (spanBlockComment t) := by
  fun_induction spanBlockComment t with
  | case1 => rfl
  | case2 t =>
    rw [dosLines_cons (by decide), dosLines_cons (by decide)]
    rfl
  | case3 c t h ih =>
    by_cases hn : c = '\n'
    · subst hn
      rw [dosLines_feed, spanBlockComment_plain (by simp), spanBlockComment_plain (by simp), ih]
      rfl
    · rw [dosLines_cons hn, spanBlockComment_plain, ih]
      · simp [dosLines_cons hn]
      · rintro rfl hs
        obtain ⟨r, rfl⟩ := List.head?_eq_some_iff.1 ((head?_dosLines_eq_some_iff (by decide)).1 hs)
        exact h r rfl rfl

/-- A line comment ends in front of the line feed, behind the carriage return. -/
theorem spanLineComment_dosLines (t : Text) :
    (spanLineComment t).2 = [] ∧ (spanLineComment (dosLines t)).2 = [] ∨
      ∃ r, (spanLineComment t).2 = '\n' :: r ∧
        (spanLineComment (dosLines t)).2 = '\n' :: dosLines r := by
  induction t using Text.feed_induction with
  | nil => exact .inl ⟨rfl, rfl⟩
  | feed t => exact .inr ⟨t, rfl, rfl⟩
  | cons c t hc ih => rwa [dosLines_cons hc, spanLineComment, spanLineComment, if_neg hc, if_neg hc]

/-! ### Brackets -/

theorem tail_dosLines {c : Char} (hc : isBreak c = false) (h : t.head? = some c) :
    (dosLines t).tail = dosLines t.tail := by
  obtain ⟨r, rfl⟩ := List.head?_eq_some_iff.1 h
  simp [dosLines_cons (isBreak_eq_false.1 hc).2]

open LiteralGrammar in
theorem closing?_dosLines (ks : List Char) (t : Text) :
    closing? ks (dosLines t) = (closing? ks t).map dosLines := by
  have hhead {c : Char} (hc : isBreak c = false) (t : Text) :
      (dosLines t).head? = some c ↔ t.head? = some c := head?_dosLines_eq_some_iff hc
  have hstar := hhead (c := '*') (by decide)
  have hslash := hhead (c := '/') (by decide)
  have hfeed (k : Char) (ks : List Char) (r : Text) :
      closing? (k :: ks) ('\n' :: r) = closing? (k :: ks) r := closing?_plain (by decide) r
  fun_induction closing? ks t with
  | case1 t => rw [closing?, Option.map_some]
  | case2 => simp [closing?]
  | case3 k ks c t hq ih =>
    rw [dosLines_cons (isBreak_of_isQuote hq).2, closing?, if_pos hq, spanQuoted_dosLines hq]
    exact ih
  | case4 k ks c t hq hc ih =>
    have hn : c ≠ '\n' := by rw [hc.1]; decide
    rw [dosLines_cons hn, closing?, if_neg hq, if_pos (hc.imp_right (hstar t).2),
      tail_dosLines (by decide) hc.2, spanBlockComment_dosLines]
    exact ih
  | case5 k ks c t hq hb hc ih =>
    have hn : c ≠ '\n' := by rw [hc.1]; decide
    rw [dosLines_cons hn, closing?, if_neg hq, if_neg (mt (And.imp_right (hstar t).1) hb),
      if_pos (hc.imp_right (hslash t).2), tail_dosLines (by decide) hc.2]
    rcases spanLineComment_dosLines t.tail with ⟨h, hdos⟩ | ⟨r, h, hdos⟩
    · rw [hdos, h]
      simp [closing?]
    · rw [h, dosLines_feed, closing?_plain (by decide)] at ih
      rw [hdos, h, ih]
  | case6 k ks c t hq hb hl k' hk ih =>
    have hn : c ≠ '\n' := by
      rintro rfl
      simp [closer?] at hk
    rw [dosLines_cons hn, closing?, if_neg hq, if_neg (mt (And.imp_right (hstar t).1) hb),
      if_neg (mt (And.imp_right (hslash t).1) hl)]
    simp only [hk, ih]
  | case7 ks c t hq hb hl hk hc ih =>
    have hn : c ≠ '\n' := by
      rintro rfl
      simp [isCloser] at hc
    rw [dosLines_cons hn, closing?, if_neg hq, if_neg (mt (And.imp_right (hstar t).1) hb),
      if_neg (mt (And.imp_right (hslash t).1) hl)]
    simp only [hk, hc, if_true, ih]
  | case8 k ks c t hq hb hl hk hc hne =>
    have hn : c ≠ '\n' := by
      rintro rfl
      simp [isCloser] at hc
    rw [dosLines_cons hn, closing?, if_neg hq, if_neg (mt (And.imp_right (hstar t).1) hb),
      if_neg (mt (And.imp_right (hslash t).1) hl)]
    simp only [hk, hc, hne, if_true, if_false, Option.map_none]
  | case9 k ks c t hq hb hl hk hc ih =>
    by_cases hn : c = '\n'
    · rw [hn, dosLines_feed, closing?_plain (by decide), hfeed, ih]
    · rw [dosLines_cons hn, closing?, if_neg hq, if_neg (mt (And.imp_right (hstar t).1) hb),
        if_neg (mt (And.imp_right (hslash t).1) hl)]
      simp only [hk, hc, if_false, ih, Bool.false_eq_true]

theorem afterGroup?_dosLines (t : Text) :
    afterGroup? (dosLines t) = (afterGroup? t).map dosLines := by
  induction t using Text.feed_induction with
  | nil => rfl
  | feed t => rfl
  | cons c t hc =>
    rw [dosLines_cons hc, afterGroup?, afterGroup?]
    cases closer? c with
    | none => rfl
    | some k => exact closing?_dosLines [k] t

theorem group?_dosLines (t : Text) :
    group? (dosLines t) = (group? t).map (Prod.map dosLines dosLines) := by
  cases h : group? t with
  | none =>
    rw [group?, Option.map_eq_none_iff] at h
    rw [group?, afterGroup?_dosLines, h]
    rfl
  | some p =>
    obtain ⟨g, r⟩ := p
    obtain ⟨hr, rfl⟩ := group?_eq_some_iff.1 h
    refine group?_eq_some_iff.2 ⟨?_, dosLines_append g r⟩
    rw [afterGroup?_dosLines, hr]
    rfl

/-! ### Heads -/

/-- The parts of a divided code, with carriage returns. -/
def HeadSpan.dosLines (s : HeadSpan) : HeadSpan :=
  ⟨DocDecl.dosLines s.head, s.stop, DocDecl.dosLines s.rest⟩

theorem HeadSpan.dosLines_prepend (t : Text) (s : HeadSpan) :
    (s.prepend t).dosLines = s.dosLines.prepend (DocDecl.dosLines t) := by
  simp [HeadSpan.prepend, HeadSpan.dosLines]

theorem spanHead_feed (depth : Nat) (t : Text) :
    spanHead depth ('\n' :: t) = (spanHead depth t).prepend ['\n'] := by
  rw [spanHead]
  simp [isQuote]

theorem spanHead_return (depth : Nat) (t : Text) :
    spanHead depth ('\r' :: t) = (spanHead depth t).prepend ['\r'] := by
  rw [spanHead]
  simp [isQuote]

theorem spanHead_dosLines (depth : Nat) (t : Text) :
    spanHead depth (dosLines t) = (spanHead depth t).dosLines := by
  have hstar (t : Text) : (dosLines t).head? = some '*' ↔ t.head? = some '*' :=
    head?_dosLines_eq_some_iff (by decide)
  have harrow (t : Text) : (dosLines t).head? = some '>' ↔ t.head? = some '>' :=
    head?_dosLines_eq_some_iff (by decide)
  have hcomment (t : Text) :
      ((dosLines t).head? = some '/' ∨ ("**" : Text).isPrefixOf (dosLines t)) ↔
        (t.head? = some '/' ∨ ("**" : Text).isPrefixOf t) := by
    rw [head?_dosLines_eq_some_iff (by decide), isPrefixOf_dosLines (by simp [isBreak])]
  have hrest {c : Char} {t : Text} (hn : c ≠ '\n') (stop : HeadStop) :
      (⟨[], stop, c :: dosLines t⟩ : HeadSpan) = HeadSpan.dosLines ⟨[], stop, c :: t⟩ := by
    rw [HeadSpan.dosLines, dosLines_cons hn]
    rfl
  have hsign {c : Char} {t : Text} (hl : ¬(c = '/' ∧ (t.head? = some '/' ∨
      ("**" : Text).isPrefixOf t))) (hb : ¬(c = '/' ∧ t.head? = some '*')) :
      ¬(c = '/' ∧ ((dosLines t).head? = some '/' ∨ ("**" : Text).isPrefixOf (dosLines t))) ∧
        ¬(c = '/' ∧ (dosLines t).head? = some '*') :=
    ⟨mt (And.imp_right (hcomment t).1) hl, mt (And.imp_right (hstar t).1) hb⟩
  fun_induction spanHead depth t with
  | case1 => simp [spanHead, HeadSpan.dosLines]
  | case2 depth c t hq ih =>
    have hn := (isBreak_of_isQuote hq).2
    rw [dosLines_cons hn, spanHead, if_pos hq, spanQuoted_dosLines hq, HeadSpan.dosLines_prepend,
      dosLines_cons hn, ← ih]
    rfl
  | case3 depth c t hq hc =>
    have hn : c ≠ '\n' := by rw [hc.1]; decide
    rw [dosLines_cons hn, spanHead, if_neg hq, if_pos (hc.imp_right (hcomment t).2), hrest hn]
  | case4 depth c t hq hl hc ih =>
    have hn : c ≠ '\n' := by rw [hc.1]; decide
    rw [dosLines_cons hn, spanHead, if_neg hq, if_neg (mt (And.imp_right (hcomment t).1) hl),
      if_pos (hc.imp_right (hstar t).2), tail_dosLines (by decide) hc.2,
      spanBlockComment_dosLines, HeadSpan.dosLines_prepend, dosLines_cons hn,
      dosLines_cons (by decide), ← ih]
    rfl
  | case5 depth c t hq hl hb hc ih =>
    have hn : c ≠ '\n' := by rintro rfl; simp at hc
    obtain ⟨hl, hb⟩ := hsign hl hb
    rw [dosLines_cons hn, spanHead, if_neg hq, if_neg hl, if_neg hb, if_pos hc,
      HeadSpan.dosLines_prepend, dosLines_cons hn, ih, dosLines_nil]
  | case6 c t hq hl hb ho hc =>
    have hn : c ≠ '\n' := by rintro rfl; simp at hc
    obtain ⟨hl, hb⟩ := hsign hl hb
    rw [dosLines_cons hn, spanHead, if_neg hq, if_neg hl, if_neg hb, if_neg ho, if_pos hc,
      if_pos rfl, hrest hn]
  | case7 depth c t hq hl hb ho hc hd ih =>
    have hn : c ≠ '\n' := by rintro rfl; simp at hc
    obtain ⟨hl, hb⟩ := hsign hl hb
    rw [dosLines_cons hn, spanHead, if_neg hq, if_neg hl, if_neg hb, if_neg ho, if_pos hc,
      if_neg hd, HeadSpan.dosLines_prepend, dosLines_cons hn, ih, dosLines_nil]
  | case8 depth c t hq hl hb ho hcl hc =>
    have hn : c ≠ '\n' := by rintro rfl; simp at hc
    obtain ⟨hl, hb⟩ := hsign hl hb
    rw [dosLines_cons hn, spanHead, if_neg hq, if_neg hl, if_neg hb, if_neg ho, if_neg hcl,
      if_pos hc, hrest hn]
  | case9 depth c t hq hl hb ho hcl hs hc =>
    have hn : c ≠ '\n' := by rintro rfl; simp at hc
    obtain ⟨hl, hb⟩ := hsign hl hb
    rw [dosLines_cons hn, spanHead, if_neg hq, if_neg hl, if_neg hb, if_neg ho, if_neg hcl,
      if_neg hs, if_pos hc, hrest hn]
  | case10 depth c t hq hl hb ho hcl hs hbr hc =>
    have hn : c ≠ '\n' := by rintro rfl; simp at hc
    obtain ⟨hl, hb⟩ := hsign hl hb
    rw [dosLines_cons hn, spanHead, if_neg hq, if_neg hl, if_neg hb, if_neg ho, if_neg hcl,
      if_neg hs, if_neg hbr, if_pos (hc.imp_right (And.imp_right (harrow t).2)), hrest hn]
  | case11 depth c t hq hl hb ho hcl hs hbr ha ih =>
    rw [HeadSpan.dosLines_prepend, ← ih]
    by_cases hn : c = '\n'
    · subst hn
      rw [dosLines_feed, spanHead_return, spanHead_feed]
      rfl
    · obtain ⟨hl, hb⟩ := hsign hl hb
      rw [dosLines_cons hn, spanHead, if_neg hq, if_neg hl, if_neg hb, if_neg ho, if_neg hcl,
        if_neg hs, if_neg hbr, if_neg (mt (And.imp_right (And.imp_right (harrow t).1)) ha),
        dosLines_cons hn, dosLines_nil]

theorem getLast?_dosLines (t : Text) : (dosLines t).getLast? = t.getLast? := by
  induction t using Text.feed_induction with
  | nil => rfl
  | feed t ih =>
    rw [dosLines_feed, List.getLast?_cons_cons, List.getLast?_cons, ih, List.getLast?_cons]
  | cons c t hc ih => rw [dosLines_cons hc, List.getLast?_cons, ih, List.getLast?_cons]

namespace Head

theorem collapseBlanks_dosLines (t : Text) : collapseBlanks (dosLines t) = collapseBlanks t := by
  rw [collapseBlanks, words_dosLines, collapseBlanks]

theorem literalOf_dosLines (s : HeadSpan) (head : Text) :
    literalOf s.dosLines (DocDecl.dosLines head) = DocDecl.dosLines (literalOf s head) := by
  simp only [literalOf, HeadSpan.dosLines, getLast?_dosLines, group?_dosLines]
  split_ifs
  · cases group? s.rest <;> rfl
  · rfl

/-- The head of a definition is on one line; the literal behind it keeps its lines. -/
theorem scan_dosLines (code : Text) :
    scan (DocDecl.dosLines code) =
      ⟨(scan code).text, (scan code).isFunction, DocDecl.dosLines (scan code).literal⟩ := by
  simp only [scan, spanHead_dosLines, HeadSpan.dosLines, trim_dosLines, collapseBlanks_dosLines]
  rw [← literalOf_dosLines]
  rfl

/-- The head that code begins with, on one line, and the literal behind it with its lines. -/
theorem read_dosLines (code : Text) :
    read (DocDecl.dosLines code) =
      ⟨(read code).text, (read code).isFunction, DocDecl.dosLines (read code).literal⟩ := by
  rw [read_eq_scan, read_eq_scan, scan_dosLines]

end Head

end DocDecl

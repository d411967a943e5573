import DocDecl.Delimiter.Split
import DocDecl.Layout.Blocks
import DocDecl.Layout.NormalForm
import DocDecl.Proofs.Text.Lines
import DocDecl.Proofs.Text.Replacing
import DocDecl.Proofs.Text.Trim
import Mathlib.Data.List.Chain

/-!
# What the normal form keeps

Bringing a text into its normal form changes blanks at the ends of lines and empty lines, and
nothing else. A line is set off when an empty line stands in front of it; the lines that are not
empty, each with whether it is set off, are the same before and after. A text in normal form is told
by its lines alone, and these are the texts that stay.

## Main definitions

* `anyLines` : the lines of a text with line ends of every kind.
* `spacedLines` : the lines that are not empty, each with whether it is set off.
* `IsNormalForm` : the texts in normal form.

## Main results

* `lines_unixLines` : line ends of every kind.
* `spacedLines_foldEmptyLines` : which lines are set off stays.
* `normalForm_eq_self_iff` : the texts in normal form are those that stay.
* `normalizes_normalForm` : the normal form of a text has its lines.
-/

namespace DocDecl

open Text

variable {b : Bool} {c : Char} {l s t : Text} {ls : List Text}

/-! ### Line ends of every kind -/

theorem unixLines_returnFeed (t : Text) : unixLines ('\r' :: '\n' :: t) = '\n' :: unixLines t :=
  (congrArg (replace "\r" "\n") (replace_pair '\r' '\n' "\n" t)).trans
    (replace_singleton_cons_of_ne (by decide) "\n" _)

/-- A carriage return alone is a line end too. -/
theorem unixLines_cons (h : ¬(c = '\r' ∧ t.head? = some '\n')) :
    unixLines (c :: t) = (if c = '\r' then '\n' else c) :: unixLines t := by
  have hpair : replace "\r\n" "\n" (c :: t) = c :: replace "\r\n" "\n" t := replace_pair_cons h "\n"
  rw [unixLines, hpair]
  split_ifs with hc
  · subst hc
    exact replace_singleton_cons_self _ _ _
  · exact replace_singleton_cons_of_ne hc _ _

theorem return_notMem_unixLines (t : Text) : '\r' ∉ unixLines t := by
  intro h
  rw [unixLines] at h
  change '\r' ∈ replace ['\r'] "\n" _ at h
  rw [replace_singleton, List.mem_flatMap] at h
  obtain ⟨d, -, hd⟩ := h
  split_ifs at hd with hc
  · simp at hd
  · exact hc (List.mem_singleton.1 hd).symm

theorem unixLines_of_notMem (h : '\r' ∉ t) : unixLines t = t := by
  induction t with
  | nil => rfl
  | cons c t ih =>
    rw [List.mem_cons, not_or] at h
    rw [unixLines_cons fun hc => h.1 hc.1.symm, if_neg (Ne.symm h.1), ih h.2]

/-- The lines of a text, where a carriage return, a line feed, or one before the other ends a
line. -/
def anyLines : Text → List Text
  | [] => [[]]
  | '\r' :: '\n' :: t => [] :: anyLines t
  | c :: t => if c = '\r' ∨ c = '\n' then [] :: anyLines t else prependFirst [c] (anyLines t)

theorem lines_feed (t : Text) : lines ('\n' :: t) = [] :: lines t := rfl

theorem lines_cons (h : c ≠ '\n') (t : Text) : lines (c :: t) = prependFirst [c] (lines t) := by
  rw [lines, splitOn, if_neg h]
  cases hs : splitOn '\n' t with
  | nil => exact absurd hs (splitOn_ne_nil '\n' t)
  | cons p ps => rw [lines, hs]; rfl

/-- The lines are told apart before line ends are made the same. -/
theorem lines_unixLines (t : Text) : lines (unixLines t) = anyLines t := by
  fun_induction anyLines t with
  | case1 => rfl
  | case2 t ih => rw [unixLines_returnFeed, lines_feed, ih]
  | case3 c t hreturn hc ih =>
    have hcons : ¬(c = '\r' ∧ t.head? = some '\n') := by
      rintro ⟨rfl, ht⟩
      obtain ⟨u, rfl⟩ := List.head?_eq_some_iff.1 ht
      exact hreturn u rfl rfl
    have hfeed : (if c = '\r' then '\n' else c) = '\n' := by
      rcases hc with rfl | rfl <;> rfl
    rw [unixLines_cons hcons, hfeed, lines_feed, ih]
  | case4 c t hreturn hc ih =>
    rw [not_or] at hc
    rw [unixLines_cons fun h => hc.1 h.1, if_neg hc.1, lines_cons hc.2, ih]

/-! ### Lines that are set off -/

/-- The lines that are not empty, each with whether an empty line stands between it and the line
before, where `afterEmpty` tells this of the first one. -/
def spacedLines (afterEmpty : Bool) : List Text → List (Bool × Text)
  | [] => []
  | l :: ls => if l = [] then spacedLines true ls else (afterEmpty, l) :: spacedLines false ls

/-- What is kept of the lines where it does not matter which of them are set off. -/
theorem map_snd_spacedLines (b : Bool) (ls : List Text) :
    (spacedLines b ls).map Prod.snd = ls.filter (· ≠ []) := by
  induction ls generalizing b with
  | nil => rfl
  | cons l ls ih =>
    rw [spacedLines]
    split_ifs with hl
    · rw [ih, List.filter_cons_of_neg (by simpa using hl)]
    · rw [List.map_cons, ih, List.filter_cons_of_pos (by simpa using hl)]

theorem spacedLines_of_empty (b : Bool) {es : List Text} (h : ∀ e ∈ es, e = []) :
    spacedLines b es = [] := by
  induction es generalizing b with
  | nil => rfl
  | cons e es ih =>
    obtain ⟨he, hes⟩ := List.forall_mem_cons.1 h
    rw [spacedLines, if_pos he, ih true hes]

/-- Empty lines at the end set no line off. -/
theorem spacedLines_append_empty (b : Bool) (ls : List Text) {es : List Text}
    (h : ∀ e ∈ es, e = []) : spacedLines b (ls ++ es) = spacedLines b ls := by
  induction ls generalizing b with
  | nil => exact spacedLines_of_empty b h
  | cons l ls ih => rw [List.cons_append, spacedLines, spacedLines, ih, ih]

/-- Which lines are set off stays. -/
theorem spacedLines_foldEmptyLines (b : Bool) (ls : List Text) :
    spacedLines b (foldEmptyLines b ls) = spacedLines b ls := by
  induction ls generalizing b with
  | nil => rfl
  | cons l ls ih =>
    rw [foldEmptyLines, spacedLines]
    split_ifs with hl hb
    · rw [hb, ih]
    · rw [spacedLines, if_pos rfl, ih]
    · rw [spacedLines, if_neg hl, ih]

/-! ### Runs of empty lines -/

/-- Two lines of which one at least is not empty. -/
def NotBothEmpty (l m : Text) : Prop := l ≠ [] ∨ m ≠ []

theorem foldEmptyLines_sublist (b : Bool) (ls : List Text) :
    (foldEmptyLines b ls).Sublist ls := by
  induction ls generalizing b with
  | nil => exact List.Sublist.refl _
  | cons l ls ih =>
    rw [foldEmptyLines]
    split_ifs with hl hb
    · exact (ih true).cons l
    · exact hl ▸ (ih true).cons_cons []
    · exact (ih false).cons_cons l

theorem head?_foldEmptyLines_true (ls : List Text) : (foldEmptyLines true ls).head? ≠ some [] := by
  induction ls with
  | nil => simp [foldEmptyLines]
  | cons l ls ih =>
    rw [foldEmptyLines]
    by_cases hl : l = []
    · rw [if_pos hl, if_pos rfl]
      exact ih
    · rw [if_neg hl, List.head?_cons]
      exact fun h => hl (Option.some.inj h)

/-- No two empty lines are left in a row. -/
theorem isChain_foldEmptyLines (b : Bool) (ls : List Text) :
    (foldEmptyLines b ls).IsChain NotBothEmpty := by
  induction ls generalizing b with
  | nil => exact .nil
  | cons l ls ih =>
    rw [foldEmptyLines]
    split_ifs with hl hb
    · exact ih true
    · refine List.isChain_cons.2 ⟨fun m hm => .inr ?_, ih true⟩
      rintro rfl
      exact head?_foldEmptyLines_true ls hm
    · exact List.isChain_cons.2 ⟨fun m _ => .inl hl, ih false⟩

theorem foldEmptyLines_eq_self (h : ls.IsChain NotBothEmpty) (hb : b = true → ls.head? ≠ some []) :
    foldEmptyLines b ls = ls := by
  induction ls generalizing b with
  | nil => rfl
  | cons l ls ih =>
    obtain ⟨hl, hls⟩ := List.isChain_cons.1 h
    rw [foldEmptyLines]
    split_ifs with hempty hafter
    · exact absurd (congrArg some hempty) (hb hafter)
    · have hhead : true = true → ls.head? ≠ some [] := fun _ hhead =>
        (hl [] hhead).elim (fun h => h hempty) (fun h => h rfl)
      rw [ih hls hhead, hempty]
    · rw [ih hls (by simp)]

theorem dropEmptyEnd_eq (ls : List Text) : dropEmptyEnd ls = ls.rdropWhile (· = []) := rfl

theorem exists_eq_dropEmptyEnd_append (ls : List Text) :
    ∃ es : List Text, (∀ e ∈ es, e = []) ∧ ls = dropEmptyEnd ls ++ es := by
  refine ⟨ls.rtakeWhile (· = []), fun e he => ?_, ?_⟩
  · simpa using List.mem_rtakeWhile_imp he
  · rw [dropEmptyEnd_eq, List.rdropWhile_append_rtakeWhile]

theorem dropEmptyEnd_isPrefix (ls : List Text) : dropEmptyEnd ls <+: ls := by
  obtain ⟨es, -, h⟩ := exists_eq_dropEmptyEnd_append ls
  exact ⟨es, h.symm⟩

theorem getLast?_dropEmptyEnd (ls : List Text) : (dropEmptyEnd ls).getLast? ≠ some [] := by
  intro h
  have hne : dropEmptyEnd ls ≠ [] := fun hnil => by simp [hnil] at h
  rw [List.getLast?_eq_some_getLast hne, Option.some.injEq] at h
  exact List.rdropWhile_last_not _ ls hne (decide_eq_true h)

theorem dropEmptyEnd_concat (h : ls.getLast? ≠ some []) : dropEmptyEnd (ls ++ [[]]) = ls := by
  rw [dropEmptyEnd_eq, List.rdropWhile_concat, if_pos (decide_eq_true rfl),
    List.rdropWhile_eq_self_iff]
  intro hne hlast
  exact h (List.getLast?_eq_some_getLast hne ▸ congrArg some (of_decide_eq_true hlast))

/-! ### The lines of the normal form -/

/-- The lines of the normal form of a text, each of which a line feed ends. -/
def normalLines (t : Text) : List Text :=
  dropEmptyEnd (foldEmptyLines true ((anyLines t).map trimRight))

theorem unlines_append_feed (h : ls ≠ []) : unlines ls ++ "\n" = withFeeds ls := by
  induction ls with
  | nil => exact absurd rfl h
  | cons l ls ih =>
    by_cases hls : ls = []
    · subst hls
      simp [unlines, join, withFeeds]
    · rw [unlines_cons hls, List.append_assoc, List.cons_append, ih hls, withFeeds, withFeeds,
        List.flatMap_cons, List.append_assoc]
      rfl

theorem normalForm_eq (t : Text) : normalForm t = withFeeds (normalLines t) := by
  rw [normalForm, lines_unixLines]
  change (if normalLines t = [] then [] else unlines (normalLines t) ++ "\n".toList) = _
  split_ifs with h
  · rw [h]
    rfl
  · exact unlines_append_feed h

theorem lines_withFeeds (h : ∀ l ∈ ls, '\n' ∉ l) : lines (withFeeds ls) = ls ++ [[]] := by
  induction ls with
  | nil => rfl
  | cons l ls ih =>
    obtain ⟨hl, hls⟩ := List.forall_mem_cons.1 h
    have hcons : withFeeds (l :: ls) = l ++ '\n' :: withFeeds ls := by
      simp [withFeeds]
    rw [hcons, lines_line hl, ih hls, List.cons_append]

/-- A line of the normal form is a trimmed line of the text. -/
theorem exists_of_mem_normalLines (h : l ∈ normalLines t) :
    ∃ m ∈ lines (unixLines t), l = trimRight m := by
  have hl := (foldEmptyLines_sublist true _).subset ((dropEmptyEnd_isPrefix _).subset h)
  rw [← lines_unixLines, List.mem_map] at hl
  obtain ⟨m, hm, rfl⟩ := hl
  exact ⟨m, hm, rfl⟩

theorem trimRight_of_mem_normalLines (h : l ∈ normalLines t) : trimRight l = l := by
  obtain ⟨m, -, rfl⟩ := exists_of_mem_normalLines h
  exact trimRight_trimRight m

theorem feed_notMem_of_mem_normalLines (h : l ∈ normalLines t) : '\n' ∉ l := by
  obtain ⟨m, hm, rfl⟩ := exists_of_mem_normalLines h
  exact fun hmem => not_mem_of_mem_splitOn hm ((trimRight_isPrefix m).subset hmem)

theorem mem_of_mem_lines (h : l ∈ lines t) (hc : c ∈ l) : c ∈ t := by
  rw [← join_splitOn '\n' t]
  exact (infix_join h ['\n']).subset hc

theorem return_notMem_of_mem_normalLines (h : l ∈ normalLines t) : '\r' ∉ l := by
  obtain ⟨m, hm, rfl⟩ := exists_of_mem_normalLines h
  exact fun hmem =>
    return_notMem_unixLines t (mem_of_mem_lines hm ((trimRight_isPrefix m).subset hmem))

theorem lines_normalForm (t : Text) : lines (normalForm t) = normalLines t ++ [[]] := by
  rw [normalForm_eq, lines_withFeeds fun l hl => feed_notMem_of_mem_normalLines hl]

theorem getLast?_normalLines (t : Text) : (normalLines t).getLast? ≠ some [] :=
  getLast?_dropEmptyEnd _

theorem head?_normalLines (t : Text) : (normalLines t).head? ≠ some [] := by
  intro h
  obtain ⟨es, hes⟩ := dropEmptyEnd_isPrefix (foldEmptyLines true ((anyLines t).map trimRight))
  refine head?_foldEmptyLines_true ((anyLines t).map trimRight) ?_
  rw [← hes, List.head?_append, ← normalLines, h]
  rfl

theorem isChain_normalLines (t : Text) : (normalLines t).IsChain NotBothEmpty := by
  obtain ⟨es, hes⟩ := dropEmptyEnd_isPrefix (foldEmptyLines true ((anyLines t).map trimRight))
  have hchain := isChain_foldEmptyLines true ((anyLines t).map trimRight)
  rw [← hes, List.isChain_append] at hchain
  exact hchain.1

theorem spacedLines_normalLines (t : Text) :
    spacedLines true (normalLines t) = spacedLines true ((anyLines t).map trimRight) := by
  obtain ⟨es, hes, heq⟩ := exists_eq_dropEmptyEnd_append
    (foldEmptyLines true ((anyLines t).map trimRight))
  rw [normalLines, ← spacedLines_append_empty true _ hes, ← heq, spacedLines_foldEmptyLines]

theorem spacedLines_lines_normalForm (t : Text) :
    spacedLines true (lines (normalForm t)) = spacedLines true ((anyLines t).map trimRight) := by
  rw [lines_normalForm, spacedLines_append_empty true _ (by simp), spacedLines_normalLines]

/-! ### Texts in normal form -/

/-- A text in normal form. -/
structure IsNormalForm (t : Text) : Prop where
  /-- It is empty, or it ends with exactly one line feed. -/
  ending : t = [] ∨ ∃ s c, t = s ++ [c, '\n'] ∧ c ≠ '\n'
  /-- It holds no carriage return. -/
  return_notMem : '\r' ∉ t
  /-- None of its lines ends with a blank. -/
  trimRight_eq : ∀ l ∈ lines t, trimRight l = l
  /-- It does not begin with an empty line. -/
  head?_ne : t.head? ≠ some '\n'
  /-- No two of its lines in a row are empty. -/
  isChain : (lines t).IsChain NotBothEmpty

theorem isNormalForm_normalForm (t : Text) : IsNormalForm (normalForm t) where
  ending := by
    rw [normalForm_eq]
    cases h : normalLines t using List.reverseRec with
    | nil => exact .inl rfl
    | append_singleton ls l =>
      have hlast := getLast?_normalLines t
      have hfeed := feed_notMem_of_mem_normalLines (h ▸ List.mem_append_right ls List.mem_cons_self)
      rw [h, List.getLast?_concat] at hlast
      obtain ⟨w, c, rfl⟩ := List.eq_nil_or_concat l |>.resolve_left fun hl => hlast (hl ▸ rfl)
      refine .inr ⟨withFeeds ls ++ w, c, by simp [withFeeds], ?_⟩
      rintro rfl
      simp at hfeed
  return_notMem := by
    rw [normalForm_eq, withFeeds, List.mem_flatMap]
    rintro ⟨l, hl, hr⟩
    rw [List.mem_append, List.mem_singleton] at hr
    exact hr.elim (return_notMem_of_mem_normalLines hl) (by decide)
  trimRight_eq := by
    rw [lines_normalForm, List.forall_mem_append]
    exact ⟨fun l hl => trimRight_of_mem_normalLines hl, by simp [trimRight]⟩
  head?_ne := by
    rw [normalForm_eq]
    cases h : normalLines t with
    | nil => simp [withFeeds]
    | cons l ls =>
      have hhead := head?_normalLines t
      have hfeed := feed_notMem_of_mem_normalLines (h ▸ List.mem_cons_self)
      rw [h, List.head?_cons] at hhead
      obtain ⟨d, w, rfl⟩ := List.exists_cons_of_ne_nil fun hl => hhead (hl ▸ rfl)
      rintro hd
      obtain rfl := Option.some.inj hd
      simp at hfeed
  isChain := by
    rw [lines_normalForm, List.isChain_append]
    refine ⟨isChain_normalLines t, .singleton _, fun l hl m _ => .inl ?_⟩
    rintro rfl
    exact getLast?_normalLines t hl

theorem head?_lines_eq_some_nil (h : (lines t).head? = some []) :
    t = [] ∨ t.head? = some '\n' := by
  cases t with
  | nil => exact .inl rfl
  | cons c t =>
    by_cases hc : c = '\n'
    · exact .inr (hc ▸ rfl)
    · rw [lines_cons hc] at h
      cases hs : lines t with
      | nil => simp [hs, prependFirst] at h
      | cons p ps => simp [hs, prependFirst] at h

/-- The texts in normal form are those that stay. -/
theorem normalForm_eq_self_iff : normalForm t = t ↔ IsNormalForm t := by
  refine ⟨fun h => h ▸ isNormalForm_normalForm t, fun h => ?_⟩
  rcases h.ending with rfl | ⟨s, c, rfl, -⟩
  · rfl
  have hlines : lines (s ++ [c, '\n']) = lines (s ++ [c]) ++ [[]] := by
    rw [← List.singleton_append, ← List.append_assoc, lines, splitOn_append_cons]
    rfl
  have hhead : (lines (s ++ [c, '\n'])).head? ≠ some [] := fun hhead =>
    (head?_lines_eq_some_nil hhead).elim (by simp) h.head?_ne
  have hlast : (lines (s ++ [c])).getLast? ≠ some [] := by
    have hchain := h.isChain
    rw [hlines, List.isChain_append] at hchain
    exact fun hlast => (hchain.2.2 [] hlast [] rfl).elim (absurd rfl) (absurd rfl)
  have hmap : (lines (s ++ [c, '\n'])).map trimRight = lines (s ++ [c, '\n']) := by
    rw [List.map_congr_left h.trimRight_eq, List.map_id']
  have hnormal : normalLines (s ++ [c, '\n']) = lines (s ++ [c]) := by
    rw [normalLines, ← lines_unixLines, unixLines_of_notMem h.return_notMem, hmap,
      foldEmptyLines_eq_self h.isChain fun _ => hhead, hlines, dropEmptyEnd_concat hlast]
  have hne : lines (s ++ [c]) ≠ [] := splitOn_ne_nil '\n' _
  have hjoin : unlines (lines (s ++ [c])) = s ++ [c] := join_splitOn '\n' _
  rw [normalForm_eq, hnormal, ← unlines_append_feed hne, hjoin, List.append_assoc]
  rfl

/-! ### What is kept -/

/-- The second text is the first one in normal form, with all that is not blank. -/
structure Normalizes (t u : Text) : Prop where
  /-- It is in normal form. -/
  isNormalForm : IsNormalForm u
  /-- Its lines that are not empty are those of the first text without blanks at their ends. -/
  lines_eq : (lines u).filter (· ≠ []) = ((anyLines t).map trimRight).filter (· ≠ [])
  /-- An empty line stands between two of them that follow each other exactly where one does in the
  first text. -/
  spacedLines_eq : spacedLines true (lines u) = spacedLines true ((anyLines t).map trimRight)
  /-- Its own normal form is itself. -/
  normalForm_eq : normalForm u = u

/-- **The normal form keeps all content.** -/
theorem normalizes_normalForm (t : Text) : Normalizes t (normalForm t) where
  isNormalForm := isNormalForm_normalForm t
  lines_eq := by
    rw [← map_snd_spacedLines true, ← map_snd_spacedLines true, spacedLines_lines_normalForm]
  spacedLines_eq := spacedLines_lines_normalForm t
  normalForm_eq := normalForm_eq_self_iff.2 (isNormalForm_normalForm t)

-- a carriage return in front of another line end is a line end of its own
example : normalForm "\n a \r\r\n\t\nb\rc" = " a\n\nb\nc\n".toList := by decide

end DocDecl

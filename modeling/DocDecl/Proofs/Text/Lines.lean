import DocDecl.Proofs.Text.Pieces

/-!
# Searching line by line

A pattern without line feeds stands in one line. A pattern with one line feed stands at the end of a
line and the beginning of the next one, so a search for it goes from line to line.

## Main results

* `Text.lines_line` : the first line of a text.
* `Text.prefix_append_cons_iff`, `Text.infix_append_cons_iff` : patterns in one line.
* `Text.exists_mem_lines_of_isInfix` : a line that the rest of a pattern begins.
* `Text.cut?_line`, `Text.cut?_lineEnd` : the search for a pattern with a line feed.
* `Text.findAny?_line` : the search for patterns without line feeds.
-/

namespace DocDecl

namespace Text

variable {a b l p t u : Text} {ps : List Text}

theorem lines_line (h : '\n' ∉ l) (t : Text) : lines (l ++ '\n' :: t) = l :: lines t := by
  rw [lines, splitOn_append_cons, splitOn_of_not_mem h]
  rfl

theorem unlines_cons {ls : List Text} (h : ls ≠ []) (l : Text) :
    unlines (l :: ls) = l ++ '\n' :: unlines ls := by
  rw [unlines, join_cons h, List.append_assoc]
  rfl

theorem lines_unlines {ls : List Text} (h : ls ≠ []) : lines (unlines ls) = ls.flatMap lines := by
  induction ls with
  | nil => exact absurd rfl h
  | cons l ls ih =>
    by_cases hls : ls = []
    · subst hls
      simp [unlines, join]
    · rw [unlines_cons hls, lines, splitOn_append_cons, List.flatMap_cons, ← ih hls]
      rfl

theorem flatMap_lines {ls : List Text} (h : ∀ l ∈ ls, '\n' ∉ l) : ls.flatMap lines = ls := by
  induction ls with
  | nil => rfl
  | cons l ls ih =>
    obtain ⟨hl, hls⟩ := List.forall_mem_cons.1 h
    rw [List.flatMap_cons, ih hls, lines, splitOn_of_not_mem hl]
    rfl

/-- A pattern without a character begins a text exactly if it begins the part in front of the
character. -/
theorem prefix_append_cons_iff {c : Char} (hp : c ∉ p) : p <+: l ++ c :: t ↔ p <+: l := by
  refine ⟨fun h => ?_, fun h => h.trans (List.prefix_append l _)⟩
  rcases List.prefix_or_prefix_of_prefix h (List.prefix_append l _) with h' | ⟨r, rfl⟩
  · exact h'
  · cases r with
    | nil => exact ⟨[], by simp⟩
    | cons d r =>
      obtain ⟨rfl, -⟩ := List.cons_prefix_cons.1 ((List.prefix_append_right_inj l).1 h)
      simp at hp

/-- A pattern without a character stands on one side of it. -/
theorem infix_append_cons_iff {c : Char} (hp : c ∉ p) :
    p <:+: l ++ c :: t ↔ p <:+: l ∨ p <:+: t := by
  induction l with
  | nil =>
    have hhead : p <+: c :: t ↔ p <:+: [] := by
      rw [← List.nil_append (c :: t), prefix_append_cons_iff hp, List.prefix_nil, List.infix_nil]
    rw [List.nil_append, List.infix_cons_iff, hhead]
  | cons d l ih =>
    rw [List.cons_append, List.infix_cons_iff, ih, ← List.cons_append, prefix_append_cons_iff hp,
      List.infix_cons_iff, or_assoc]

/-- A line feed ends the first line. -/
theorem eq_of_prefix_line (ha : '\n' ∉ a) (hl : '\n' ∉ l) (h : a ++ '\n' :: b <+: l ++ '\n' :: t) :
    a = l ∧ b <+: t := by
  have hla := (prefix_append_cons_iff ha).1 ((List.prefix_append a _).trans h)
  obtain ⟨r, rfl⟩ := hla
  rw [List.append_assoc, List.prefix_append_right_inj] at h
  cases r with
  | nil => exact ⟨(List.append_nil a).symm, (List.cons_prefix_cons.1 h).2⟩
  | cons c r =>
    obtain ⟨rfl, -⟩ := List.cons_prefix_cons.1 h
    simp at hl

/-- What follows the line feed of a pattern begins a line. -/
theorem exists_mem_lines_of_isInfix (hb : '\n' ∉ b) (h : a ++ '\n' :: b <:+: t) :
    ∃ l ∈ lines t, b <+: l := by
  obtain ⟨u, r, rfl⟩ := h
  have hfirst : ∃ l ∈ lines (b ++ r), b <+: l := by
    by_cases hr : '\n' ∈ r
    · obtain ⟨l, r, rfl, hl⟩ := List.eq_append_cons_of_mem hr
      rw [← List.append_assoc, lines_line (by simp [hb, hl])]
      exact ⟨_, List.mem_cons_self, List.prefix_append b l⟩
    · rw [lines, splitOn_of_not_mem (by simp [hb, hr])]
      exact ⟨_, List.mem_cons_self, List.prefix_append b r⟩
  obtain ⟨l, hl, hbl⟩ := hfirst
  refine ⟨l, ?_, hbl⟩
  have hcut : u ++ (a ++ '\n' :: b) ++ r = (u ++ a) ++ '\n' :: (b ++ r) := by simp
  rw [lines, hcut, splitOn_append_cons]
  exact List.mem_append_right _ hl

/-! ### Patterns with a line feed -/

theorem cut?_cons_of_not_isPrefix {c : Char} (h : ¬p <+: c :: t) :
    cut? p (c :: t) = (cut? p t).map fun q => (c :: q.1, q.2) := by
  rw [cut?, cut?, find?, if_neg (by rwa [List.isPrefixOf_iff_prefix])]
  cases find? p t with
  | none => rfl
  | some n =>
    have hskip : n + 1 + p.length = n + p.length + 1 := by omega
    simp [hskip]

theorem cut?_append_self (hp : p ≠ []) (t : Text) : cut? p (p ++ t) = some ([], t) := by
  obtain ⟨c, p, rfl⟩ := List.exists_cons_of_ne_nil hp
  have hstands : (c :: p).isPrefixOf (c :: (p ++ t)) = true :=
    List.isPrefixOf_iff_prefix.2 (List.prefix_append (c :: p) t)
  rw [cut?, List.cons_append, find?, if_pos hstands]
  simp

/-- The search goes on to the next line, if the pattern does not stand at the end of this one. -/
theorem cut?_line (ha : '\n' ∉ a) (hl : '\n' ∉ l) (h : ¬a <:+ l) (b t : Text) :
    cut? (a ++ '\n' :: b) (l ++ '\n' :: t) =
      (cut? (a ++ '\n' :: b) t).map fun q => (l ++ '\n' :: q.1, q.2) := by
  have hstands {l : Text} (hl : '\n' ∉ l) (h : ¬a <:+ l) : ¬a ++ '\n' :: b <+: l ++ '\n' :: t :=
    fun hprefix => h ((eq_of_prefix_line ha hl hprefix).1 ▸ List.suffix_rfl)
  have hhead := hstands hl h
  induction l with
  | nil => exact cut?_cons_of_not_isPrefix hhead
  | cons c l ih =>
    rw [List.mem_cons, not_or] at hl
    rw [List.suffix_cons_iff, not_or] at h
    rw [List.cons_append] at hhead ⊢
    rw [cut?_cons_of_not_isPrefix hhead, ih hl.2 h.2 (hstands hl.2 h.2), Option.map_map]
    rfl

/-- The pattern is found at the end of the line. -/
theorem cut?_lineEnd (ha : '\n' ∉ a) (hl : '\n' ∉ l) (b t : Text) :
    cut? (a ++ '\n' :: b) (l ++ (a ++ '\n' :: (b ++ t))) = some (l, t) := by
  induction l with
  | nil =>
    have hassoc : a ++ '\n' :: (b ++ t) = (a ++ '\n' :: b) ++ t := by simp
    rw [List.nil_append, hassoc, cut?_append_self (by simp)]
  | cons c l ih =>
    rw [List.mem_cons, not_or] at hl
    have hstands : ¬a ++ '\n' :: b <+: c :: (l ++ (a ++ '\n' :: (b ++ t))) := by
      intro h
      have hline : '\n' ∉ c :: (l ++ a) := by simp [hl, ha]
      have heq := (eq_of_prefix_line (l := c :: (l ++ a)) ha hline (by simpa using h)).1
      have hlength := congrArg List.length heq
      rw [List.length_cons, List.length_append] at hlength
      omega
    rw [List.cons_append, cut?_cons_of_not_isPrefix hstands, ih hl.2]
    rfl

/-! ### Patterns without line feeds -/

/-- The search goes on to the next line, if none of the patterns stands in this one. -/
theorem findAny?_line (hps : ∀ p ∈ ps, '\n' ∉ p) (hl : ∀ p ∈ ps, ¬p <:+: l) (t : Text) :
    findAny? ps (l ++ '\n' :: t) = (findAny? ps t).map (· + (l.length + 1)) := by
  have hany {l : Text} (hl : ∀ p ∈ ps, ¬p <:+: l) :
      (ps.any fun p => p.isPrefixOf (l ++ '\n' :: t)) = false := by
    rw [List.any_eq_false]
    intro p hp
    rw [List.isPrefixOf_iff_prefix, prefix_append_cons_iff (hps p hp)]
    exact fun hprefix => hl p hp hprefix.isInfix
  have hhead := hany hl
  induction l with
  | nil =>
    rw [List.nil_append] at hhead ⊢
    rw [findAny?, hhead]
    rfl
  | cons c l ih =>
    have hrest : ∀ p ∈ ps, ¬p <:+: l := fun p hp h => hl p hp (List.infix_cons h)
    rw [List.cons_append] at hhead ⊢
    rw [findAny?, hhead, ih hrest (hany hrest), if_neg Bool.false_ne_true, Option.map_map]
    rfl

end Text

end DocDecl

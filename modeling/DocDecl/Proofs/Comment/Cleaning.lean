import DocDecl.Proofs.Comment.CleanedLine
import DocDecl.Proofs.Text.Lines
import Mathlib.Algebra.GroupWithZero.Nat
import Mathlib.Logic.Function.Iterate

/-!
# Cleaning a comment again

A comment that is cleaned twice is the comment cleaned once where all of its printed lines are
settled. Where one is not, the comment gets shorter, so that repeated cleaning comes to an end.

## Main definitions

* `printedLines` : the lines of a comment as they are printed.
* `RepeatedCleaning` : what cleaning a cleaned comment comes to.

## Main results

* `cleanComment_cleanComment_iff` : when a cleaned comment is clean.
* `repeatedCleaning` : when a comment is clean, and that it gets clean.
* `not_clean_of_second_type` : a comment that is not clean after one time.
-/

namespace DocDecl

open Text

variable {markers : List Text} {l p c : Text}

/-! ### Lines and their lengths -/

/-- A printed line is one line. -/
theorem feed_notMem_of_cleanLine? (hp : '\n' ∉ p) (hl : cleanLine? markers p = some l) :
    '\n' ∉ l := by
  rcases cleanLine?_eq_some hl with rfl | rfl | ⟨-, rfl⟩
  · decide
  · decide
  · rw [List.mem_cons, not_or]
    exact ⟨by decide, fun h => hp (mem_of_mem_lineContent (mem_of_mem_trim h))⟩

/-- How long lines are together, each with its line end. -/
def totalLength (ls : List Text) : Nat := (ls.map fun l => l.length + 1).sum

theorem totalLength_cons (l : Text) (ls : List Text) :
    totalLength (l :: ls) = l.length + 1 + totalLength ls := rfl

theorem length_unlines {ls : List Text} (h : ls ≠ []) :
    (unlines ls).length + 1 = totalLength ls := by
  induction ls with
  | nil => exact absurd rfl h
  | cons l ls ih =>
    rw [totalLength_cons]
    by_cases hls : ls = []
    · subst hls
      simp [unlines, join, List.intercalate, totalLength]
    · rw [unlines_cons hls, ← ih hls, List.length_append, List.length_cons]
      omega

/-- Printed lines stay as they are where all of them are settled, and get shorter otherwise. -/
theorem filterMap_cleanLine? (markers : List Text) {ls : List Text} (h : ∀ l ∈ ls, IsPrinted l) :
    (∀ l ∈ ls, IsSettled markers l) ∧ ls.filterMap (cleanLine? markers) = ls ∨
      (¬∀ l ∈ ls, IsSettled markers l) ∧
        totalLength (ls.filterMap (cleanLine? markers)) < totalLength ls := by
  induction ls with
  | nil => exact .inl ⟨fun l hl => absurd hl List.not_mem_nil, rfl⟩
  | cons l ls ih =>
    obtain ⟨hl, hls⟩ := List.forall_mem_cons.1 h
    have ih := ih hls
    rw [totalLength_cons]
    by_cases hsettled : IsSettled markers l
    · rw [List.filterMap_cons_some (hsettled.cleanLine?_eq_self hl), totalLength_cons]
      rcases ih with ⟨hall, heq⟩ | ⟨hnot, hlt⟩
      · exact .inl ⟨List.forall_mem_cons.2 ⟨hsettled, hall⟩, congrArg (l :: ·) heq⟩
      · exact .inr ⟨fun h => hnot (List.forall_mem_cons.1 h).2, by omega⟩
    · have hle : totalLength (ls.filterMap (cleanLine? markers)) ≤ totalLength ls := by
        rcases ih with ⟨-, heq⟩ | ⟨-, hlt⟩
        · exact Nat.le_of_eq (congrArg totalLength heq)
        · exact Nat.le_of_lt hlt
      refine .inr ⟨fun h => hsettled (List.forall_mem_cons.1 h).1, ?_⟩
      cases hclean : cleanLine? markers l with
      | none =>
        rw [List.filterMap_cons_none hclean]
        omega
      | some l' =>
        have := length_lt_of_not_isSettled hsettled hl hclean
        rw [List.filterMap_cons_some hclean, totalLength_cons]
        omega

/-! ### Comments -/

section Comment

variable (markers)

/-- The lines of a comment as they are printed. -/
def printedLines (c : Text) : List Text :=
  (lines c).filterMap (cleanLine? (droppedMarkers ++ markers))

theorem isPrinted_of_mem_printedLines (h : l ∈ printedLines markers c) : IsPrinted l := by
  obtain ⟨p, -, hl⟩ := List.mem_filterMap.1 h
  exact isPrinted_of_cleanLine? hl

theorem feed_notMem_of_mem_printedLines (h : l ∈ printedLines markers c) : '\n' ∉ l := by
  obtain ⟨p, hp, hl⟩ := List.mem_filterMap.1 h
  exact feed_notMem_of_cleanLine? (not_mem_of_mem_splitOn hp) hl

theorem cleanComment_eq (c : Text) :
    cleanComment markers c =
      if (printedLines markers c).length < 3 then [] else unlines (printedLines markers c) := rfl

/-- The lines of a comment that is not left out are its printed lines. -/
theorem lines_cleanComment (h : cleanComment markers c ≠ []) :
    printedLines markers c ≠ [] ∧ cleanComment markers c = unlines (printedLines markers c) ∧
      lines (cleanComment markers c) = printedLines markers c := by
  rw [cleanComment_eq] at h ⊢
  split_ifs at h ⊢ with hlen
  · exact absurd rfl h
  · have hne : printedLines markers c ≠ [] := by
      intro hnil
      simp [hnil] at hlen
    exact ⟨hne, rfl, splitOn_join hne fun l hl => feed_notMem_of_mem_printedLines markers hl⟩

theorem cleanComment_nil : cleanComment markers [] = [] := by
  refine if_pos (Nat.lt_of_le_of_lt (List.length_filterMap_le _ _) ?_)
  decide

/-- A cleaned comment stays where its lines are settled, and gets shorter otherwise. -/
theorem cleanComment_again (h : cleanComment markers c ≠ []) :
    (∀ l ∈ lines (cleanComment markers c), IsSettled (droppedMarkers ++ markers) l) ∧
        cleanComment markers (cleanComment markers c) = cleanComment markers c ∨
      (¬∀ l ∈ lines (cleanComment markers c), IsSettled (droppedMarkers ++ markers) l) ∧
        (cleanComment markers (cleanComment markers c)).length <
          (cleanComment markers c).length := by
  obtain ⟨hne, hclean, hlines⟩ := lines_cleanComment markers h
  have hprinted : printedLines markers (cleanComment markers c) =
      (printedLines markers c).filterMap (cleanLine? (droppedMarkers ++ markers)) := by
    rw [printedLines, hlines]
  rw [hlines]
  have hall : ∀ l ∈ printedLines markers c, IsPrinted l := fun l =>
    isPrinted_of_mem_printedLines markers
  rcases filterMap_cleanLine? (droppedMarkers ++ markers) hall with ⟨hall, heq⟩ | ⟨hnot, hlt⟩
  · refine .inl ⟨hall, ?_⟩
    rw [cleanComment_eq, hprinted, heq, ← cleanComment_eq]
  · refine .inr ⟨hnot, ?_⟩
    by_cases hagain : cleanComment markers (cleanComment markers c) = []
    · rw [hagain]
      exact List.length_pos_iff.2 h
    · obtain ⟨hne', hclean', -⟩ := lines_cleanComment markers hagain
      rw [← hprinted, ← length_unlines hne, ← length_unlines hne', ← hclean, ← hclean'] at hlt
      exact Nat.lt_of_succ_lt_succ hlt

/-- A cleaned comment is clean if it is left out, or if all of its lines are settled. -/
theorem cleanComment_cleanComment_iff (c : Text) :
    cleanComment markers (cleanComment markers c) = cleanComment markers c ↔
      cleanComment markers c = [] ∨
        ∀ l ∈ lines (cleanComment markers c), IsSettled (droppedMarkers ++ markers) l := by
  by_cases hnil : cleanComment markers c = []
  · simp [hnil, cleanComment_nil]
  · rw [or_iff_right hnil]
    rcases cleanComment_again markers hnil with ⟨hall, heq⟩ | ⟨hnot, hlt⟩
    · exact iff_of_true heq hall
    · exact iff_of_false (fun heq => Nat.ne_of_lt hlt (congrArg List.length heq)) hnot

theorem length_cleanComment_lt
    (h : cleanComment markers (cleanComment markers c) ≠ cleanComment markers c) :
    (cleanComment markers (cleanComment markers c)).length < (cleanComment markers c).length := by
  have hne : cleanComment markers c ≠ [] := fun hnil => h (by rw [hnil, cleanComment_nil])
  rcases cleanComment_again markers hne with ⟨-, heq⟩ | ⟨-, hlt⟩
  · exact absurd heq h
  · exact hlt

/-- Repeated cleaning comes to an end. -/
theorem exists_iterate_cleanComment (c : Text) :
    ∃ n ≤ (cleanComment markers c).length + 1,
      ∀ m ≥ n, (cleanComment markers)^[m] c = (cleanComment markers)^[n] c := by
  induction hk : (cleanComment markers c).length using Nat.strongRecOn generalizing c with
  | _ k ih =>
    subst hk
    by_cases hfix : cleanComment markers (cleanComment markers c) = cleanComment markers c
    · refine ⟨1, Nat.le_add_left 1 _, fun m hm => ?_⟩
      obtain ⟨m, rfl⟩ := Nat.exists_eq_add_of_le' hm
      exact Function.iterate_fixed hfix m
    · have hlt := length_cleanComment_lt markers hfix
      obtain ⟨n, hn, hall⟩ := ih _ hlt (cleanComment markers c) rfl
      refine ⟨n + 1, by omega, fun m hm => ?_⟩
      obtain ⟨m, rfl⟩ := Nat.exists_eq_succ_of_ne_zero (Nat.ne_zero_of_lt hm)
      exact hall m (Nat.le_of_succ_le_succ hm)

end Comment

/-- What cleaning a cleaned comment comes to. -/
structure RepeatedCleaning (markers : List Text) : Prop where
  /-- A cleaned comment is clean exactly if it is left out, or if all of its lines are settled. -/
  again_iff (c : Text) :
    cleanComment markers (cleanComment markers c) = cleanComment markers c ↔
      cleanComment markers c = [] ∨
        ∀ l ∈ lines (cleanComment markers c), IsSettled (droppedMarkers ++ markers) l
  /-- A cleaned comment that is not clean gets shorter. -/
  shorter (c : Text) :
    cleanComment markers (cleanComment markers c) ≠ cleanComment markers c →
      (cleanComment markers (cleanComment markers c)).length < (cleanComment markers c).length
  /-- Repeated cleaning comes to an end. -/
  settles (c : Text) :
    ∃ n ≤ (cleanComment markers c).length + 1,
      ∀ m ≥ n, (cleanComment markers)^[m] c = (cleanComment markers)^[n] c
  /-- With markers that begin with no blank, a line that neither a type nor the mark of a
  description is taken from is settled once it is printed. -/
  settled_of_plain (p l : Text) :
    (∀ m ∈ markers, ∀ c, m.head? = some c → isBlank c = false) →
      cleanLine? (droppedMarkers ++ markers) p = some l → IsPlain p →
        IsSettled (droppedMarkers ++ markers) l
  /-- With markers of tags, a line that loses a type is printed, and it is settled exactly if no
  other type directly follows that one. -/
  settled_of_type_iff (p s r : Text) :
    (∀ m ∈ markers, IsTagMarker m) → IsInner (droppedMarkers ++ markers) p →
      cutAtType? p = some (s, r) → endsWord r = true →
        ∃ l, cleanLine? (droppedMarkers ++ markers) p = some l ∧
          (IsSettled (droppedMarkers ++ markers) l ↔ afterType? (trimLeft r) = none)

/-- A cleaned comment is clean where its lines are settled, and cleaning settles them in the end. -/
theorem repeatedCleaning (markers : List Text) : RepeatedCleaning markers where
  again_iff := cleanComment_cleanComment_iff markers
  shorter _ := length_cleanComment_lt markers
  settles := exists_iterate_cleanComment markers
  settled_of_plain _ _ hm := isSettled_of_isPlain fun m hmem => by
    rcases List.mem_append.1 hmem with hmem | hmem
    · exact (isTagMarker_of_mem (List.mem_append_left _ hmem)).isBlank_head?
    · exact hm m hmem
  settled_of_type_iff _ _ _ hm := isSettled_of_type_iff fun m hmem => by
    rcases List.mem_append.1 hmem with hmem | hmem
    · exact isTagMarker_of_mem (List.mem_append_left _ hmem)
    · exact hm m hmem

/-- A link directly behind the type of a return value is taken for another type when the comment is
cleaned again. -/
theorem not_clean_of_second_type :
    cleanComment [] "/**\n * @returns \x7bFoo\x7d \x7b@link Bar\x7d baz\n */" =
        "/**\n * @returns \x7b@link Bar\x7d baz\n */".toList ∧
      cleanComment []
          (cleanComment [] "/**\n * @returns \x7bFoo\x7d \x7b@link Bar\x7d baz\n */") ≠
        cleanComment [] "/**\n * @returns \x7bFoo\x7d \x7b@link Bar\x7d baz\n */" := by
  decide +kernel

end DocDecl

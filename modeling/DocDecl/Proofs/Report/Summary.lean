import DocDecl.Proofs.List.Keys
import DocDecl.Report.Summary
import Mathlib.Algebra.GroupWithZero.Nat

/-!
# What the summary tells

The counts of the categories are those of the reports: every category that occurs has one count, the
categories stand in the order in which they first occur, and the counts add up to the number of the
reports. So the header of the summary, the lines behind it and the reports agree on how many there
are, at every level of detail that tells anything.

## Main definitions

* `summaryHeader`, `countLine` : the first line of a summary, and the line for one category.
* `SumsUp` : the lines tell what there is to tell of the reports of one kind.

## Main results

* `categoryCounts_eq` : the counts, by the distinct categories.
* `sum_categoryCounts` : the counts add up.
* `sumsUp_summarize` : the summary tells of the infos and of the errors.
-/

namespace DocDecl

/-! ### Counts -/

/-- One more of a key, for counts that are given by the keys. -/
theorem countOne_map {ks : List Text} (hks : ks.Nodup) {count : Text → Nat} {key : Text}
    (hnew : key ∉ ks → count key = 0) :
    countOne key (ks.map fun k => (k, count k)) =
      (if key ∈ ks then ks else ks ++ [key]).map fun k =>
        (k, count k + if key = k then 1 else 0) := by
  induction ks with
  | nil => simp [countOne, hnew]
  | cons k ks ih =>
    obtain ⟨hk, hks⟩ := List.nodup_cons.1 hks
    rw [List.map_cons, countOne]
    by_cases hkey : k = key
    · subst hkey
      have hrest : ks.map (fun j => (j, count j + if k = j then 1 else 0)) =
          ks.map fun j => (j, count j) := by
        refine List.map_congr_left fun j hj => ?_
        have hne : k ≠ j := fun h => hk (h ▸ hj)
        rw [if_neg hne, Nat.add_zero]
      rw [if_pos rfl, if_pos List.mem_cons_self, List.map_cons, hrest, if_pos rfl]
    · have hmem : key ∈ k :: ks ↔ key ∈ ks := by
        rw [List.mem_cons, or_iff_right (Ne.symm hkey)]
      rw [if_neg hkey, ih hks fun h => hnew fun h' => h (hmem.1 h')]
      simp only [hmem]
      split_ifs <;> simp [Ne.symm hkey]

/-- The counts are those of the distinct categories, in the order of their first occurrence. -/
theorem categoryCounts_eq (rs : List Report) :
    categoryCounts rs =
      (rs.map Report.category).eraseDups.map fun k => (k, (rs.map Report.category).count k) := by
  induction rs using List.reverseRecOn with
  | nil => rfl
  | append_singleton rs r ih =>
    have hstep : categoryCounts (rs ++ [r]) = countOne r.category (categoryCounts rs) := by
      rw [categoryCounts, List.foldl_append]
      rfl
    have hnew : r.category ∉ (rs.map Report.category).eraseDups →
        (rs.map Report.category).count r.category = 0 :=
      fun h => List.count_eq_zero.2 fun h' => h (List.mem_eraseDups.2 h')
    rw [hstep, ih, countOne_map (nodup_eraseDups _) hnew]
    simp only [List.map_append, List.map_singleton, eraseDups_concat, List.mem_eraseDups,
      List.count_append, List.count_singleton, beq_iff_eq]

theorem sum_countOne (key : Text) (cs : List (Text × Nat)) :
    ((countOne key cs).map Prod.snd).sum = (cs.map Prod.snd).sum + 1 := by
  induction cs with
  | nil => rfl
  | cons c cs ih =>
    rw [countOne]
    split_ifs with h
    · simp only [List.map_cons, List.sum_cons]
      omega
    · simp only [List.map_cons, List.sum_cons, ih]
      omega

/-- The counts add up to the number of the reports. -/
theorem sum_categoryCounts (rs : List Report) :
    ((categoryCounts rs).map Prod.snd).sum = rs.length := by
  induction rs using List.reverseRecOn with
  | nil => rfl
  | append_singleton rs r ih =>
    rw [categoryCounts, List.foldl_append, List.length_append, ← ih]
    exact sum_countOne _ _

/-! ### Lines -/

/-- The first line of the summary of `n` reports of one kind. -/
def summaryHeader (kind : Text) (n : Nat) : Text :=
  "You have " ++ kind ++ " from " ++ Text.ofNat n ++ " objects in groups:"

/-- The line for a category and its count. -/
def countLine (c : Text × Nat) : Text := "  " ++ c.1 ++ ": " ++ Text.ofNat c.2

/-- The lines tell of the reports of one kind: nothing where there are none, and else a header and
a line for each of the counts, with a line for each report from the second level of detail on. -/
structure SumsUp (detail : Int) (kind : Text) (rs : List Report) (counts : List (Text × Nat))
    (lines : List Text) : Prop where
  /-- The header tells the sum of the counts, and each of the next lines one of them. -/
  lines_eq : lines =
    if rs = [] then []
    else summaryHeader kind (counts.map Prod.snd).sum :: counts.map countLine ++
      if 1 < detail then rs.map (reportLine detail) else []
  /-- The sum of the counts is the number of the reports. -/
  total : (counts.map Prod.snd).sum = rs.length
  /-- The categories are those of the reports, each once, in the order of first occurrence. -/
  categories : counts.map Prod.fst = (rs.map Report.category).eraseDups
  /-- A count is the number of the reports of its category. -/
  count_eq : ∀ c ∈ counts, c.2 = (rs.map Report.category).count c.1

theorem sumsUp_summarizeKind (detail : Int) (kind : Text) (rs : List Report) :
    SumsUp detail kind rs (categoryCounts rs) (summarizeKind detail kind rs) where
  lines_eq := by
    rw [sum_categoryCounts, summarizeKind]
    rfl
  total := sum_categoryCounts rs
  categories := by
    rw [categoryCounts_eq, List.map_map]
    exact List.map_id _
  count_eq := by
    rw [categoryCounts_eq]
    exact List.forall_mem_map.2 fun k _ => rfl

/-- The summary tells of the infos first, and then of the errors. -/
theorem sumsUp_summarize {detail : Int} (h : 0 < detail) (rs : List Report) :
    ∃ infoCounts infoLines errorCounts errorLines,
      summarize detail rs = infoLines ++ errorLines ∧
        SumsUp detail "messages" (rs.filter fun r => r.severity = .info) infoCounts infoLines ∧
        SumsUp detail "errors" (rs.filter fun r => r.severity = .error) errorCounts errorLines := by
  refine ⟨_, _, _, _, ?_, sumsUp_summarizeKind detail _ _, sumsUp_summarizeKind detail _ _⟩
  rw [summarize, if_neg (Int.not_le.2 h)]

/-- Two categories, of which the first occurs again. -/
example :
    summarize 1
        [⟨.info, .nothing, "b", "1"⟩, ⟨.info, .nothing, "a", "2"⟩, ⟨.info, .nothing, "b", "3"⟩] =
      ["You have messages from 3 objects in groups:".toList, "  b: 2".toList, "  a: 1".toList] := by
  decide +kernel

end DocDecl

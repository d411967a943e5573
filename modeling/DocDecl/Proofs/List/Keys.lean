import Mathlib.Data.List.Induction
import Mathlib.Data.List.Nodup
import Mathlib.Data.List.Perm.Basic

/-!
# Lists by their keys

The keys of a list in the order of their first occurrence are the list of all keys without its
repetitions. Going through the distinct keys, and for each through the elements that have it, goes
through every element once. Going through all elements, where only some give anything, goes through
these.

## Main results

* `eraseDups_concat` : one more key comes last, unless it occurred before.
* `nodup_eraseDups` : no key is left twice.
* `eraseDups_map` : renamed keys.
* `flatMap_filter_perm` : going through the elements key by key loses none and repeats none.
* `flatMap_ite`, `flatMap_ite_singleton` : results for the elements that have some.
-/

namespace DocDecl

section Keys

variable {κ : Type} [BEq κ] [LawfulBEq κ]

theorem eraseDups_concat (ks : List κ) (k : κ) :
    (ks ++ [k]).eraseDups = if k ∈ ks then ks.eraseDups else ks.eraseDups ++ [k] := by
  rw [List.eraseDups_append]
  split_ifs with h
  · have hnil : [k].removeAll ks = [] := by simp [List.removeAll, h]
    rw [hnil, List.eraseDups_nil, List.append_nil]
  · have hone : [k].removeAll ks = [k] := by simp [List.removeAll, h]
    rw [hone]
    rfl

theorem nodup_eraseDups (ks : List κ) : ks.eraseDups.Nodup := by
  induction ks using List.reverseRecOn with
  | nil => exact List.nodup_nil
  | append_singleton ks k ih =>
    rw [eraseDups_concat]
    split_ifs with h
    · exact ih
    · rw [← List.concat_eq_append, List.nodup_concat]
      exact ⟨fun hk => h (List.mem_eraseDups.1 hk), ih⟩

/-- Keys that are renamed without becoming equal. -/
theorem eraseDups_map {κ' : Type} [BEq κ'] [LawfulBEq κ'] {f : κ → κ'} {ks : List κ}
    (hf : ∀ k ∈ ks, ∀ k' ∈ ks, f k = f k' → k = k') :
    (ks.map f).eraseDups = ks.eraseDups.map f := by
  induction ks using List.reverseRecOn with
  | nil => rfl
  | append_singleton ks k ih =>
    have hk : f k ∈ ks.map f ↔ k ∈ ks := by
      rw [List.mem_map]
      constructor
      · rintro ⟨k', hk', h⟩
        rw [← hf k' (List.mem_append_left _ hk') k (by simp) h]
        exact hk'
      · exact fun h => ⟨k, h, rfl⟩
    have ih := ih fun a ha b hb => hf a (List.mem_append_left _ ha) b (List.mem_append_left _ hb)
    simp only [List.map_append, List.map_cons, List.map_nil, eraseDups_concat, hk, ih]
    split_ifs
    · rfl
    · rw [List.map_append, List.map_singleton]

end Keys

/-- The elements with one of some distinct keys, key by key. -/
theorem flatMap_filter_perm {α κ : Type} [DecidableEq κ] (key : α → κ) (as : List α) {ks : List κ}
    (hks : ks.Nodup) :
    (ks.flatMap fun k => as.filter fun a => key a = k).Perm (as.filter fun a => key a ∈ ks) := by
  induction ks with
  | nil => simp
  | cons k ks ih =>
    obtain ⟨hk, hks⟩ := List.nodup_cons.1 hks
    have hhead : (as.filter fun a => key a ∈ k :: ks).filter (fun a => key a = k) =
        as.filter fun a => key a = k := by
      rw [List.filter_filter]
      refine List.filter_congr fun a _ => ?_
      by_cases ha : key a = k <;> simp [ha]
    have htail : (as.filter fun a => key a ∈ k :: ks).filter (fun a => !decide (key a = k)) =
        as.filter fun a => key a ∈ ks := by
      rw [List.filter_filter]
      refine List.filter_congr fun a _ => ?_
      by_cases ha : key a = k
      · simp [ha, hk]
      · simp [ha]
    have hsplit := List.filter_append_perm (fun a => decide (key a = k))
      (as.filter fun a => key a ∈ k :: ks)
    rw [hhead, htail] at hsplit
    rw [List.flatMap_cons]
    exact ((ih hks).append_left _).trans hsplit

/-- Results for the elements that have some. -/
theorem flatMap_ite {α β : Type} (p : α → Bool) (f : α → List β) (as : List α) :
    (as.flatMap fun a => if p a then f a else []) = (as.filter p).flatMap f := by
  induction as with
  | nil => rfl
  | cons a as ih =>
    rw [List.flatMap_cons, ih, List.filter_cons]
    split_ifs <;> rfl

/-- One result for each element that has one. -/
theorem flatMap_ite_singleton {α β : Type} (p : α → Bool) (f : α → β) (as : List α) :
    (as.flatMap fun a => if p a then [f a] else []) = (as.filter p).map f := by
  rw [flatMap_ite, List.map_eq_flatMap]

end DocDecl

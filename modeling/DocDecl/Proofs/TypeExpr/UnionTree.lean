import DocDecl.Proofs.TypeExpr.Alternatives

/-!
# Unions of unions

A union is written with bars between its alternatives, and an alternative that is a union itself
stands in round brackets. Blanks may stand around the bars and inside the brackets. The form of such
a type is the same tree without these blanks, where every leaf is in its form. An alternative is a
closed piece, whatever stands in it, so the bars of a union are found outside of all of them, and
the brackets around all of a text are told from those around its first and its last alternative.

## Main definitions

* `UnionTree`, `Alternative` : unions as they are written.
* `UnionTree.text` : the text of a union, with or without the blanks.

## Main results

* `UnionTree.splitTopLevel_text` : the alternatives that are read.
* `UnionTree.declaredType_text` : the form of a union.
-/

namespace DocDecl

open LiteralGrammar Text

/-! ### Unions as they are written -/

/-- A leaf of a union: a type without brackets, quotes, slashes and bars, which is not empty and
neither begins nor ends with a blank. -/
structure UnionLeaf where
  /-- Its text. -/
  text : Text
  ne_nil : text ≠ []
  trim_eq : trim text = text
  unmarked : ∀ c ∈ text, isMark c = false ∧ c ≠ '|'

/-- Blanks that may be left out. -/
structure Gap where
  /-- Their text. -/
  text : Text
  isBlank_of_mem : ∀ c ∈ text, isBlank c = true

mutual

/-- An alternative as it is written: a leaf, or a union in round brackets. -/
inductive Alternative where
  | leaf (l : UnionLeaf)
  | union (before : Gap) (u : UnionTree) (after : Gap)

/-- A union as it is written: two alternatives or more, with a bar between each two. -/
inductive UnionTree where
  | pair (x : Alternative) (before after : Gap) (y : Alternative)
  | cons (x : Alternative) (before after : Gap) (u : UnionTree)

end

/-- A bar between its blanks. -/
def barText (blanks : Bool) (before after : Gap) : Text :=
  onlyIf blanks before.text ++ '|' :: onlyIf blanks after.text

mutual

/-- The text of an alternative, with or without the blanks, where `leaf` gives what is written for a
leaf. -/
def Alternative.text (blanks : Bool) (leaf : Text → Text) : Alternative → Text
  | .leaf l => leaf l.text
  | .union before u after =>
    '(' :: (onlyIf blanks before.text ++ (u.text blanks leaf ++ onlyIf blanks after.text) ++ [')'])

/-- The text of a union, with or without the blanks, where `leaf` gives what is written for a
leaf. -/
def UnionTree.text (blanks : Bool) (leaf : Text → Text) : UnionTree → Text
  | .pair x before after y =>
    x.text blanks leaf ++ (barText blanks before after ++ y.text blanks leaf)
  | .cons x before after u =>
    x.text blanks leaf ++ (barText blanks before after ++ u.text blanks leaf)

end

/-- The alternatives of a union. -/
def UnionTree.alternatives : UnionTree → List Alternative
  | .pair x _ _ y => [x, y]
  | .cons x _ _ u => x :: u.alternatives

/-! ### Balanced text -/

namespace Gap

variable (g : Gap)

theorem all_isBlank : g.text.all isBlank = true := List.all_eq_true.2 g.isBlank_of_mem

theorem unmarked : ∀ c ∈ g.text, isMark c = false ∧ c ≠ '|' := by
  intro c hc
  have hblank := g.isBlank_of_mem c hc
  refine ⟨isMark_of_isBlank hblank, ?_⟩
  rintro rfl
  exact absurd hblank (by decide)

/-- A blank opens no comment. -/
theorem noComment_append {t : Text} (ht : NoComment t) : NoComment (g.text ++ t) := by
  cases h : g.text with
  | nil => exact ht
  | cons c w =>
    have hblank := g.isBlank_of_mem c (h ▸ List.mem_cons_self)
    constructor
    all_goals
      intro hc
      obtain rfl := Option.some.inj hc
      exact absurd hblank (by decide)

end Gap

theorem Balanced.unmarked_append {w t : Text} (hw : ∀ c ∈ w, isMark c = false ∧ c ≠ '|')
    (ht : Balanced true t) : Balanced true (w ++ t) :=
  .plain_append (List.all_eq_true.2 fun c hc => by simp [(hw c hc).1]) (fun _ => rfl) ht

/-- Balanced text on both sides of a bar. -/
theorem balanced_barText {s t : Text} (hs : Balanced true s) (ht : Balanced true t)
    (before after : Gap) : Balanced true (s ++ (barText true before after ++ t)) := by
  have hbar : Balanced true ('|' :: (after.text ++ t)) :=
    .plain (by decide) (fun _ => rfl) (.unmarked_append after.unmarked ht)
  have htext : barText true before after ++ t = before.text ++ '|' :: (after.text ++ t) := by
    simp [barText, onlyIf]
  rw [htext]
  exact hs.append (.unmarked_append before.unmarked hbar)
    (before.noComment_append ⟨by simp, by simp⟩)

/-- Balanced text between blanks. -/
theorem balanced_gaps {t : Text} (ht : Balanced true t) (before after : Gap) :
    Balanced true (before.text ++ (t ++ after.text)) := by
  have hafter := Balanced.unmarked_append after.unmarked .nil
  have hnone := after.noComment_append (t := []) ⟨by simp, by simp⟩
  rw [List.append_nil] at hafter hnone
  exact .unmarked_append before.unmarked (ht.append hafter hnone)

mutual

theorem Alternative.balanced_text (x : Alternative) : Balanced true (x.text true id) := by
  cases x with
  | leaf l =>
    have h := Balanced.unmarked_append l.unmarked .nil
    rwa [List.append_nil] at h
  | union before u after => exact .group rfl (balanced_gaps u.balanced_text before after) .nil

theorem UnionTree.balanced_text (u : UnionTree) : Balanced true (u.text true id) := by
  cases u with
  | pair x before after y => exact balanced_barText x.balanced_text y.balanced_text before after
  | cons x before after u => exact balanced_barText x.balanced_text u.balanced_text before after

end

/-! ### The alternatives that are read -/

namespace Alternative

variable (x : Alternative)

/-- No bar of an alternative separates. -/
theorem isClosedPiece_text : IsClosedPiece '|' (x.text true id) := by
  cases x with
  | leaf l => exact isClosedPiece_of_unmarked l.unmarked
  | union before u after =>
    exact (balanced_gaps u.balanced_text before after).isClosedPiece_group rfl '|'

theorem trim_text : trim (x.text true id) = x.text true id := by
  cases x with
  | leaf l => exact l.trim_eq
  | union before u after => exact trim_parenthesised _

theorem text_ne_nil : x.text true id ≠ [] := by
  cases x with
  | leaf l => exact l.ne_nil
  | union before u after => exact List.cons_ne_nil _ _

/-- An alternative between blanks is a closed piece. -/
theorem isClosedPiece_gaps (before after : Gap) :
    IsClosedPiece '|' (before.text ++ (x.text true id ++ after.text)) :=
  (isClosedPiece_of_unmarked before.unmarked).append
    (x.isClosedPiece_text.append (isClosedPiece_of_unmarked after.unmarked))

theorem trim_gaps (before after : Gap) :
    trim (before.text ++ (x.text true id ++ after.text)) = x.text true id := by
  rw [trim_blanks_append before.all_isBlank, trim_append_blanks after.all_isBlank, trim_text]

end Alternative

namespace UnionTree

/-- The first alternative of several. -/
theorem splitTopLevel_first (x : Alternative) (before before' after' : Gap) (t : Text) :
    splitTopLevel (some '|')
        (before.text ++ (x.text true id ++ (barText true before' after' ++ t))) =
      x.text true id :: splitTopLevel (some '|') (after'.text ++ t) := by
  have hsplit := (x.isClosedPiece_gaps before before').splitTopLevel_append_cons (by decide)
    (by rw [x.trim_gaps]; exact x.text_ne_nil) (after'.text ++ t)
  rw [x.trim_gaps] at hsplit
  simpa [barText, onlyIf] using hsplit

/-- The last alternative. -/
theorem splitTopLevel_last (x : Alternative) (before after : Gap) :
    splitTopLevel (some '|') (before.text ++ (x.text true id ++ after.text)) =
      [x.text true id] := by
  have htrim := x.trim_gaps before after
  rw [splitTopLevel_of_isPiece (x.isClosedPiece_gaps before after).isPiece
    (by rw [htrim]; exact x.text_ne_nil), htrim]

/-- The alternatives are read one by one, without the blanks around them. -/
theorem splitTopLevel_text (u : UnionTree) (before after : Gap) :
    splitTopLevel (some '|') (before.text ++ (u.text true id ++ after.text)) =
      u.alternatives.map (Alternative.text true id) := by
  cases u with
  | pair x b a y =>
    rw [text, List.append_assoc, List.append_assoc, splitTopLevel_first, splitTopLevel_last]
    rfl
  | cons x b a u =>
    rw [text, List.append_assoc, List.append_assoc, splitTopLevel_first, splitTopLevel_text u]
    rfl

theorem one_lt_length_alternatives (u : UnionTree) : 1 < u.alternatives.length := by
  cases u with
  | pair x b a y => exact Nat.lt_add_one 1
  | cons x b a u => exact Nat.lt_succ_of_lt (one_lt_length_alternatives u)

/-- Without the blanks, the alternatives have only bars between them. -/
theorem text_false (leaf : Text → Text) (u : UnionTree) :
    u.text false leaf = join "|" (u.alternatives.map (Alternative.text false leaf)) := by
  cases u with
  | pair x b a y => simp [text, alternatives, barText, onlyIf, join, List.intercalate]
  | cons x b a u =>
    have hne : u.alternatives.map (Alternative.text false leaf) ≠ [] :=
      List.ne_nil_of_length_pos (by
        rw [List.length_map]
        exact Nat.lt_of_succ_lt u.one_lt_length_alternatives)
    rw [text, text_false leaf u, alternatives, List.map_cons, join_cons hne, List.append_assoc]
    rfl

theorem text_ne_nil (u : UnionTree) : u.text true id ≠ [] := by
  cases u with
  | pair x b a y => exact List.append_ne_nil_of_left_ne_nil x.text_ne_nil _
  | cons x b a u => exact List.append_ne_nil_of_left_ne_nil x.text_ne_nil _

/-- A union begins and ends with an alternative. -/
theorem trim_text (u : UnionTree) : trim (u.text true id) = u.text true id := by
  have hfirst (x : Alternative) {t : Text} (ht : trimRight t = t) (hne : t ≠ []) (b a : Gap) :
      trim (x.text true id ++ (barText true b a ++ t)) =
        x.text true id ++ (barText true b a ++ t) := by
    rw [trim_append_of_eq x.trim_text x.text_ne_nil, trimRight_append, ht, if_neg hne]
  cases u with
  | pair x b a y => exact hfirst x (trim_eq_self_iff.1 y.trim_text).2 y.text_ne_nil b a
  | cons x b a u => exact hfirst x (trim_eq_self_iff.1 (trim_text u)).2 u.text_ne_nil b a

end UnionTree

/-! ### The form of a union -/

section Form

variable {u : UnionTree}

/-- The form of a union without brackets, from the forms of its alternatives. -/
theorem declaredType_alternatives
    (h : u.alternatives.map (fun x => declaredType (x.text true id)) =
      u.alternatives.map (Alternative.text false declaredType)) :
    declaredType (u.text true id) = u.text false declaredType := by
  have hsplit : splitTopLevel (some '|') (u.text true id) =
      u.alternatives.map (Alternative.text true id) := by
    simpa using u.splitTopLevel_text ⟨[], by simp⟩ ⟨[], by simp⟩
  have hlength := u.one_lt_length_alternatives
  rw [← List.length_map (Alternative.text true id), ← hsplit] at hlength
  rw [declaredType_union u.trim_text u.balanced_text hlength, hsplit, List.map_map,
    UnionTree.text_false, ← h]
  rfl

/-- The form of a union in brackets, from the forms of its alternatives. -/
theorem declaredType_brackets (before after : Gap)
    (h : u.alternatives.map (fun x => declaredType (x.text true id)) =
      u.alternatives.map (Alternative.text false declaredType)) :
    declaredType ((Alternative.union before u after).text true id) =
      (Alternative.union before u after).text false declaredType := by
  have hsplit := u.splitTopLevel_text before after
  have hbody := (balanced_gaps u.balanced_text before after).groupBody
  have hlength := u.one_lt_length_alternatives
  rw [← List.length_map (Alternative.text true id), ← hsplit] at hlength
  have hform := declaredType_parenthesised hbody hlength
  rw [hsplit, List.map_map] at hform
  have hmap : u.alternatives.map (declaredType ∘ Alternative.text true id) =
      u.alternatives.map (Alternative.text false declaredType) := h
  rw [hmap, ← UnionTree.text_false] at hform
  simpa [Alternative.text, onlyIf] using hform

end Form

mutual

/-- The form of an alternative has the forms of its leaves, and no blanks between them. -/
theorem Alternative.declaredType_eq (x : Alternative) :
    declaredType (x.text true id) = x.text false declaredType := by
  cases x with
  | leaf l => rfl
  | union before u after => exact declaredType_brackets before after u.map_declaredType

theorem UnionTree.map_declaredType (u : UnionTree) :
    u.alternatives.map (fun x => declaredType (x.text true id)) =
      u.alternatives.map (Alternative.text false declaredType) := by
  cases u with
  | pair x b a y =>
    rw [UnionTree.alternatives, List.map_cons, List.map_cons, x.declaredType_eq, y.declaredType_eq]
    rfl
  | cons x b a u =>
    rw [UnionTree.alternatives, List.map_cons, x.declaredType_eq, u.map_declaredType]
    rfl

end

/-- The form of a union, with or without brackets around all of it, is the same tree with the forms
of its leaves, and without the blanks around the bars and inside the brackets. -/
theorem UnionTree.declaredType_text (u : UnionTree) (before after : Gap) :
    declaredType (u.text true id) = u.text false declaredType ∧
      declaredType ((Alternative.union before u after).text true id) =
        (Alternative.union before u after).text false declaredType :=
  ⟨declaredType_alternatives u.map_declaredType,
    declaredType_brackets before after u.map_declaredType⟩

end DocDecl

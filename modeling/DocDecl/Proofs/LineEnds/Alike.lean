import DocDecl.Grouping.Modules
import DocDecl.Proofs.Layout.NormalForm
import DocDecl.Proofs.LineEnds.Text

/-!
# Texts that are alike up to carriage returns

Texts that are generated from a source and from the source with carriage returns differ at most in
carriage returns in front of line feeds. None of these stands behind a carriage return, so the
normal form takes exactly these away. Whether one may stand at the beginning of a text depends on
what is put in front of it.

Indenting and exporting go line by line, and a line is treated alike with a carriage return at its
end. Only taking line feeds away from the end tells the two texts apart, unless they do not end with
one.

## Main definitions

* `Alike` : texts that are the same but for carriage returns in front of line feeds.
* `AlikeToEnd` : such texts that do not end with a line feed, unless they are equal.

## Main results

* `Alike.append`, `Alike.join` : texts that are put together.
* `Alike.mapLines` : texts that are changed line by line.
* `Alike.unixLines_eq`, `Alike.normalForm_eq` : their normal form is the same.
-/

namespace DocDecl

open Text

/-- The second text is the first with carriage returns in front of some line feeds, none of them
behind another carriage return. The truth value tells whether one may stand at the beginning. -/
inductive Alike : Bool → Text → Text → Prop
  | nil (b : Bool) : Alike b [] []
  | cons (b : Bool) (c : Char) {t t' : Text} (h : Alike (c != '\r') t t') :
      Alike b (c :: t) (c :: t')
  | feed {t t' : Text} (h : Alike true t t') : Alike true ('\n' :: t) ('\r' :: '\n' :: t')

/-- Whether a carriage return may stand behind a text, given whether one may stand in front. -/
def behind (b : Bool) (t : Text) : Bool := (t.getLast?.map (· != '\r')).getD b

theorem behind_cons (b : Bool) (c : Char) (t : Text) :
    behind b (c :: t) = behind (c != '\r') t := by
  rw [behind, behind, List.getLast?_cons]
  cases t.getLast? <;> rfl

theorem behind_append (b : Bool) (s t : Text) : behind b (s ++ t) = behind (behind b s) t := by
  rw [behind, behind, behind, List.getLast?_append]
  cases t.getLast? <;> rfl

namespace Alike

variable {b : Bool} {s s' t t' : Text}

theorem refl (b : Bool) (t : Text) : Alike b t t := by
  induction t generalizing b with
  | nil => exact .nil b
  | cons c t ih => exact .cons b c (ih _)

theorem mono (h : Alike false t t') : Alike b t t' := by
  cases h with
  | nil => exact .nil b
  | cons _ c h => exact .cons b c h

/-- A text with carriage returns at all its line ends, if it had none before. -/
theorem dosLines (h : '\r' ∉ t) : Alike true t (dosLines t) := by
  induction t using Text.feed_induction with
  | nil => exact .nil true
  | feed t ih => exact .feed (ih fun hr => h (List.mem_cons_of_mem _ hr))
  | cons c t hc ih =>
    rw [List.mem_cons, not_or] at h
    rw [dosLines_cons hc]
    refine .cons true c ?_
    rw [bne_iff_ne.2 (Ne.symm h.1)]
    exact ih h.2

/-! ### Their ends -/

theorem eq_nil_iff (h : Alike b t t') : t' = [] ↔ t = [] := by
  cases h <;> simp

theorem getLast?_eq (h : Alike b t t') : t'.getLast? = t.getLast? := by
  induction h with
  | nil => rfl
  | cons b c _ ih => rw [List.getLast?_cons, List.getLast?_cons, ih]
  | feed _ ih => rw [List.getLast?_cons_cons, List.getLast?_cons, List.getLast?_cons, ih]

/-! ### Putting texts together -/

theorem append_left (s : Text) (h : Alike (behind b s) t t') : Alike b (s ++ t) (s ++ t') := by
  induction s generalizing b with
  | nil => exact h
  | cons c s ih =>
    rw [behind_cons] at h
    exact .cons b c (ih h)

theorem append (hs : Alike b s s') (ht : Alike false t t') : Alike b (s ++ t) (s' ++ t') := by
  induction hs with
  | nil b => exact ht.mono
  | cons b c _ ih => exact .cons b c ih
  | feed _ ih => exact .feed ih

theorem join (sep : Text) {ts ts' : List Text} (h : List.Forall₂ (Alike false) ts ts') :
    Alike false (join sep ts) (Text.join sep ts') := by
  induction h with
  | nil => exact .refl _ _
  | @cons t t' ts ts' ht hts ih =>
    cases hts with
    | nil => simpa [Text.join, List.intercalate] using ht
    | cons hu hus =>
      rw [join_cons (List.cons_ne_nil _ _), join_cons (List.cons_ne_nil _ _)]
      exact (ht.append (.refl _ _)).append ih

theorem withFeeds {ts ts' : List Text} (h : List.Forall₂ (Alike false) ts ts') :
    Alike false (withFeeds ts) (DocDecl.withFeeds ts') := by
  induction h with
  | nil => exact .refl _ _
  | cons ht _ ih => exact (ht.append (.refl _ _)).append ih

/-! ### Trimming -/

theorem trimLeft (h : Alike b t t') : Alike false (trimLeft t) (Text.trimLeft t') := by
  induction h with
  | nil => exact .nil _
  | cons b c h ih =>
    rw [Text.trimLeft, Text.trimLeft, List.dropWhile_cons, List.dropWhile_cons]
    split_ifs
    · exact ih
    · exact .cons _ c h
  | feed _ ih => exact ih

theorem trimRight (h : Alike b t t') : Alike b (trimRight t) (Text.trimRight t') := by
  induction h with
  | nil => exact .nil _
  | @cons b c t t' _ ih =>
    rw [Text.trimRight, Text.trimRight]
    cases hr : Text.trimRight t with
    | nil =>
      rw [hr] at ih
      rw [ih.eq_nil_iff.2 rfl]
      exact .refl _ _
    | cons d r =>
      rw [hr] at ih
      cases hr' : Text.trimRight t' with
      | nil => exact absurd (ih.eq_nil_iff.1 hr') (List.cons_ne_nil d r)
      | cons d' r' => exact .cons b c (hr' ▸ ih)
  | @feed t t' _ ih =>
    rw [Text.trimRight, Text.trimRight, Text.trimRight]
    cases hr : Text.trimRight t with
    | nil =>
      rw [hr] at ih
      rw [ih.eq_nil_iff.2 rfl]
      exact .refl _ _
    | cons d r =>
      rw [hr] at ih
      cases hr' : Text.trimRight t' with
      | nil => exact absurd (ih.eq_nil_iff.1 hr') (List.cons_ne_nil d r)
      | cons d' r' => exact .feed (hr' ▸ ih)

theorem trim (h : Alike b t t') : Alike false (trim t) (Text.trim t') := h.trimLeft.trimRight

/-! ### Line by line -/

theorem eq_of_oneLine (h : Alike b t t') (ht : '\n' ∉ t) : t' = t := by
  induction h with
  | nil => rfl
  | cons b c _ ih => rw [ih fun hn => ht (List.mem_cons_of_mem c hn)]
  | feed => exact absurd List.mem_cons_self ht

/-- The first line may have a carriage return at its end. -/
theorem first_line {l u : Text} (hl : '\n' ∉ l) (h : Alike b (l ++ '\n' :: u) t') :
    ∃ u', Alike true u u' ∧
      (t' = l ++ '\n' :: u' ∨ behind b l = true ∧ t' = (l ++ ['\r']) ++ '\n' :: u') := by
  induction l generalizing b t' with
  | nil =>
    cases h with
    | @cons _ _ _ u' h => exact ⟨u', h, .inl rfl⟩
    | @feed _ u' h => exact ⟨u', h, .inr ⟨rfl, rfl⟩⟩
  | cons c l ih =>
    rw [List.mem_cons, not_or] at hl
    cases h with
    | cons _ _ h =>
      obtain ⟨u', hu, rfl | ⟨hb, rfl⟩⟩ := ih hl.2 h
      · exact ⟨u', hu, .inl rfl⟩
      · exact ⟨u', hu, .inr ⟨behind_cons b c l ▸ hb, rfl⟩⟩
    | feed => exact absurd rfl hl.1

theorem unlines_map_line (f : Text → Text) {l : Text} (hl : '\n' ∉ l) (u : Text) :
    unlines ((lines (l ++ '\n' :: u)).map f) = f l ++ '\n' :: unlines ((lines u).map f) := by
  rw [lines_line hl, List.map_cons, unlines, join_cons, List.append_assoc]
  · rfl
  · rw [ne_eq, List.map_eq_nil_iff]
    exact splitOn_ne_nil _ _

/-- A change of each line that drops a carriage return at the end of the line, or keeps it. -/
theorem mapLines {f : Text → Text}
    (hf : ∀ l, f (l ++ ['\r']) = f l ∨
      f (l ++ ['\r']) = f l ++ ['\r'] ∧ ∀ b, behind b l = true → behind b (f l) = true)
    (h : Alike b t t') :
    Alike b (unlines ((lines t).map f)) (unlines ((lines t').map f)) := by
  induction t using Text.line_induction generalizing b t' with
  | last l hl =>
    rw [h.eq_of_oneLine hl]
    exact .refl _ _
  | line l u hl ih =>
    obtain ⟨u', hu, rfl | ⟨hb, rfl⟩⟩ := h.first_line hl
    · rw [unlines_map_line f hl, unlines_map_line f hl]
      exact append_left _ (.cons _ _ (ih hu))
    · rw [unlines_map_line f hl, unlines_map_line f (by simp [hl])]
      rcases hf l with hl | ⟨hl, hbehind⟩
      · rw [hl]
        exact append_left _ (.cons _ _ (ih hu))
      · rw [hl, List.append_assoc]
        refine append_left _ ?_
        rw [hbehind b hb]
        exact .feed (ih hu)

theorem indentLines (tab : Text) (h : Alike b t t') :
    Alike false (indentLines tab t) (DocDecl.indentLines tab t') := by
  refine h.trim.mapLines fun l => ?_
  have hblank : isBlankText (l ++ ['\r']) = isBlankText l := by
    rw [isBlankText, List.all_append, isBlankText]
    exact Bool.and_true _
  simp only [hblank]
  split_ifs with hl
  · exact .inl rfl
  · refine .inr ⟨(List.append_assoc ..).symm, fun b hb => ?_⟩
    rw [behind_append]
    cases hlast : l.getLast? with
    | none => simp [List.getLast?_eq_none_iff.1 hlast, isBlankText] at hl
    | some c => simpa [behind, hlast] using hb

theorem exportAmbientLine_concat_return (l : Text) :
    exportAmbientLine (l ++ ['\r']) = exportAmbientLine l ++ ['\r'] := by
  rw [exportAmbientLine, exportAmbientLine, after?_concat (by simp)]
  cases h : after? "declare function" l with
  | none => rfl
  | some r =>
    cases r with
    | nil => rfl
    | cons c r => cases hc : isWordChar c <;> simp [hc]

theorem behind_exportAmbientLine (b : Bool) (l : Text) :
    behind b (exportAmbientLine l) = behind b l := by
  rw [exportAmbientLine]
  cases h : after? "declare function" l with
  | none => rfl
  | some r =>
    simp only
    split_ifs
    · rfl
    · rw [after?_eq_some_iff.1 h, behind_append, behind_append]
      exact congrArg (behind · r) (by cases b <;> rfl)

theorem exportAmbient (h : Alike b t t') :
    Alike b (exportAmbient t) (DocDecl.exportAmbient t') :=
  h.mapLines fun l => .inr ⟨exportAmbientLine_concat_return l,
    fun b hb => (behind_exportAmbientLine b l).trans hb⟩

/-! ### The normal form -/

theorem unixLines_eq (h : Alike b t t') : unixLines t' = unixLines t := by
  induction h with
  | nil => rfl
  | @cons b c t t' h ih =>
    by_cases hc : c = '\r' ∧ t.head? = some '\n'
    · -- a carriage return that both texts have
      obtain ⟨rfl, ht⟩ := hc
      obtain ⟨u, rfl⟩ := List.head?_eq_some_iff.1 ht
      have h : Alike false ('\n' :: u) t' := h
      cases h
      rw [unixLines_cons (by simp), unixLines_cons (by simp)] at ih
      rw [unixLines_returnFeed, unixLines_returnFeed]
      exact ih
    · have hc' : ¬(c = '\r' ∧ t'.head? = some '\n') := by
        rintro ⟨rfl, ht⟩
        have h : Alike false t t' := h
        cases h with
        | nil => simp at ht
        | cons _ d _ => exact hc ⟨rfl, ht⟩
      rw [unixLines_cons hc, unixLines_cons hc', ih]
  | @feed t t' h ih => rw [unixLines_returnFeed, unixLines_cons (by simp), if_neg (by decide), ih]

theorem normalForm_eq (h : Alike b t t') : normalForm t' = normalForm t := by
  rw [normalForm, normalForm, h.unixLines_eq]

end Alike

/-! ### Without line feeds at the end -/

/-- Texts that are alike, and equal where they end with a line feed. -/
structure AlikeToEnd (t t' : Text) : Prop where
  alike : Alike false t t'
  eq_of_feed : t.getLast? = some '\n' → t' = t

namespace AlikeToEnd

variable {t t' : Text}

theorem refl (t : Text) : AlikeToEnd t t := ⟨.refl _ t, fun _ => rfl⟩

theorem append_left (s : Text) (h : AlikeToEnd t t') : AlikeToEnd (s ++ t) (s ++ t') := by
  refine ⟨(Alike.refl _ s).append h.alike, fun hlast => ?_⟩
  cases hl : t.getLast? with
  | none => rw [h.alike.eq_nil_iff.2 (List.getLast?_eq_none_iff.1 hl),
      List.getLast?_eq_none_iff.1 hl]
  | some c =>
    rw [List.getLast?_append, hl] at hlast
    rw [h.eq_of_feed (hl.trans hlast)]

theorem trimFeeds_eq_self (h : t.getLast? ≠ some '\n') : trimFeeds t = t := by
  induction t with
  | nil => rfl
  | cons c t ih =>
    cases t with
    | nil =>
      have hc : c ≠ '\n' := by simpa using h
      exact if_neg hc
    | cons d t =>
      rw [List.getLast?_cons_cons] at h
      rw [trimFeeds, ih h]

theorem trimFeeds (h : AlikeToEnd t t') : Alike false (trimFeeds t) (DocDecl.trimFeeds t') := by
  by_cases hlast : t.getLast? = some '\n'
  · rw [h.eq_of_feed hlast]
    exact .refl _ _
  · rw [trimFeeds_eq_self hlast, trimFeeds_eq_self (by rwa [h.alike.getLast?_eq])]
    exact h.alike

end AlikeToEnd

end DocDecl

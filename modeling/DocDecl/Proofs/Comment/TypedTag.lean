import DocDecl.Comment.Cleaning
import DocDecl.Proofs.Delimiter.Group
import DocDecl.Proofs.Text.Classes
import DocDecl.Proofs.Text.Trim

/-!
# The type behind a typed tag

A line with a parameter or return tag loses the type in braces that follows its first typed tag.
Blanks around the line do not matter to this, and the line that remains has a type again exactly
where one type directly followed the other.

## Main definitions

* `typedTags` : the typed tags with the margin star in front of them.
* `afterType?` : what follows the type that a text begins with.
* `cutAtType?` : a line before and behind the type of its first typed tag.

## Main results

* `afterTypedTag?_eq_some_iff` : typed tags at the beginning of a line.
* `cutAtType?_blanks_append`, `cutAtType?_append_blanks` : blanks around a line.
* `isSome_cutAtType?_of_cut` : a line that has lost a type has another one.
-/

namespace DocDecl

open Text

variable {l r s t w : Text} {c : Char} {names : List Text}

/-! ### Tags -/

theorem afterAt?_cons (name : Text) (names : List Text) (t : Text) :
    Tag.afterAt? (name :: names) t =
      ((after? ('@' :: name) t).filter endsWord).or (Tag.afterAt? names t) := by
  rw [Tag.afterAt?, List.findSome?_cons, Tag.afterAt?]
  cases (after? ('@' :: name) t).filter endsWord <;> rfl

/-- A tag begins with an at sign. -/
theorem afterAt?_cons_of_ne (h : c ≠ '@') (t : Text) : Tag.afterAt? names (c :: t) = none := by
  rw [Tag.afterAt?, List.findSome?_eq_none_iff]
  intro name _
  rw [after?, if_neg (Ne.symm h)]
  rfl

theorem dropWhile_isNameChar (hs : s.all isNameChar = true) (hr : endsWord r = true) :
    (s ++ r).dropWhile isNameChar = r := by
  refine (span_append hs ?_).2
  cases r with
  | nil => simp
  | cons c r => simpa [endsWord] using hr

/-- What follows one of several tags. No name of a tag goes on where another one ends. -/
theorem afterAt?_eq_some_iff (hn : ∀ name ∈ names, name.all isNameChar = true) :
    Tag.afterAt? names t = some r ↔
      ∃ name ∈ names, t = '@' :: (name ++ r) ∧ endsWord r = true := by
  induction names with
  | nil => simp [Tag.afterAt?]
  | cons name names ih =>
    obtain ⟨hname, hn⟩ := List.forall_mem_cons.1 hn
    have hhead {x : Text} : (after? ('@' :: name) t).filter endsWord = some x ↔
        t = '@' :: (name ++ x) ∧ endsWord x = true := by
      rw [Option.filter_eq_some_iff, after?_eq_some_iff, List.cons_append]
    rw [afterAt?_cons, Option.or_eq_some_iff, ih hn, hhead, List.exists_mem_cons_iff]
    constructor
    · rintro (h | ⟨-, h⟩)
      · exact .inl h
      · exact .inr h
    · rintro (h | ⟨name', hmem, ht, hr⟩)
      · exact .inl h
      · cases hx : (after? ('@' :: name) t).filter endsWord with
        | none => exact .inr ⟨rfl, name', hmem, ht, hr⟩
        | some x =>
          obtain ⟨hx, hend⟩ := hhead.1 hx
          have hxr : x = r := by
            rw [← dropWhile_isNameChar hname hend, ← dropWhile_isNameChar (hn name' hmem) hr]
            rw [hx, List.cons.injEq] at ht
            rw [ht.2]
          exact .inl (hxr ▸ ⟨hx, hend⟩)

/-! ### Typed tags -/

/-- The typed tags with the margin star in front of them. -/
def typedTags : List Text :=
  (["param", "returns", "return"] : List Text).map fun name => '*' :: ' ' :: '@' :: name

theorem exists_eq_cons_of_mem_typedTags (h : w ∈ typedTags) : ∃ u, w = '*' :: u ∧ '*' ∉ u := by
  simp only [typedTags, List.map_cons, List.map_nil, List.mem_cons, List.not_mem_nil,
    or_false] at h
  rcases h with rfl | rfl | rfl
  all_goals exact ⟨_, rfl, by decide⟩

theorem exists_getLast?_of_mem_typedTags (h : w ∈ typedTags) :
    ∃ c, w.getLast? = some c ∧ isNameChar c = true := by
  simp only [typedTags, List.map_cons, List.map_nil, List.mem_cons, List.not_mem_nil,
    or_false] at h
  rcases h with rfl | rfl | rfl
  all_goals exact ⟨_, rfl, by decide +kernel⟩

/-- What follows a typed tag with the margin star in front of it. -/
def afterTypedTag? (l : Text) : Option Text :=
  (after? "* " l).bind (Tag.afterAt? ["param", "returns", "return"])

theorem afterTypedTag?_eq_some_iff :
    afterTypedTag? l = some r ↔ ∃ w ∈ typedTags, l = w ++ r ∧ endsWord r = true := by
  have hname : ∀ name ∈ (["param", "returns", "return"] : List Text),
      name.all isNameChar = true := by decide +kernel
  rw [afterTypedTag?, Option.bind_eq_some_iff]
  simp only [after?_eq_some_iff, afterAt?_eq_some_iff hname]
  constructor
  · rintro ⟨u, rfl, name, hmem, rfl, hr⟩
    exact ⟨_, List.mem_map_of_mem hmem, rfl, hr⟩
  · rintro ⟨w, hw, rfl, hr⟩
    obtain ⟨name, hmem, rfl⟩ := List.mem_map.1 hw
    exact ⟨'@' :: (name ++ r), rfl, name, hmem, rfl, hr⟩

theorem endsWord_concat_blank (hc : isBlank c = true) (t : Text) :
    endsWord (t ++ [c]) = endsWord t := by
  cases t with
  | nil => simp [endsWord, isNameChar_of_isBlank hc]
  | cons d t => rfl

theorem afterTypedTag?_concat_blank (hc : isBlank c = true) (l : Text) :
    afterTypedTag? (l ++ [c]) = (afterTypedTag? l).map (· ++ [c]) := by
  ext r
  simp only [Option.map_eq_some_iff, afterTypedTag?_eq_some_iff]
  constructor
  · rintro ⟨w, hw, hl, hr⟩
    obtain ⟨d, hlast, hd⟩ := exists_getLast?_of_mem_typedTags hw
    cases r using List.reverseRec with
    | nil =>
      rw [List.append_nil] at hl
      rw [← hl, List.getLast?_concat, Option.some.injEq] at hlast
      simp [← hlast, isNameChar_of_isBlank hc] at hd
    | append_singleton r e =>
      rw [← List.append_assoc] at hl
      obtain ⟨rfl, he⟩ := List.append_inj' hl rfl
      obtain rfl := List.singleton_inj.1 he
      rw [endsWord_concat_blank hc] at hr
      exact ⟨r, ⟨w, hw, rfl, hr⟩, rfl⟩
  · rintro ⟨r, ⟨w, hw, rfl, hr⟩, rfl⟩
    exact ⟨w, hw, List.append_assoc w r [c], (endsWord_concat_blank hc r).trans hr⟩

/-- A blank is no star, so no tag with its margin star begins there. -/
theorem afterTypedTag?_blank_cons (hc : isBlank c = true) (l : Text) :
    afterTypedTag? (c :: l) = none := by
  rw [Option.eq_none_iff_forall_ne_some]
  intro r hr
  obtain ⟨w, hw, hl, -⟩ := afterTypedTag?_eq_some_iff.1 hr
  obtain ⟨u, rfl, -⟩ := exists_eq_cons_of_mem_typedTags hw
  rw [(List.cons.inj hl).1] at hc
  exact absurd hc (by decide)

/-- Whether a typed tag begins in front of a star does not depend on what follows the star. -/
theorem isSome_afterTypedTag?_of_star (c : Char) (hs : '*' ∈ s) (t r : Text) :
    (afterTypedTag? (c :: (s ++ t))).isSome → (afterTypedTag? (c :: (s ++ r))).isSome := by
  intro h
  obtain ⟨x, hx⟩ := Option.isSome_iff_exists.1 h
  obtain ⟨w, hw, hl, hend⟩ := afterTypedTag?_eq_some_iff.1 hx
  obtain ⟨u, rfl, hu⟩ := exists_eq_cons_of_mem_typedTags hw
  rw [List.cons_append, List.cons.injEq] at hl
  obtain ⟨rfl, hl⟩ := hl
  obtain ⟨s₁, s₂, rfl⟩ := List.append_of_mem hs
  rw [List.append_assoc, List.cons_append, List.append_eq_append_iff] at hl
  have hstar (v : Text) : endsWord ('*' :: v) = true := by rw [endsWord]; decide
  rw [Option.isSome_iff_exists]
  simp only [afterTypedTag?_eq_some_iff]
  -- the tag has no second star, so it ends in front of the one in `s`
  rcases hl with ⟨a, rfl, ha⟩ | ⟨a, rfl, rfl⟩
  · cases a with
    | nil =>
      exact ⟨'*' :: (s₂ ++ r), _, hw, by simp, hstar _⟩
    | cons d a =>
      obtain ⟨rfl, -⟩ := List.cons.inj ha
      simp at hu
  · refine ⟨a ++ '*' :: (s₂ ++ r), _, hw, by simp, ?_⟩
    cases a with
    | nil => exact hstar _
    | cons d a => exact hend

/-! ### The first typed tag -/

theorem cutAtTypedTag?_cons (c : Char) (t : Text) :
    cutAtTypedTag? (c :: t) =
      ((afterTypedTag? (c :: t)).map fun r =>
        ((c :: t).take (t.length + 1 - (trimLeft r).length), trimLeft r)).or
        ((cutAtTypedTag? t).map fun q => (c :: q.1, q.2)) := rfl

/-- A line that begins with a typed tag is cut behind it and the blanks that follow. -/
theorem cutAtTypedTag?_typedTag (hw : w ∈ typedTags) (hr : endsWord r = true) :
    cutAtTypedTag? (w ++ r) = some (w ++ r.takeWhile isBlank, trimLeft r) := by
  have hsome : afterTypedTag? (w ++ r) = some r := afterTypedTag?_eq_some_iff.2 ⟨w, hw, rfl, hr⟩
  obtain ⟨u, rfl, -⟩ := exists_eq_cons_of_mem_typedTags hw
  have hsplit : '*' :: u ++ r = ('*' :: u ++ r.takeWhile isBlank) ++ trimLeft r := by
    rw [List.append_assoc, trimLeft, List.takeWhile_append_dropWhile]
  have htake : ('*' :: u ++ r).take (('*' :: u ++ r).length - (trimLeft r).length) =
      '*' :: u ++ r.takeWhile isBlank := by
    rw [hsplit, List.length_append, Nat.add_sub_cancel, List.take_left]
  rw [List.cons_append] at hsome htake ⊢
  rw [cutAtTypedTag?_cons, hsome, Option.map_some, Option.some_or, ← List.length_cons, htake]

theorem cutAtTypedTag?_of_none (h : afterTypedTag? (c :: t) = none) :
    cutAtTypedTag? (c :: t) = (cutAtTypedTag? t).map fun q => (c :: q.1, q.2) := by
  rw [cutAtTypedTag?_cons, h, Option.map_none, Option.none_or]

/-- Lines that begin with a typed tag, and then the others from their ends. -/
@[elab_as_elim]
theorem typedTag_induction {motive : Text → Prop} (nil : motive [])
    (tag : ∀ w r, w ∈ typedTags → endsWord r = true → motive (w ++ r))
    (cons : ∀ c t, afterTypedTag? (c :: t) = none → motive t → motive (c :: t)) (l : Text) :
    motive l := by
  induction l with
  | nil => exact nil
  | cons c t ih =>
    cases h : afterTypedTag? (c :: t) with
    | none => exact cons c t h ih
    | some r =>
      obtain ⟨w, hw, hl, hr⟩ := afterTypedTag?_eq_some_iff.1 h
      exact hl ▸ tag w r hw hr

/-- A cut line is put together again from both parts. -/
theorem append_cutAtTypedTag? (h : cutAtTypedTag? l = some (s, t)) : s ++ t = l := by
  induction l using typedTag_induction generalizing s with
  | nil => simp [cutAtTypedTag?] at h
  | tag w r hw hr =>
    rw [cutAtTypedTag?_typedTag hw hr, Option.some.injEq, Prod.mk.injEq] at h
    rw [← h.1, ← h.2, List.append_assoc, trimLeft, List.takeWhile_append_dropWhile]
  | cons c l hnone ih =>
    rw [cutAtTypedTag?_of_none hnone, Option.map_eq_some_iff] at h
    obtain ⟨q, hq, hqs⟩ := h
    obtain ⟨rfl, rfl⟩ := Prod.mk.inj hqs
    rw [List.cons_append, ih hq]

theorem trimRight_typedTag_append (hw : w ∈ typedTags) (hs : s.all isBlank = true) :
    trimRight (w ++ s) = w := by
  simp only [typedTags, List.map_cons, List.map_nil, List.mem_cons, List.not_mem_nil,
    or_false] at hw
  rw [trimRight_append_blanks hs]
  rcases hw with rfl | rfl | rfl
  all_goals decide

/-- The part in front of the cut ends with a typed tag and blanks. -/
theorem exists_trimRight_eq_append_tag (h : cutAtTypedTag? l = some (s, t)) :
    ∃ a, ∃ w ∈ typedTags, trimRight s = a ++ w := by
  induction l using typedTag_induction generalizing s with
  | nil => simp [cutAtTypedTag?] at h
  | tag w r hw hr =>
    rw [cutAtTypedTag?_typedTag hw hr, Option.some.injEq, Prod.mk.injEq] at h
    exact ⟨[], w, hw, by rw [← h.1, trimRight_typedTag_append hw List.all_takeWhile]; rfl⟩
  | cons c l hnone ih =>
    rw [cutAtTypedTag?_of_none hnone, Option.map_eq_some_iff] at h
    obtain ⟨q, hq, hqs⟩ := h
    obtain ⟨rfl, rfl⟩ := Prod.mk.inj hqs
    obtain ⟨a, w, hw, hqw⟩ := ih hq
    refine ⟨c :: a, w, hw, ?_⟩
    have hne : trimRight q.1 ≠ [] := by
      obtain ⟨u, rfl, -⟩ := exists_eq_cons_of_mem_typedTags hw
      simp [hqw]
    rw [← List.singleton_append, trimRight_append, if_neg hne, hqw, List.singleton_append,
      List.cons_append]

/-- Another text may follow the first typed tag, if it does not go on with its name. -/
theorem exists_cutAtTypedTag?_trimRight (h : cutAtTypedTag? l = some (s, t))
    (hr : endsWord r = true) :
    ∃ s', cutAtTypedTag? (trimRight s ++ r) = some (s', trimLeft r) := by
  induction l using typedTag_induction generalizing s with
  | nil => simp [cutAtTypedTag?] at h
  | tag w x hw hx =>
    rw [cutAtTypedTag?_typedTag hw hx, Option.some.injEq, Prod.mk.injEq] at h
    rw [← h.1, trimRight_typedTag_append hw List.all_takeWhile]
    exact ⟨_, cutAtTypedTag?_typedTag hw hr⟩
  | cons c l hnone ih =>
    rw [cutAtTypedTag?_of_none hnone, Option.map_eq_some_iff] at h
    obtain ⟨q, hq, hqs⟩ := h
    obtain ⟨rfl, rfl⟩ := Prod.mk.inj hqs
    obtain ⟨s', hs'⟩ := ih hq
    obtain ⟨a, w, hw, hqw⟩ := exists_trimRight_eq_append_tag hq
    have hstar : '*' ∈ trimRight q.1 := by
      obtain ⟨u, rfl, -⟩ := exists_eq_cons_of_mem_typedTags hw
      simp [hqw]
    have hcons : trimRight (c :: q.1) = c :: trimRight q.1 := by
      rw [← List.singleton_append, trimRight_append, if_neg (List.ne_nil_of_mem hstar),
        List.singleton_append]
    have hnone' : afterTypedTag? (c :: (trimRight q.1 ++ r)) = none := by
      rw [← Option.not_isSome_iff_eq_none] at hnone ⊢
      obtain ⟨gap, -, hgap⟩ := exists_eq_trimRight_append q.1
      rw [← append_cutAtTypedTag? hq, hgap, List.append_assoc] at hnone
      exact fun hsome => hnone (isSome_afterTypedTag?_of_star c hstar _ _ hsome)
    refine ⟨c :: s', ?_⟩
    rw [hcons, List.cons_append, cutAtTypedTag?_of_none hnone', hs']
    rfl

/-- Where nothing but blanks follows the tag, they stay in front of the cut. -/
theorem cutAtTypedTag?_concat_blank (hc : isBlank c = true) (l : Text) :
    cutAtTypedTag? (l ++ [c]) = (cutAtTypedTag? l).map fun q =>
      if q.2 = [] then (q.1 ++ [c], []) else (q.1, q.2 ++ [c]) := by
  induction l using typedTag_induction with
  | nil =>
    rw [List.nil_append, cutAtTypedTag?_of_none (afterTypedTag?_blank_cons hc [])]
    rfl
  | tag w r hw hr =>
    have hr' := (endsWord_concat_blank hc r).trans hr
    rw [List.append_assoc, cutAtTypedTag?_typedTag hw hr', cutAtTypedTag?_typedTag hw hr,
      Option.map_some, trimLeft_concat_blank hc]
    have hsplit : r.takeWhile isBlank ++ trimLeft r = r := List.takeWhile_append_dropWhile
    split_ifs with hnil
    · rw [hnil, List.append_nil] at hsplit
      rw [hsplit, List.append_assoc, List.takeWhile_append_of_pos]
      · rw [List.takeWhile_cons_of_pos hc]
        rfl
      · rw [← hsplit]
        exact List.all_eq_true.1 List.all_takeWhile
    · rw [List.takeWhile_append, if_neg]
      intro hlen
      have := congrArg List.length hsplit
      rw [List.length_append] at this
      exact hnil (List.length_eq_zero_iff.1 (by omega))
  | cons d t hnone ih =>
    have hnone' : afterTypedTag? (d :: (t ++ [c])) = none := by
      rw [← List.cons_append, afterTypedTag?_concat_blank hc, hnone, Option.map_none]
    rw [List.cons_append, cutAtTypedTag?_of_none hnone', cutAtTypedTag?_of_none hnone, ih,
      Option.map_map, Option.map_map]
    congr 1
    funext q
    simp only [Function.comp_apply]
    split_ifs <;> rfl

/-! ### The type -/

/-- What follows the type in braces that a text begins with. -/
def afterType? (t : Text) : Option Text := if t.head? = some '{' then afterGroup? t else none

/-- A line before and behind the type of its first typed tag. -/
def cutAtType? (l : Text) : Option (Text × Text) :=
  (cutAtTypedTag? l).bind fun q => (afterType? q.2).map (q.1, ·)

theorem withoutTagType_eq (l : Text) :
    withoutTagType l = ((cutAtType? l).map fun q => trimRight q.1 ++ q.2).getD l := by
  rw [withoutTagType, cutAtType?]
  cases cutAtTypedTag? l with
  | none => rfl
  | some q =>
    obtain ⟨s, t⟩ := q
    simp only [Option.bind_some, afterType?]
    split_ifs
    · cases afterGroup? t <;> rfl
    · rfl

theorem afterType?_concat_blank (hc : isBlank c = true) (t : Text) :
    afterType? (t ++ [c]) = (afterType? t).map (· ++ [c]) := by
  have hcloser : isCloser c = false := eq_false_of_isBlank (by decide) hc
  have hopener : closer? c = none := by
    have h : (closer? c).isSome = false :=
      eq_false_of_isBlank (p := fun c => (closer? c).isSome) (by decide) hc
    rwa [Option.isSome_eq_false_iff, Option.isNone_iff_eq_none] at h
  cases t with
  | nil =>
    have hbrace : c ≠ '\x7b' := by
      rintro rfl
      simp [closer?] at hopener
    simp [afterType?, hbrace]
  | cons d t =>
    rw [afterType?, afterType?, afterGroup?_concat hcloser]
    rw [List.cons_append, List.head?_cons, List.head?_cons]
    by_cases hd : some d = some '\x7b'
    · rw [if_pos hd, if_pos hd]
    · rw [if_neg hd, if_neg hd, Option.map_none]

theorem cutAtType?_concat_blank (hc : isBlank c = true) (l : Text) :
    cutAtType? (l ++ [c]) = (cutAtType? l).map fun q => (q.1, q.2 ++ [c]) := by
  rw [cutAtType?, cutAtTypedTag?_concat_blank hc, cutAtType?]
  cases cutAtTypedTag? l with
  | none => rfl
  | some q =>
    simp only [Option.map_some, Option.bind_some]
    split_ifs with h
    · rw [h]
      rfl
    · rw [afterType?_concat_blank hc, Option.map_map, Option.map_map]
      rfl

theorem cutAtType?_append_blanks (hs : s.all isBlank = true) (l : Text) :
    cutAtType? (l ++ s) = (cutAtType? l).map fun q => (q.1, q.2 ++ s) := by
  induction s using List.reverseRec with
  | nil => simp
  | append_singleton s c ih =>
    rw [List.all_append, Bool.and_eq_true, List.all_cons, Bool.and_eq_true] at hs
    rw [← List.append_assoc, cutAtType?_concat_blank hs.2.1, ih hs.1, Option.map_map]
    simp only [Function.comp_def, List.append_assoc]

theorem cutAtType?_of_none (h : afterTypedTag? (c :: t) = none) :
    cutAtType? (c :: t) = (cutAtType? t).map fun q => (c :: q.1, q.2) := by
  rw [cutAtType?, cutAtTypedTag?_of_none h, Option.bind_map, cutAtType?, Option.map_bind]
  congr 1
  funext q
  rw [Function.comp_apply, Function.comp_apply, Option.map_map]
  rfl

theorem cutAtType?_blanks_append (hs : s.all isBlank = true) (l : Text) :
    cutAtType? (s ++ l) = (cutAtType? l).map fun q => (s ++ q.1, q.2) := by
  induction s with
  | nil => simp
  | cons c s ih =>
    rw [List.all_cons, Bool.and_eq_true] at hs
    rw [List.cons_append, cutAtType?_of_none (afterTypedTag?_blank_cons hs.1 _), ih hs.2,
      Option.map_map]
    rfl

/-- A line that has lost a type has another one where one type directly followed the other. -/
theorem isSome_cutAtType?_of_cut (h : cutAtType? l = some (s, r)) (hr : endsWord r = true) :
    (cutAtType? (trimRight s ++ r)).isSome = (afterType? (trimLeft r)).isSome := by
  obtain ⟨q, hq, hqs⟩ := Option.bind_eq_some_iff.1 h
  obtain ⟨x, -, hx⟩ := Option.map_eq_some_iff.1 hqs
  obtain ⟨rfl, rfl⟩ := Prod.mk.inj hx
  obtain ⟨s', hs'⟩ := exists_cutAtTypedTag?_trimRight hq hr
  rw [cutAtType?, hs', Option.bind_some, Option.isSome_map]

/-- The line is the part before the type, which ends with the tag, the type with its two braces, and
the part behind it. -/
theorem exists_type_append (h : cutAtType? l = some (s, r)) :
    ∃ g, l = s ++ (g ++ r) ∧ 2 ≤ g.length ∧ ∃ a, ∃ w ∈ typedTags, trimRight s = a ++ w := by
  obtain ⟨q, hq, hqs⟩ := Option.bind_eq_some_iff.1 h
  obtain ⟨x, hafter, hx⟩ := Option.map_eq_some_iff.1 hqs
  obtain ⟨rfl, rfl⟩ := Prod.mk.inj hx
  rw [afterType?, Option.ite_none_right_eq_some] at hafter
  obtain ⟨g, hg, hlen⟩ := exists_group_append hafter.2
  exact ⟨g, by rw [← hg, append_cutAtTypedTag? hq], hlen, exists_trimRight_eq_append_tag hq⟩

end DocDecl

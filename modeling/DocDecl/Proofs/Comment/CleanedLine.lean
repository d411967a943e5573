import DocDecl.Proofs.Comment.TypedTag

/-!
# Cleaned lines

A line that is printed stays when it is cleaned again, unless something in it reads like a mark of
the frame or like a dropped tag, a type stands directly behind its first typed tag, or it holds the
mark of a description; every other line goes or gets shorter. A line that neither a type nor the
mark of a description is taken from is settled once it is printed, and so is a line that loses a
type, unless another type directly follows that one.

## Main definitions

* `IsInner`, `IsPlain`, `IsSettled` : printed lines that stay as they are.
* `IsTagMarker` : markers that do not reach over a typed tag.

## Main results

* `length_lt_of_not_isSettled` : a printed line that is not settled goes or gets shorter.
* `isSettled_of_isPlain` : lines that nothing is taken from.
* `isSettled_of_type_iff` : lines that lose a type.
-/

namespace DocDecl

open Text

variable {markers : List Text} {l p : Text}

/-! ### What is taken from a line -/

/-- The line holds what looks like a tag with a type. -/
def IsTyped (l : Text) : Prop := "* @param".toList <:+: l ∨ "* @return".toList <:+: l

/-- Neither a type nor the mark of a description is to be taken from the line. -/
structure IsPlain (l : Text) : Prop where
  /-- No type follows the first typed tag. -/
  no_type : IsTyped l → cutAtType? l = none
  /-- A line without a typed tag holds no mark of a description. -/
  no_description : ¬IsTyped l → ¬"* @desc".toList <:+: l

/-- What is left of a line without a type or the mark of a description. -/
def lineContent (l : Text) : Text :=
  if Text.contains "* @param" l || Text.contains "* @return" l then withoutTagType l
  else if Text.contains "* @desc" l then replaceFirst " @desc" "" l
  else l

theorem contains_typed_iff :
    (Text.contains "* @param" l || Text.contains "* @return" l) = true ↔ IsTyped l := by
  rw [Bool.or_eq_true, contains_iff_isInfix, contains_iff_isInfix, IsTyped]

/-- The first mark of a description goes. -/
theorem length_replaceFirst_desc (h : "* @desc".toList <:+: l) :
    (replaceFirst " @desc" "" l).length + 6 = l.length := by
  have hinfix : " @desc".toList <:+: l :=
    List.IsInfix.trans (List.suffix_cons '*' " @desc".toList).isInfix h
  obtain ⟨n, hn⟩ := Option.isSome_iff_exists.1 (contains_iff_isInfix.2 hinfix)
  have hlen := find?_add_length_le hn
  rw [replaceFirst, cut?, hn]
  simp at hlen ⊢
  omega

theorem IsPlain.lineContent_eq (h : IsPlain l) : lineContent l = l := by
  rw [lineContent]
  split_ifs with htyped hdesc
  · rw [withoutTagType_eq, h.no_type (contains_typed_iff.1 htyped)]
    rfl
  · rw [contains_typed_iff] at htyped
    exact absurd (contains_iff_isInfix.1 hdesc) (h.no_description htyped)
  · rfl

/-- A line that is not plain gets shorter. -/
theorem length_lineContent_add_two_le (h : ¬IsPlain l) :
    (lineContent l).length + 2 ≤ l.length := by
  rw [lineContent]
  split_ifs with htyped hdesc
  · rw [contains_typed_iff] at htyped
    cases htype : cutAtType? l with
    | none => exact absurd ⟨fun _ => htype, fun hnot => absurd htyped hnot⟩ h
    | some q =>
      obtain ⟨g, hl, hg, -⟩ := exists_type_append htype
      have hlen := congrArg List.length hl
      have hright := length_trimRight_le q.1
      rw [withoutTagType_eq, htype, Option.map_some, Option.getD_some, List.length_append]
      rw [List.length_append, List.length_append] at hlen
      omega
  · have := length_replaceFirst_desc (contains_iff_isInfix.1 hdesc)
    omega
  · rw [contains_typed_iff] at htyped
    rw [contains_iff_isInfix] at hdesc
    exact absurd ⟨fun htyped' => absurd htyped' htyped, fun _ => hdesc⟩ h

theorem mem_of_mem_lineContent {d : Char} (h : d ∈ lineContent l) : d ∈ l := by
  rw [lineContent] at h
  split_ifs at h
  · rw [withoutTagType_eq] at h
    cases htype : cutAtType? l with
    | none => rwa [htype] at h
    | some q =>
      obtain ⟨g, hl, -⟩ := exists_type_append htype
      obtain ⟨gap, -, hgap⟩ := exists_eq_trimRight_append q.1
      rw [htype, Option.map_some, Option.getD_some, List.mem_append] at h
      rw [hl, List.mem_append, List.mem_append]
      rcases h with h | h
      · rw [hgap, List.mem_append]
        exact .inl (.inl h)
      · exact .inr (.inr h)
  · rw [replaceFirst, cut?] at h
    cases hfind : find? " @desc".toList l with
    | none => rwa [hfind] at h
    | some n =>
      rw [hfind] at h
      simp only [Option.map_some, List.mem_append] at h
      rcases h with (h | h) | h
      · exact List.mem_of_mem_take h
      · simp at h
      · exact List.mem_of_mem_drop h
  · exact h

/-! ### Settled lines -/

/-- The line is no part of the frame, and it is not dropped. -/
structure IsInner (markers : List Text) (l : Text) : Prop where
  /-- The line does not begin like a comment. -/
  not_opening : ¬"/**".toList <+: trim l
  /-- The line does not end like a comment. -/
  not_closing : ¬"*/".toList <:+ trim l
  /-- The line holds no marker whose lines are dropped. -/
  not_dropped : ∀ m ∈ markers, ¬m <:+: trimRight l ++ " ".toList

/-- A printed line that stays when it is cleaned again. -/
inductive IsSettled (markers : List Text) : Text → Prop
  | opening : IsSettled markers "/**"
  | closing : IsSettled markers " */"
  | inner {l : Text} (inner : IsInner markers l) (plain : IsPlain l) : IsSettled markers l

theorem isInner_iff :
    IsInner markers l ↔
      ¬("/**" : Text).isPrefixOf (trim l) = true ∧ ¬("*/" : Text).isSuffixOf (trim l) = true ∧
        ¬(markers.any fun m => Text.contains m (trimRight l ++ " ")) = true := by
  simp only [List.isPrefixOf_iff_prefix, List.isSuffixOf_iff_suffix, List.any_eq_true,
    contains_iff_isInfix, not_exists, not_and]
  exact ⟨fun h => ⟨h.1, h.2, h.3⟩, fun h => ⟨h.1, h.2.1, h.2.2⟩⟩

theorem cleanLine?_eq (markers : List Text) (l : Text) :
    cleanLine? markers l =
      if ("/**" : Text).isPrefixOf (trim l) then some "/**".toList
      else if ("*/" : Text).isSuffixOf (trim l) then some " */".toList
      else if markers.any fun m => Text.contains m (trimRight l ++ " ") then none
      else some (' ' :: trim (lineContent l)) := by
  rw [cleanLine?, lineContent]
  split_ifs <;> rfl

theorem cleanLine?_of_isInner (h : IsInner markers l) :
    cleanLine? markers l = some (' ' :: trim (lineContent l)) := by
  obtain ⟨hopen, hclose, hdrop⟩ := isInner_iff.1 h
  rw [cleanLine?_eq, if_neg hopen, if_neg hclose, if_neg hdrop]

/-- A line is printed as a part of the frame or as what is left of it. -/
theorem cleanLine?_eq_some (h : cleanLine? markers p = some l) :
    l = "/**".toList ∨ l = " */".toList ∨ IsInner markers p ∧ l = ' ' :: trim (lineContent p) := by
  rw [cleanLine?_eq] at h
  split_ifs at h with hopen hclose hdrop
  · exact .inl (Option.some.inj h).symm
  · exact .inr (.inl (Option.some.inj h).symm)
  · exact .inr (.inr ⟨isInner_iff.2 ⟨hopen, hclose, hdrop⟩, (Option.some.inj h).symm⟩)

/-- A line as cleaning prints it: the mark that a comment opens with, or one blank and a text
without blanks at its ends. -/
def IsPrinted (l : Text) : Prop := l = "/**" ∨ l = ' ' :: trim l

theorem isPrinted_of_cleanLine? (h : cleanLine? markers p = some l) : IsPrinted l := by
  rcases cleanLine?_eq_some h with rfl | rfl | ⟨-, rfl⟩
  · exact .inl rfl
  · exact .inr rfl
  · have hblank : trim (' ' :: trim (lineContent p)) = trim (lineContent p) :=
      (trim_blanks_append (s := [' ']) rfl _).trans (trim_trim _)
    exact .inr (congrArg (' ' :: ·) hblank.symm)

theorem IsSettled.cleanLine?_eq_self (h : IsSettled markers l) (hl : IsPrinted l) :
    cleanLine? markers l = some l := by
  cases h with
  | opening => rfl
  | closing => rfl
  | inner hinner hplain =>
    rw [cleanLine?_of_isInner hinner, hplain.lineContent_eq, Option.some.injEq]
    rcases hl with rfl | hl
    · exact absurd (List.prefix_refl _) hinner.not_opening
    · exact hl.symm

/-- A settled line with a typed tag has no type behind it. -/
theorem IsSettled.cutAtType?_eq_none (h : IsSettled markers l) (htyped : IsTyped l) :
    cutAtType? l = none := by
  have hlen : 8 ≤ l.length := by
    rcases htyped with htyped | htyped
    · exact htyped.length_le
    · exact Nat.le_trans (by decide) htyped.length_le
  cases h with
  | opening => simp at hlen
  | closing => simp at hlen
  | inner _ hplain => exact hplain.no_type htyped

/-- A printed line that is not settled goes or gets shorter. -/
theorem length_lt_of_not_isSettled (h : ¬IsSettled markers p) (hp : IsPrinted p)
    (hl : cleanLine? markers p = some l) : l.length < p.length := by
  obtain rfl | hp := hp
  · exact absurd .opening h
  have hlen : p.length = (trim p).length + 1 := congrArg List.length hp
  rw [cleanLine?_eq] at hl
  split_ifs at hl with hopen hclose hdrop
  · have := (List.isPrefixOf_iff_prefix.1 hopen).length_le
    rw [← Option.some.inj hl, hlen]
    exact Nat.lt_succ_of_le this
  · have hsuffix := List.isSuffixOf_iff_suffix.1 hclose
    have hne : "*/".toList.length ≠ (trim p).length := by
      intro heq
      rw [← hsuffix.eq_of_length heq] at hp
      exact h (hp ▸ .closing)
    have := Nat.lt_of_le_of_ne hsuffix.length_le hne
    rw [← Option.some.inj hl, hlen]
    exact Nat.succ_lt_succ this
  · have hplain : ¬IsPlain p := fun hplain =>
      h (.inner (isInner_iff.2 ⟨hopen, hclose, hdrop⟩) hplain)
    have hcontent := length_lineContent_add_two_le hplain
    have htrim := length_trim_le (lineContent p)
    rw [← Option.some.inj hl, List.length_cons]
    omega

/-! ### Lines that are plain from the beginning -/

theorem isSome_cutAtType?_trim (l : Text) :
    (cutAtType? (' ' :: trim l)).isSome = (cutAtType? l).isSome := by
  obtain ⟨gap, gap', hgap, hgap', hl⟩ := exists_eq_append_trim l
  conv_rhs => rw [hl]
  rw [cutAtType?_of_none (afterTypedTag?_blank_cons rfl _), cutAtType?_blanks_append hgap,
    cutAtType?_append_blanks hgap']
  simp only [Option.isSome_map]

theorem infix_cons_trim_iff (hhead : ∀ c, p.head? = some c → isBlank c = false)
    (hlast : ∀ c, p.getLast? = some c → isBlank c = false) : p <:+: ' ' :: trim l ↔ p <:+: l := by
  rw [← List.singleton_append, infix_blanks_append_iff hhead rfl, infix_trim_iff hhead hlast]

theorem isTyped_cons_trim_iff : IsTyped (' ' :: trim l) ↔ IsTyped l := by
  rw [IsTyped, infix_cons_trim_iff (by simp [isBlank]) (by simp [isBlank]),
    infix_cons_trim_iff (by simp [isBlank]) (by simp [isBlank]), IsTyped]

theorem IsPlain.cons_trim (h : IsPlain l) : IsPlain (' ' :: trim l) where
  no_type htyped := by
    have hnone := h.no_type (isTyped_cons_trim_iff.1 htyped)
    rw [← Option.not_isSome_iff_eq_none] at hnone ⊢
    rwa [isSome_cutAtType?_trim]
  no_description htyped := by
    rw [infix_cons_trim_iff (by simp [isBlank]) (by simp [isBlank])]
    exact h.no_description fun htyped' => htyped (isTyped_cons_trim_iff.2 htyped')

/-- The blanks in front of a line do not matter to a marker that begins with none. -/
theorem IsInner.cons_trim (hm : ∀ m ∈ markers, ∀ c, m.head? = some c → isBlank c = false)
    (h : IsInner markers l) : IsInner markers (' ' :: trim l) := by
  have htrim : trim (' ' :: trim l) = trim l :=
    (trim_blanks_append (s := [' ']) rfl _).trans (trim_trim l)
  refine ⟨by rw [htrim]; exact h.not_opening, by rw [htrim]; exact h.not_closing, ?_⟩
  intro m hmem
  have hdrop := h.not_dropped m hmem
  obtain ⟨gap, hgap, hl⟩ := exists_trimRight_eq l
  obtain ⟨gap', hgap', hl'⟩ := exists_trimRight_eq (' ' :: trim l)
  rw [hl, List.append_assoc, infix_blanks_append_iff (hm m hmem) hgap] at hdrop
  rwa [hl', htrim, List.append_assoc, infix_blanks_append_iff (hm m hmem) hgap']

/-- A line that nothing is taken from is settled once it is printed. -/
theorem isSettled_of_isPlain (hm : ∀ m ∈ markers, ∀ c, m.head? = some c → isBlank c = false)
    (hl : cleanLine? markers p = some l) (hp : IsPlain p) : IsSettled markers l := by
  rcases cleanLine?_eq_some hl with rfl | rfl | ⟨hinner, rfl⟩
  · exact .opening
  · exact .closing
  · rw [hp.lineContent_eq]
    exact .inner (hinner.cons_trim hm) hp.cons_trim

/-! ### Lines that lose a type -/

/-- A marker with the margin star in front and no other star, which does not go on behind a typed
tag. -/
structure IsTagMarker (m : Text) : Prop where
  /-- The marker begins with the margin star. -/
  head?_eq : m.head? = some '*'
  /-- There is no other star. -/
  star_notMem_tail : '*' ∉ m.tail
  /-- No typed tag begins the marker. -/
  not_typed : ∀ w ∈ typedTags, ¬w <+: m

theorem isTagMarker_of_mem {m : Text} (h : m ∈ droppedMarkers ++ classMarkers) :
    IsTagMarker m := by
  have hall : ∀ m ∈ droppedMarkers ++ classMarkers,
      m.head? = some '*' ∧ '*' ∉ m.tail ∧ ∀ w ∈ typedTags, ¬w <+: m := by decide
  obtain ⟨hhead, htail, htyped⟩ := hall m h
  exact ⟨hhead, htail, htyped⟩

/-- A text is divided at its last star in one way. -/
theorem eq_of_append_star_eq {a x u v : Text} (hu : '*' ∉ u) (hv : '*' ∉ v)
    (h : a ++ '*' :: u = x ++ '*' :: v) : u = v := by
  rw [List.append_eq_append_iff] at h
  rcases h with ⟨e, -, he⟩ | ⟨e, -, he⟩
  all_goals
    cases e with
    | nil => simp_all
    | cons d e =>
      rw [List.cons_append, List.cons.injEq] at he
      simp [he.2] at hu hv

/-- A marker stands in front of the end of a typed tag or behind it. -/
theorem IsTagMarker.infix_or {m a w z : Text} (hm : IsTagMarker m) (hw : w ∈ typedTags)
    (h : m <:+: (a ++ w) ++ z) : m <:+: a ++ w ∨ m <:+: z := by
  obtain ⟨u, rfl⟩ := List.head?_eq_some_iff.1 hm.head?_eq
  have hu : '*' ∉ u := hm.star_notMem_tail
  obtain ⟨x, y, hxy⟩ := h
  rw [List.append_assoc, List.append_eq_append_iff] at hxy
  rcases hxy with ⟨b, hb, hz⟩ | ⟨b, rfl, rfl⟩
  · -- the marker begins in front of the end of the tag
    rw [List.append_eq_append_iff] at hz
    rcases hz with ⟨d, rfl, -⟩ | ⟨d, hd, rfl⟩
    · exact .inl (hb ▸ ⟨x, d, by simp⟩)
    · cases b with
      | nil => exact .inr ⟨[], y, by simpa using congrArg (· ++ y) hd⟩
      | cons e b =>
        -- the last star in front of that end is that of the tag, and it is that of the marker
        rw [List.cons_append, List.cons.injEq] at hd
        obtain ⟨rfl, rfl⟩ := hd
        obtain ⟨v, rfl, hv⟩ := exists_eq_cons_of_mem_typedTags hw
        have hvb : v = b := eq_of_append_star_eq hv (fun h => hu (by simp [h])) hb
        exact absurd ⟨d, by rw [hvb]; rfl⟩ (hm.not_typed _ hw)
  · exact .inr ⟨b, y, by simp⟩

theorem IsTagMarker.isBlank_head? {m : Text} (hm : IsTagMarker m) :
    ∀ c, m.head? = some c → isBlank c = false := by
  intro c hc
  rw [hm.head?_eq] at hc
  exact Option.some.inj hc ▸ rfl

section Typed

variable {a r s w : Text}

theorem trimRight_typedTag (hw : w ∈ typedTags) (a : Text) : trimRight (a ++ w) = a ++ w := by
  have hright : trimRight w = w := by simpa using trimRight_typedTag_append hw (s := []) rfl
  have hne : w ≠ [] := by
    obtain ⟨u, rfl, -⟩ := exists_eq_cons_of_mem_typedTags hw
    exact List.cons_ne_nil _ _
  rw [trimRight_append, hright, if_neg hne]

/-- Trimming a line with a typed tag leaves the tag. -/
theorem trim_typedTag (hw : w ∈ typedTags) (a z : Text) :
    trim ((a ++ w) ++ z) = (trimLeft a ++ w) ++ trimRight z := by
  have hleft : trimLeft ((a ++ w) ++ z) = (trimLeft a ++ w) ++ z := by
    obtain ⟨u, rfl, -⟩ := exists_eq_cons_of_mem_typedTags hw
    rw [List.append_assoc, trimLeft, List.dropWhile_append, trimLeft, List.append_assoc]
    split_ifs with h
    · rw [List.isEmpty_iff.1 h]
      rfl
    · rfl
  rw [trim, hleft, trimRight_append_of_eq (trimRight_typedTag hw _)]

/-- What ends like a comment behind a typed tag ends so without the tag. -/
theorem closing_suffix_of_typedTag {z : Text} (hw : w ∈ typedTags)
    (h : "*/".toList <:+ (a ++ w) ++ z) : "*/".toList <:+ z := by
  obtain ⟨c, hlast, hc⟩ := exists_getLast?_of_mem_typedTags hw
  have hlast (a : Text) : (a ++ w).getLast? = some c := by
    rw [List.getLast?_append, hlast, Option.some_or]
  obtain ⟨x, hx⟩ := h
  cases z using List.reverseRec with
  | nil =>
    have hslash := congrArg List.getLast? hx
    rw [List.append_nil, hlast, List.getLast?_append] at hslash
    cases hslash
    exact absurd hc (by decide +kernel)
  | append_singleton z d =>
    have hcut : (x ++ ['*']) ++ ['/'] = ((a ++ w) ++ z) ++ [d] := by simpa using hx
    obtain ⟨hstar, hd⟩ := List.append_inj' hcut rfl
    cases z using List.reverseRec with
    | nil =>
      have hc' := congrArg List.getLast? hstar
      rw [List.append_nil, hlast, List.getLast?_concat] at hc'
      cases hc'
      exact absurd hc (by decide +kernel)
    | append_singleton z e =>
      rw [← List.append_assoc] at hstar
      have he := (List.append_inj' hstar rfl).2
      exact ⟨z, by rw [← hd, ← he]; simp⟩

/-- A line that loses its type is still no part of the frame, and it holds no other marker. -/
theorem IsInner.of_type {g : Text} (hm : ∀ m ∈ markers, IsTagMarker m) (hw : w ∈ typedTags)
    (h : IsInner markers ((a ++ w) ++ (g ++ r))) :
    IsInner markers (' ' :: trim ((a ++ w) ++ r)) := by
  have htrim : trim (' ' :: trim ((a ++ w) ++ r)) = (trimLeft a ++ w) ++ trimRight r :=
    ((trim_blanks_append (s := [' ']) rfl _).trans (trim_trim _)).trans (trim_typedTag hw a r)
  have hsuffix : trimRight r <:+ trimRight (g ++ r) := by
    rw [trimRight_append]
    split_ifs with hnil
    · rw [hnil]
      exact List.nil_suffix
    · exact List.suffix_append g _
  constructor
  · rw [htrim]
    intro hopen
    refine h.not_opening ?_
    rw [trim_typedTag hw]
    refine (List.prefix_of_prefix_length_le hopen (List.prefix_append _ _) ?_).trans
      (List.prefix_append _ _)
    have hlen : ∀ w ∈ typedTags, 3 ≤ w.length := by decide
    rw [List.length_append]
    exact Nat.le_trans (hlen w hw) (Nat.le_add_left _ _)
  · rw [htrim]
    intro hclose
    refine h.not_closing ?_
    rw [trim_typedTag hw]
    exact ((closing_suffix_of_typedTag hw hclose).trans hsuffix).trans (List.suffix_append _ _)
  · intro m hmem hinfix
    refine h.not_dropped m hmem ?_
    have hblank := (hm m hmem).isBlank_head?
    obtain ⟨gap, hgap, hl⟩ := exists_trimRight_eq (' ' :: trim ((a ++ w) ++ r))
    obtain ⟨gap', hgap', hp⟩ := exists_trimRight_eq ((a ++ w) ++ (g ++ r))
    rw [hl, htrim, List.append_assoc, infix_blanks_append_iff hblank hgap,
      List.append_assoc] at hinfix
    rw [hp, trim_typedTag hw, List.append_assoc, infix_blanks_append_iff hblank hgap',
      List.append_assoc]
    rcases (hm m hmem).infix_or hw hinfix with hinfix | hinfix
    · exact hinfix.trans (List.prefix_append _ _).isInfix
    · refine hinfix.trans (List.IsSuffix.isInfix ?_)
      obtain ⟨x, hx⟩ := hsuffix
      exact ⟨(trimLeft a ++ w) ++ x, by rw [← hx]; simp⟩

/-- A line that loses a type is settled once it is printed, unless another type directly follows
that one. -/
theorem isSettled_of_type_iff (hm : ∀ m ∈ markers, IsTagMarker m) (hp : IsInner markers p)
    (h : cutAtType? p = some (s, r)) (hr : endsWord r = true) :
    ∃ l, cleanLine? markers p = some l ∧
      (IsSettled markers l ↔ afterType? (trimLeft r) = none) := by
  obtain ⟨g, hl, -, a, w, hw, hs⟩ := exists_type_append h
  obtain ⟨gap, -, hgap⟩ := exists_eq_trimRight_append s
  have htag {z : Text} : IsTyped ((a ++ w) ++ z) := by
    have hall : ∀ w ∈ typedTags, "* @param".toList <+: w ∨ "* @return".toList <+: w := by decide
    have hmem : w <:+: (a ++ w) ++ z := ⟨a, z, rfl⟩
    exact (hall w hw).imp (fun h => h.isInfix.trans hmem) fun h => h.isInfix.trans hmem
  have hp' : p = (a ++ w) ++ ((gap ++ g) ++ r) := by
    rw [hs] at hgap
    rw [hl, hgap]
    simp only [List.append_assoc]
  have hcontent : lineContent p = (a ++ w) ++ r := by
    rw [lineContent, if_pos (contains_typed_iff.2 (hp' ▸ htag)), withoutTagType_eq, h,
      Option.map_some, Option.getD_some, hs]
  have htyped : IsTyped (' ' :: trim (lineContent p)) := by
    rw [isTyped_cons_trim_iff, hcontent]
    exact htag
  have hsome : (cutAtType? (' ' :: trim (lineContent p))).isSome =
      (afterType? (trimLeft r)).isSome := by
    rw [isSome_cutAtType?_trim, hcontent, ← hs, isSome_cutAtType?_of_cut h hr]
  refine ⟨_, cleanLine?_of_isInner hp, fun hsettled => ?_, fun hnone => ?_⟩
  · have hnone := hsettled.cutAtType?_eq_none htyped
    rwa [← Option.not_isSome_iff_eq_none, hsome, Option.not_isSome_iff_eq_none] at hnone
  · have hinner : IsInner markers (' ' :: trim (lineContent p)) := by
      rw [hcontent]
      exact (hp' ▸ hp).of_type hm hw
    refine .inner hinner ⟨fun _ => ?_, fun hnot => absurd htyped hnot⟩
    rwa [← Option.not_isSome_iff_eq_none, hsome, Option.not_isSome_iff_eq_none]

end Typed

end DocDecl

import DocDecl.Proofs.Comment.Cleaning

/-!
# Tags whose names go on

Cleaning drops a line that holds a marker, and a marker is the beginning of a tag line. Only the
markers of classes have a blank behind the name of their tag, so the others drop the lines of all
tags whose names begin with theirs, and the mark of a description is taken from the front of longer
names. The marks of typed tags do not reach over longer names.

## Main definitions

* `TagLine` : a line of a block that begins with a tag.
* `BlockFrame` : the lines of a block around some of its lines.
* `CleansTagLine` : what becomes of the line of a tag.

## Main results

* `TagLine.starredTag_infix_text_iff` : a mark stands in a line exactly if the name of its tag
  begins with it.
* `TagLine.cleanLine?_text` : a line of a tag as it is printed.
* `cleansTagLine` : when the line of a tag is kept as it is.
* `not_kept_of_longer_name` : names that begin with another one.
-/

namespace DocDecl

open Text

variable {markers : List Text} {l p r t v w x z : Text}

/-! ### Names and what follows them -/

/-- The characters of a name do not go on behind its end. -/
theorem prefix_append_iff_of_endsWord (hx : x.all isNameChar = true) (hz : endsWord z = true) :
    x <+: w ++ z ↔ x <+: w := by
  cases z with
  | nil => rw [List.append_nil]
  | cons c z =>
    refine prefix_append_cons_iff fun hc => ?_
    simp [endsWord, List.all_eq_true.1 hx c hc] at hz

/-- A blank behind a name keeps longer ones. -/
theorem eq_of_prefix_name (hw : w.all isNameChar = true) (hx : x.all isNameChar = true)
    (hz : endsWord z = true) (h : x ++ " ".toList <+: w ++ z) : x = w := by
  obtain ⟨y, rfl⟩ := (prefix_append_iff_of_endsWord hx hz).1 ((List.prefix_append x _).trans h)
  rw [List.append_assoc, List.prefix_append_right_inj] at h
  cases y with
  | nil => exact (List.append_nil x).symm
  | cons c y =>
    rw [List.all_append, List.all_cons, Bool.and_eq_true, Bool.and_eq_true] at hw
    rw [← (List.cons_prefix_cons.1 h).1] at hw
    exact absurd hw.2.1 (by decide +kernel)

theorem endsWord_trimRight_append (hr : endsWord r = true) :
    endsWord (trimRight r ++ " ".toList) = true := by
  obtain ⟨gap, -, hgap⟩ := exists_eq_trimRight_append r
  cases h : trimRight r with
  | nil => decide +kernel
  | cons c t =>
    rw [hgap, h] at hr
    exact hr

theorem trimRight_of_isNameChar (hw : w.all isNameChar = true) : trimRight w = w :=
  (trim_eq_self_iff.1 (trim_of_no_blank fun c hc =>
    isBlank_eq_false_of_isNameChar (List.all_eq_true.1 hw c hc))).2

/-- A text ends with a pattern exactly if a part does in front of which the pattern cannot begin. -/
theorem suffix_append_iff_of_head? (hne : p ≠ []) (hp : ∀ c, p.head? = some c → c ∉ l) :
    p <:+ l ++ t ↔ p <:+ t := by
  induction l with
  | nil => rfl
  | cons c l ih =>
    rw [List.cons_append, List.suffix_cons_iff,
      ih fun d hd hmem => hp d hd (List.mem_cons_of_mem c hmem), or_iff_right_iff_imp]
    rintro rfl
    exact absurd List.mem_cons_self (hp c rfl)

/-! ### Lines of tags -/

/-- A tag with the star of the margin in front of it. -/
def starredTag (name : Text) : Text := '*' :: ' ' :: '@' :: name

/-- The names whose lines are dropped from every block. -/
def droppedNames : List Text :=
  ["memberof", "memberOf", "name", "namespace", "constructor", "typedef", "type", "property"]

theorem droppedMarkers_eq : droppedMarkers = droppedNames.map starredTag := rfl

/-- The names of typed tags. -/
def typedNames : List Text := ["param", "returns", "return"]

/-- Markers that do not drop the lines of a tag: each is another name with a blank behind it. -/
def Spares (markers : List Text) (name : Text) : Prop :=
  ∀ m ∈ markers, ∃ x, x.all isNameChar = true ∧ x ≠ name ∧ m = starredTag (x ++ " ")

theorem cutAtTypedTag?_eq_none {t : Text} (h : ¬starredTag [] <:+: t) :
    cutAtTypedTag? t = none := by
  rw [Option.eq_none_iff_forall_ne_some]
  rintro ⟨s, r⟩ hcut
  obtain ⟨a, w, hw, hs⟩ := exists_trimRight_eq_append_tag hcut
  have htag : ∀ w ∈ typedTags, starredTag [] <+: w := by decide
  have hright : starredTag [] <:+: trimRight s := by
    rw [hs]
    exact (htag w hw).isInfix.trans (List.suffix_append a w).isInfix
  rw [← append_cutAtTypedTag? hcut] at h
  exact h ((hright.trans (trimRight_isPrefix s).isInfix).trans (List.prefix_append s r).isInfix)

/-- A line of a block that begins with a tag, and holds no other. -/
structure TagLine where
  /-- The name of the tag. -/
  name : Text
  /-- What follows the name. -/
  rest : Text
  /-- The characters are those of names. -/
  all_name : name.all isNameChar = true
  /-- The name is all of the word. -/
  endsWord_rest : endsWord rest = true
  /-- It is one line. -/
  feed_notMem_rest : '\n' ∉ rest
  /-- No other tag follows a star. -/
  no_tag : ¬starredTag [] <:+: rest
  /-- The comment does not end there. -/
  not_closing : ¬"*/".toList <:+ trimRight rest

namespace TagLine

variable (l : TagLine)

/-- The line with its margin. -/
def text : Text := ' ' :: starredTag (l.name ++ l.rest)

theorem trim_text : trim l.text = starredTag (l.name ++ trimRight l.rest) := by
  have h : trim (" * ".toList ++ '@' :: (l.name ++ l.rest)) = _ := trim_append_cons (by decide) _ _
  rw [trimRight_append_of_eq (trimRight_of_isNameChar l.all_name)] at h
  exact h

theorem trimRight_text : trimRight l.text = ' ' :: starredTag (l.name ++ trimRight l.rest) := by
  have h : trimRight (" * ".toList ++ '@' :: (l.name ++ l.rest)) = _ :=
    trimRight_append_cons (by decide) _ _
  rw [trimRight_append_of_eq (trimRight_of_isNameChar l.all_name)] at h
  exact h

theorem star_notMem : '*' ∉ ' ' :: '@' :: l.name := by
  rw [List.mem_cons, List.mem_cons, not_or, not_or]
  exact ⟨by decide, by decide,
    fun h => absurd (List.all_eq_true.1 l.all_name _ h) (by decide +kernel)⟩

/-- No tag with a star begins in the tag of the line. -/
theorem not_infix_behind_star (hz : ¬starredTag [] <:+: z) (x : Text) :
    ¬starredTag x <:+: ' ' :: '@' :: (l.name ++ z) := by
  rw [← List.cons_append, ← List.cons_append, infix_append_iff_of_head?]
  · exact fun h => hz ((List.prefix_append (starredTag []) x).isInfix.trans h)
  · rintro c hc
    exact Option.some.inj hc ▸ l.star_notMem

/-- A tag stands behind the margin, or it does not stand in the line. -/
theorem starredTag_infix_iff (hz : ¬starredTag [] <:+: z) :
    starredTag x <:+: ' ' :: starredTag (l.name ++ z) ↔ x <+: l.name ++ z := by
  have hmargin : ¬starredTag x <+: ' ' :: starredTag (l.name ++ z) := fun h =>
    absurd (List.cons_prefix_cons.1 h).1 (by decide)
  have hcons : starredTag x <:+: starredTag (l.name ++ z) ↔
      starredTag x <+: starredTag (l.name ++ z) ∨ starredTag x <:+: ' ' :: '@' :: (l.name ++ z) :=
    List.infix_cons_iff
  rw [List.infix_cons_iff, or_iff_right hmargin, hcons, or_iff_left (l.not_infix_behind_star hz x)]
  simp only [starredTag, List.cons_prefix_cons, true_and]

theorem starredTag_infix_text_iff (hx : x.all isNameChar = true) :
    starredTag x <:+: l.text ↔ x <+: l.name := by
  rw [text, l.starredTag_infix_iff l.no_tag, prefix_append_iff_of_endsWord hx l.endsWord_rest]

/-- The line is dropped exactly if the name of the tag begins with a dropped one. -/
theorem exists_marker_iff (hm : Spares markers l.name) :
    (∃ m ∈ droppedMarkers ++ markers, m <:+: trimRight l.text ++ " ".toList) ↔
      ∃ x ∈ droppedNames, x <+: l.name := by
  have hnames : ∀ x ∈ droppedNames, x.all isNameChar = true := by decide +kernel
  have hend := endsWord_trimRight_append l.endsWord_rest
  have hline : trimRight l.text ++ " ".toList =
      ' ' :: starredTag (l.name ++ (trimRight l.rest ++ " ".toList)) := by
    rw [trimRight_text, List.cons_append, starredTag, starredTag]
    simp
  have htag : ¬starredTag [] <:+: trimRight l.rest ++ " ".toList := by
    rw [infix_append_blanks_iff (by simp [starredTag, isBlank]) rfl]
    exact fun h => l.no_tag (h.trans (trimRight_isPrefix l.rest).isInfix)
  rw [hline]
  constructor
  · rintro ⟨m, hmem, h⟩
    rcases List.mem_append.1 hmem with hmem | hmem
    · rw [droppedMarkers_eq] at hmem
      obtain ⟨x, hx, rfl⟩ := List.mem_map.1 hmem
      rw [l.starredTag_infix_iff htag, prefix_append_iff_of_endsWord (hnames x hx) hend] at h
      exact ⟨x, hx, h⟩
    · obtain ⟨x, hall, hne, rfl⟩ := hm m hmem
      rw [l.starredTag_infix_iff htag] at h
      exact absurd (eq_of_prefix_name l.all_name hall hend h) hne
  · rintro ⟨x, hx, h⟩
    refine ⟨starredTag x, List.mem_append_left _ (List.mem_map_of_mem hx), ?_⟩
    rw [l.starredTag_infix_iff htag]
    exact h.trans (List.prefix_append l.name _)

/-! ### What is taken from the line -/

/-- Longer names are no typed tags. -/
theorem cutAtType?_text (h : l.name ∉ typedNames) : cutAtType? l.text = none := by
  have htag : afterTypedTag? (starredTag (l.name ++ l.rest)) = none := by
    rw [Option.eq_none_iff_forall_ne_some]
    intro r hr
    obtain ⟨w, hw, hl, hend⟩ := afterTypedTag?_eq_some_iff.1 hr
    obtain ⟨name, hname, rfl⟩ := List.mem_map.1 hw
    have hall : ∀ name ∈ typedNames, name.all isNameChar = true := by decide +kernel
    have heq : l.name ++ l.rest = name ++ r := by simpa [starredTag] using hl
    have hrest := dropWhile_isNameChar l.all_name l.endsWord_rest
    rw [heq, dropWhile_isNameChar (hall name hname) hend] at hrest
    rw [hrest, List.append_cancel_right_eq] at heq
    exact h (heq ▸ hname)
  rw [cutAtType?, text, cutAtTypedTag?_of_none (afterTypedTag?_blank_cons rfl _), starredTag,
    cutAtTypedTag?_of_none htag, cutAtTypedTag?_eq_none (l.not_infix_behind_star l.no_tag [])]
  rfl

theorem isTyped_text_iff :
    IsTyped l.text ↔ "param".toList <+: l.name ∨ "return".toList <+: l.name :=
  or_congr (l.starredTag_infix_text_iff (x := "param") (by decide +kernel))
    (l.starredTag_infix_text_iff (x := "return") (by decide +kernel))

theorem replaceFirst_desc (h : l.name = "desc" ++ v) :
    replaceFirst " @desc" "" l.text = ' ' :: '*' :: (v ++ l.rest) := by
  have hskip {c d : Char} {u : Text} (hd : ' ' = c → d ≠ '@') :
      cut? " @desc" (c :: d :: u) = (cut? " @desc" (d :: u)).map fun q => (c :: q.1, q.2) := by
    refine cut?_cons_of_not_isPrefix fun hprefix => ?_
    obtain ⟨hc, hprefix⟩ := List.cons_prefix_cons.1 hprefix
    exact hd hc (List.cons_prefix_cons.1 hprefix).1.symm
  have hfound : cut? " @desc" (' ' :: '@' :: ("desc".toList ++ (v ++ l.rest))) =
      some ([], v ++ l.rest) := cut?_append_self (by decide) _
  have hcut : cut? " @desc" l.text = some (" *".toList, v ++ l.rest) := by
    rw [text, h, List.append_assoc, starredTag, hskip (by decide), hskip (by decide), hfound]
    rfl
  rw [replaceFirst, hcut]
  rfl

theorem lineContent_text (h : l.name ∉ typedNames) :
    lineContent l.text =
      if "desc".toList <+: l.name then " *" ++ (l.name.drop 4 ++ l.rest) else l.text := by
  by_cases htyped : IsTyped l.text
  · have hdesc : ¬"desc".toList <+: l.name := by
      rintro ⟨v, hv⟩
      rw [isTyped_text_iff, ← hv] at htyped
      rcases htyped with htyped | htyped
      all_goals exact absurd (List.cons_prefix_cons.1 htyped).1 (by decide)
    rw [lineContent, if_pos (contains_typed_iff.2 htyped), withoutTagType_eq, l.cutAtType?_text h,
      if_neg hdesc]
    rfl
  · have hdesc : Text.contains "* @desc" l.text = true ↔ "desc".toList <+: l.name := by
      rw [contains_iff_isInfix]
      exact l.starredTag_infix_text_iff (x := "desc") (by decide +kernel)
    rw [lineContent, if_neg (contains_typed_iff.not.2 htyped)]
    simp only [hdesc]
    split_ifs with hname
    · obtain ⟨v, hv⟩ := hname
      rw [l.replaceFirst_desc hv.symm, ← hv]
      rfl
    · rfl

/-- A line of a tag as it is printed. -/
theorem cleanLine?_text (hm : Spares markers l.name) (h : l.name ∉ typedNames) :
    cleanLine? (droppedMarkers ++ markers) l.text =
      if ∃ x ∈ droppedNames, x <+: l.name then none
      else if "desc".toList <+: l.name then
        some (" *" ++ (l.name.drop 4 ++ trimRight l.rest))
      else some (' ' :: trim l.text) := by
  have hopen : ¬("/**" : Text).isPrefixOf (trim l.text) = true := by
    rw [trim_text, List.isPrefixOf_iff_prefix]
    exact fun hprefix => absurd (List.cons_prefix_cons.1 hprefix).1 (by decide)
  have hclose : ¬("*/" : Text).isSuffixOf (trim l.text) = true := by
    rw [trim_text, List.isSuffixOf_iff_suffix, starredTag, List.suffix_cons_iff, not_or,
      ← List.cons_append, ← List.cons_append, suffix_append_iff_of_head? (by decide)]
    · exact ⟨by simp, l.not_closing⟩
    · rintro c hc
      exact Option.some.inj hc ▸ l.star_notMem
  have hdrop : ((droppedMarkers ++ markers).any fun m =>
      Text.contains m (trimRight l.text ++ " ")) = true ↔ ∃ x ∈ droppedNames, x <+: l.name := by
    simp only [List.any_eq_true, contains_iff_isInfix]
    exact l.exists_marker_iff hm
  rw [cleanLine?_eq, if_neg hopen, if_neg hclose, l.lineContent_text h]
  by_cases hname : ∃ x ∈ droppedNames, x <+: l.name
  · rw [if_pos (hdrop.2 hname), if_pos hname]
  · rw [if_neg (hdrop.not.2 hname), if_neg hname]
    split_ifs with hdesc
    · have hall : (l.name.drop 4).all isNameChar = true :=
        List.all_eq_true.2 fun c hc => List.all_eq_true.1 l.all_name c (List.mem_of_mem_drop hc)
      have htrim : trim (" *" ++ (l.name.drop 4 ++ l.rest)) =
          '*' :: trimRight (l.name.drop 4 ++ l.rest) :=
        trim_append_cons (c := '*') (by decide) [' '] (l.name.drop 4 ++ l.rest)
      rw [htrim, trimRight_append_of_eq (trimRight_of_isNameChar hall)]
      rfl
    · rfl

end TagLine

/-! ### Blocks -/

/-- The lines of a block in front of one of its lines and behind it. -/
structure BlockFrame where
  /-- The lines in front. -/
  before : List Text
  /-- The lines behind. -/
  after : List Text
  /-- Each is one line. -/
  feed_notMem : ∀ l ∈ before ++ after, '\n' ∉ l
  /-- The first line opens the comment. -/
  opening : ∃ l ∈ before.head?, "/**".toList <+: trim l
  /-- The last line ends the comment. -/
  closing : ∃ l ∈ after.getLast?, "*/".toList <:+ trim l

/-- Lines as they are printed. -/
def printedOf (markers ls : List Text) : List Text :=
  ls.filterMap (cleanLine? (droppedMarkers ++ markers))

theorem printedLines_unlines {ls : List Text} (hne : ls ≠ []) (h : ∀ l ∈ ls, '\n' ∉ l) :
    printedLines markers (unlines ls) = printedOf markers ls := by
  rw [printedLines, lines_unlines hne, flatMap_lines h, printedOf]

theorem length_cleanComment_lt_totalLength (h : printedLines markers t ≠ []) :
    (cleanComment markers t).length < totalLength (printedLines markers t) := by
  rw [cleanComment_eq, ← length_unlines h]
  split_ifs
  · exact Nat.succ_pos _
  · exact Nat.lt_succ_self _

theorem totalLength_append (ls ms : List Text) :
    totalLength (ls ++ ms) = totalLength ls + totalLength ms := by
  rw [totalLength, List.map_append, List.sum_append, totalLength, totalLength]

namespace BlockFrame

variable (b : BlockFrame)

/-- The block with given lines in the middle. -/
def fill (ls : List Text) : Text := unlines (b.before ++ (ls ++ b.after))

/-- The block as it is printed, with given lines in the middle. -/
def printed (markers ls : List Text) : Text :=
  unlines (printedOf markers b.before ++ (ls ++ printedOf markers b.after))

theorem printedOf_before_ne_nil : printedOf markers b.before ≠ [] := by
  obtain ⟨m, hm, hopen⟩ := b.opening
  have hclean : cleanLine? (droppedMarkers ++ markers) m = some "/**".toList := by
    rw [cleanLine?_eq, if_pos (List.isPrefixOf_iff_prefix.2 hopen)]
  exact List.ne_nil_of_mem (List.mem_filterMap.2 ⟨m, List.mem_of_mem_head? hm, hclean⟩)

theorem printedOf_after_ne_nil : printedOf markers b.after ≠ [] := by
  obtain ⟨m, hm, hclose⟩ := b.closing
  have hclean : (cleanLine? (droppedMarkers ++ markers) m).isSome := by
    rw [cleanLine?_eq, if_pos (List.isSuffixOf_iff_suffix.2 hclose)]
    split_ifs <;> rfl
  obtain ⟨x, hx⟩ := Option.isSome_iff_exists.1 hclean
  exact List.ne_nil_of_mem (List.mem_filterMap.2 ⟨m, List.mem_of_mem_getLast? hm, hx⟩)

theorem printedLines_fill {ls : List Text} (h : ∀ l ∈ ls, '\n' ∉ l) :
    printedLines markers (b.fill ls) =
      printedOf markers b.before ++ (printedOf markers ls ++ printedOf markers b.after) := by
  have hne : b.before ++ (ls ++ b.after) ≠ [] := by
    obtain ⟨m, hm, -⟩ := b.opening
    exact List.append_ne_nil_of_left_ne_nil (List.ne_nil_of_mem (List.mem_of_mem_head? hm)) _
  have hfeed : ∀ l ∈ b.before ++ (ls ++ b.after), '\n' ∉ l := by
    intro l hl
    simp only [List.mem_append] at hl
    rcases hl with hl | hl | hl
    · exact b.feed_notMem l (List.mem_append_left _ hl)
    · exact h l hl
    · exact b.feed_notMem l (List.mem_append_right _ hl)
  rw [fill, printedLines_unlines hne hfeed, printedOf, List.filterMap_append,
    List.filterMap_append]
  rfl

/-- A line that is printed is printed in every block. -/
theorem cleanComment_fill (hl : '\n' ∉ p)
    (h : cleanLine? (droppedMarkers ++ markers) p = some x) :
    cleanComment markers (b.fill [p]) = b.printed markers [x] := by
  have hone : printedOf markers [p] = [x] := List.filterMap_cons_some h
  have hbefore : 0 < (printedOf markers b.before).length :=
    List.length_pos_iff.2 b.printedOf_before_ne_nil
  have hafter : 0 < (printedOf markers b.after).length :=
    List.length_pos_iff.2 b.printedOf_after_ne_nil
  rw [cleanComment_eq, b.printedLines_fill (List.forall_mem_singleton.2 hl), hone, if_neg]
  · rfl
  · rw [List.length_append, List.length_append, List.length_singleton]
    omega

/-- A line that is dropped might as well not be there. -/
theorem cleanComment_fill_none (hl : '\n' ∉ p)
    (h : cleanLine? (droppedMarkers ++ markers) p = none) :
    cleanComment markers (b.fill [p]) = cleanComment markers (b.fill []) := by
  have hone : printedOf markers [p] = printedOf markers [] := List.filterMap_cons_none h
  rw [cleanComment_eq, cleanComment_eq, b.printedLines_fill (List.forall_mem_singleton.2 hl),
    b.printedLines_fill (List.forall_mem_nil _), hone]

theorem length_printed (markers : List Text) (ls : List Text) :
    (b.printed markers ls).length + 1 =
      totalLength (printedOf markers b.before) + totalLength ls +
        totalLength (printedOf markers b.after) := by
  have hne : printedOf markers b.before ++ (ls ++ printedOf markers b.after) ≠ [] :=
    List.append_ne_nil_of_left_ne_nil b.printedOf_before_ne_nil _
  rw [printed, length_unlines hne, totalLength_append, totalLength_append, Nat.add_assoc]

/-- Without a line in the middle a block gets shorter. -/
theorem cleanComment_fill_nil_ne (markers : List Text) (x : Text) :
    cleanComment markers (b.fill []) ≠ b.printed markers [x] := by
  have hlines : printedLines markers (b.fill []) =
      printedOf markers b.before ++ (printedOf markers [] ++ printedOf markers b.after) :=
    b.printedLines_fill (List.forall_mem_nil _)
  have hne : printedLines markers (b.fill []) ≠ [] := by
    rw [hlines]
    exact List.append_ne_nil_of_left_ne_nil b.printedOf_before_ne_nil _
  have hlt := length_cleanComment_lt_totalLength hne
  have hlength := b.length_printed markers [x]
  rw [hlines, totalLength_append, totalLength_append] at hlt
  intro heq
  rw [heq] at hlt
  have hnil : totalLength (printedOf markers []) = 0 := rfl
  have hone : totalLength [x] = x.length + 1 := rfl
  omega

end BlockFrame

/-! ### What becomes of the line -/

/-- What becomes of the line of a tag in all blocks. -/
structure CleansTagLine (markers : List Text) (l : TagLine) : Prop where
  /-- The line is kept exactly if the name of the tag begins neither with a dropped name nor with
  the mark of a description. -/
  kept_iff : ∀ b : BlockFrame,
    cleanComment markers (b.fill [l.text]) = b.printed markers [' ' :: trim l.text] ↔
      ∀ x ∈ "desc".toList :: droppedNames, ¬x <+: l.name
  /-- Where the name begins with a dropped one, the line might as well not be there. -/
  dropped : (∃ x ∈ droppedNames, x <+: l.name) → ∀ b : BlockFrame,
    cleanComment markers (b.fill [l.text]) = cleanComment markers (b.fill [])
  /-- The mark of a description is taken from the front of a longer name. -/
  described : ∀ v, l.name = "desc" ++ v → ∀ b : BlockFrame,
    cleanComment markers (b.fill [l.text]) =
      b.printed markers [" *" ++ (v ++ trimRight l.rest)]

theorem spares_nil (name : Text) : Spares [] name := fun _ h => absurd h List.not_mem_nil

theorem spares_classMarkers {name : Text} (h : name ∉ (["class", "alias"] : List Text)) :
    Spares classMarkers name := by
  have hall : ∀ m ∈ classMarkers, ∃ x ∈ (["class", "alias"] : List Text),
      x.all isNameChar = true ∧ m = starredTag (x ++ " ") := by decide +kernel
  intro m hm
  obtain ⟨x, hx, hname, rfl⟩ := hall m hm
  exact ⟨x, hname, fun heq => h (heq ▸ hx), rfl⟩

theorem TagLine.feed_notMem_text (l : TagLine) : '\n' ∉ l.text := by
  have hname : '\n' ∉ l.name := fun h =>
    absurd (List.all_eq_true.1 l.all_name _ h) (by decide +kernel)
  simp [TagLine.text, starredTag, hname, l.feed_notMem_rest]

/-- No dropped name begins like the mark of a description. -/
theorem not_dropped_of_desc (h : "desc".toList <+: w) : ¬∃ x ∈ droppedNames, x <+: w := by
  have hall : ∀ x ∈ droppedNames, ¬x <+: "desc".toList ∧ ¬"desc".toList <+: x := by decide
  rintro ⟨x, hx, hprefix⟩
  rcases List.prefix_or_prefix_of_prefix hprefix h with hlt | hlt
  · exact (hall x hx).1 hlt
  · exact (hall x hx).2 hlt

/-- What becomes of the line of a tag, if no further marker is its whole name. -/
theorem cleansTagLine_of_spares {l : TagLine} (hm : Spares markers l.name)
    (h : l.name ∉ typedNames) : CleansTagLine markers l := by
  have hclean := l.cleanLine?_text hm h
  have hdropped (hname : ∃ x ∈ droppedNames, x <+: l.name) (b : BlockFrame) :
      cleanComment markers (b.fill [l.text]) = cleanComment markers (b.fill []) := by
    rw [if_pos hname] at hclean
    exact b.cleanComment_fill_none l.feed_notMem_text hclean
  have hdescribed (v : Text) (hv : l.name = "desc" ++ v) (b : BlockFrame) :
      cleanComment markers (b.fill [l.text]) =
        b.printed markers [" *" ++ (v ++ trimRight l.rest)] := by
    have hdesc : "desc".toList <+: l.name := ⟨v, hv.symm⟩
    rw [if_neg (not_dropped_of_desc hdesc), if_pos hdesc, hv] at hclean
    exact b.cleanComment_fill l.feed_notMem_text hclean
  refine ⟨fun b => ?_, hdropped, hdescribed⟩
  rw [List.forall_mem_cons]
  by_cases hname : ∃ x ∈ droppedNames, x <+: l.name
  · rw [hdropped hname]
    refine iff_of_false (b.cleanComment_fill_nil_ne markers _) fun hall => ?_
    obtain ⟨x, hx, hprefix⟩ := hname
    exact hall.2 x hx hprefix
  · by_cases hdesc : "desc".toList <+: l.name
    · refine iff_of_false (fun heq => ?_) fun hall => hall.1 hdesc
      obtain ⟨v, hv⟩ := hdesc
      -- the line loses the mark, so the block gets shorter
      have htext : (' ' :: trim l.text).length = (" *" ++ (v ++ trimRight l.rest)).length + 6 := by
        rw [l.trim_text, ← hv]
        simp [starredTag]
      have hlength := b.length_printed markers [' ' :: trim l.text]
      rw [← heq, hdescribed v hv.symm b, b.length_printed, totalLength_cons, totalLength_cons,
        htext] at hlength
      omega
    · rw [if_neg hname, if_neg hdesc] at hclean
      refine iff_of_true (b.cleanComment_fill l.feed_notMem_text hclean) ⟨hdesc, ?_⟩
      exact fun x hx hprefix => hname ⟨x, hx, hprefix⟩

/-- What becomes of the line of a tag that is not a typed one, in all blocks and in those of
classes. -/
theorem cleansTagLine {l : TagLine} (h : l.name ∉ typedNames) :
    CleansTagLine [] l ∧
      (l.name ∉ (["class", "alias"] : List Text) → CleansTagLine classMarkers l) :=
  ⟨cleansTagLine_of_spares (spares_nil _) h,
    fun hname => cleansTagLine_of_spares (spares_classMarkers hname) h⟩

/-- The line of a longer class tag. -/
def classdescLine : TagLine where
  name := "classdesc"
  rest := " A store."
  all_name := by decide +kernel
  endsWord_rest := by decide +kernel
  feed_notMem_rest := by decide
  no_tag := by decide +kernel
  not_closing := by decide +kernel

/-- The description of a class is kept where the tags of classes are dropped. -/
theorem cleansTagLine_classdesc :
    CleansTagLine classMarkers classdescLine ∧
      ∀ x ∈ "desc".toList :: droppedNames, ¬x <+: classdescLine.name :=
  ⟨(cleansTagLine (by decide +kernel)).2 (by decide +kernel), by decide +kernel⟩

/-- A longer name than that of a dropped tag, and one than that of a description. -/
theorem not_kept_of_longer_name :
    "typeParam".toList ∉ "desc".toList :: (typedNames ++ droppedNames) ∧
      cleanComment [] "/**\n * @typeParam T\n */" = [] ∧
      cleanComment [] "/**\n * @typeParam T\n */" ≠ "/**\n * @typeParam T\n */" ∧
      "description".toList ∉ "desc".toList :: (typedNames ++ droppedNames) ∧
      cleanComment [] "/**\n * @description Adds.\n */" = "/**\n *ription Adds.\n */" ∧
      cleanComment [] "/**\n * @description Adds.\n */" ≠ "/**\n * @description Adds.\n */" := by
  decide +kernel

end DocDecl

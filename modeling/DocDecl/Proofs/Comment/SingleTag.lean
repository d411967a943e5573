import DocDecl.Proofs.Comment.LineBody
import DocDecl.Proofs.Text.Classes
import DocDecl.Proofs.Text.Lines

/-!
# Comments with one tag

Behind a tag stands a type in braces, which may go on in the next lines. The block of the tag joins
the bodies of its lines with the margin of the comment between them, so the type is cut out of a
text in which a star stands at every break. What stands around the type is the same in all its
layouts.

## Main definitions

* `brokenType` : a type over several lines, as it is read.
* `SingleTag` : a comment with one tag of a name, but for the type.

## Main results

* `SingleTag.lines_comment` : the lines of the comment.
* `SingleTag.tagBlocks_comment` : the block of the tag.
-/

namespace DocDecl

open Text

variable {l m : Text} {ls : List Text}

/-! ### Types that go on in other lines -/

/-- A type as it is read, where each of its pieces stands in a line of its own. -/
def brokenType : Text → List Text → Text
  | l, [] => l
  | l, m :: ms => trimRight l ++ ("\n * " ++ brokenType (trimLeft m) ms)

/-- A piece of a type that may stand in the next line. -/
structure TypePiece (p : Text) : Prop where
  /-- It is not blank. -/
  not_blank : trim p ≠ []
  /-- It begins no tag. -/
  not_tag : (trim p).head? ≠ some '@'
  /-- The comment does not end in it. -/
  not_close : ¬"*/".toList <:+: p
  /-- It is one line. -/
  oneLine : '\n' ∉ p

theorem TypePiece.head_trimLeft_append (h : TypePiece m) (t : Text) :
    trimLeft m ++ t ≠ [] ∧ (trimLeft m ++ t).head? ≠ some '@' := by
  obtain ⟨r, hr⟩ := trim_prefix_trimLeft m
  obtain ⟨c, w, hw⟩ := List.exists_cons_of_ne_nil h.not_blank
  have hhead := h.not_tag
  rw [hw] at hr hhead
  rw [← hr]
  exact ⟨List.cons_ne_nil _ _, hhead⟩

/-! ### Blocks -/

theorem blocksOfLines_append {name : Text} {bs cs : List Text}
    (h : ∀ t ∈ bs, (Tag.afterAt? [name] t).isSome = false) :
    blocksOfLines name (bs ++ cs) = blocksOfLines name cs := by
  induction bs with
  | nil => rfl
  | cons t bs ih =>
    obtain ⟨ht, hbs⟩ := List.forall_mem_cons.1 h
    rw [List.cons_append, blocksOfLines, ht, if_neg Bool.false_ne_true, ih hbs]

/-- Lines that do not begin with an at sign open no block. -/
theorem afterAt?_of_head? {name t : Text} (h : t.head? ≠ some '@') :
    (Tag.afterAt? [name] t).isSome = false := by
  rw [Bool.eq_false_iff, ne_eq, Option.isSome_iff_exists]
  rintro ⟨r, hr⟩
  rw [(Tag.afterAt?_singleton.1 hr).1] at h
  exact h rfl

/-- The one block of a tag: its line, and the lines that belong to it. -/
theorem blocksOfLines_single {name first : Text} {before tail after : List Text}
    (hbefore : ∀ t ∈ before, (Tag.afterAt? [name] t).isSome = false)
    (hfirst : (Tag.afterAt? [name] first).isSome = true)
    (htail : ∀ t ∈ tail, t ≠ [] ∧ t.head? ≠ some '@')
    (hafter : ∀ t ∈ after, (Tag.afterAt? [name] t).isSome = false) :
    blocksOfLines name (before ++ first :: (tail ++ after)) =
      [first :: (tail ++ (after.takeWhile (·.head? ≠ some '@')).filter fun t => !t.isEmpty)] := by
  have hrest : blocksOfLines name (tail ++ after) = [] := by
    have hall : ∀ t ∈ tail ++ after, (Tag.afterAt? [name] t).isSome = false :=
      List.forall_mem_append.2 ⟨fun t ht => afterAt?_of_head? (htail t ht).2, hafter⟩
    rw [← List.append_nil (tail ++ after), blocksOfLines_append hall]
    rfl
  have hfilter : tail.filter (fun t => !t.isEmpty) = tail :=
    List.filter_eq_self.2 fun t ht => by simp [(htail t ht).1]
  rw [blocksOfLines_append hbefore, blocksOfLines, if_pos hfirst, hrest,
    List.takeWhile_append_of_pos fun t ht => decide_eq_true (htail t ht).2, List.filter_append,
    hfilter]

/-! ### Comments with one tag -/

/-- A comment with one tag of a name, but for the type in braces behind the tag. -/
structure SingleTag where
  /-- The name of the tag. -/
  name : Text
  /-- The lines in front of the tag. -/
  before : List Text
  /-- What stands in front of the tag in its line. -/
  margin : Text
  /-- What stands between the tag and the type. -/
  gap : Text
  /-- What stands behind the type in its line. -/
  rest : Text
  /-- The lines behind the type. -/
  after : List Text
  isNameChar_of_mem : ∀ c ∈ name, isNameChar c = true
  isMargin : IsMargin margin
  isBlank_of_mem : ∀ c ∈ gap, isBlank c = true
  oneLine : '\n' ∉ margin ++ (gap ++ rest)
  others : ∀ l ∈ before ++ after, '\n' ∉ l ∧ (Tag.afterAt? [name] (lineBody l)).isSome = false

namespace SingleTag

variable (b : SingleTag)

/-- What is read in front of the type. -/
def head : Text := '@' :: (b.name ++ b.gap)

/-- The comment with a given type. -/
def comment (type : Text) : Text :=
  unlines (b.before ++ (b.margin ++ (b.head ++ '{' :: (type ++ '}' :: b.rest))) :: b.after)

/-- The lines of the type, where the first one begins with `w`. -/
def typeLines : Text → Text → List Text → List Text
  | w, l, [] => [w ++ (l ++ '}' :: b.rest)]
  | w, l, m :: ms => (w ++ l) :: typeLines " * " m ms

theorem feed_notMem_head : '\n' ∉ b.margin ++ (b.head ++ ['{']) := by
  have hname : '\n' ∉ b.name := fun h => absurd (b.isNameChar_of_mem _ h) (by decide)
  have hline := b.oneLine
  simp only [List.mem_append, not_or] at hline
  simp [head, hname, hline]

theorem lines_type {w : Text} (hw : '\n' ∉ w) (h : ∀ p ∈ l :: ls, '\n' ∉ p) :
    lines (w ++ (join "\n * " (l :: ls) ++ '}' :: b.rest)) = b.typeLines w l ls := by
  have hrest : '\n' ∉ b.rest := fun hmem => b.oneLine (by simp [hmem])
  induction ls generalizing w l with
  | nil =>
    have hl := h l List.mem_cons_self
    rw [typeLines, join, List.intercalate_singleton, lines,
      splitOn_of_not_mem (by simp [hw, hl, hrest])]
  | cons m ms ih =>
    obtain ⟨hl, hms⟩ := List.forall_mem_cons.1 h
    have hcut : w ++ (join "\n * " (l :: m :: ms) ++ '}' :: b.rest) =
        (w ++ l) ++ '\n' :: (" * " ++ (join "\n * " (m :: ms) ++ '}' :: b.rest)) := by
      rw [join_cons (List.cons_ne_nil m ms)]
      simp
    rw [hcut, lines_line (by simp [hw, hl]), ih (by decide) hms, typeLines]

/-- The lines of the comment. -/
theorem lines_comment (h : ∀ p ∈ l :: ls, '\n' ∉ p) :
    lines (b.comment (join "\n * " (l :: ls))) =
      b.before ++ b.typeLines (b.margin ++ (b.head ++ ['{'])) l ls ++ b.after := by
  have hothers := fun l hl => (b.others l hl).1
  have hline : b.margin ++ (b.head ++ '{' :: (join "\n * " (l :: ls) ++ '}' :: b.rest)) =
      (b.margin ++ (b.head ++ ['{'])) ++ (join "\n * " (l :: ls) ++ '}' :: b.rest) := by
    simp
  rw [List.forall_mem_append] at hothers
  rw [comment, lines_unlines (by simp), List.flatMap_append, List.flatMap_cons,
    flatMap_lines hothers.1, flatMap_lines hothers.2, hline, b.lines_type b.feed_notMem_head h,
    List.append_assoc]

/-! ### The bodies of the lines -/

/-- What is read of the line behind the type. -/
def closing : Text := withoutClose ('}' :: trimRight b.rest)

theorem withoutClose_closing (p : Text) :
    withoutClose (p ++ '}' :: trimRight b.rest) = trimLeft p ++ b.closing := by
  obtain ⟨z, hz⟩ := exists_withoutClose (c := '}') (by decide) (by decide) (trimRight b.rest)
  have hclosing : b.closing = '}' :: z := hz []
  rw [hz, hclosing]

theorem lineBody_lastLine (m : Text) :
    lineBody (" * " ++ (m ++ '}' :: b.rest)) = trimLeft m ++ b.closing := by
  have hright : trimRight (' ' :: (m ++ '}' :: b.rest)) = ' ' :: m ++ '}' :: trimRight b.rest :=
    trimRight_append_cons (by decide) (' ' :: m) b.rest
  rw [lineBody_star, hright, withoutClose_closing]
  rfl

theorem lineBody_head_append (t : Text) :
    ∃ gap : Text, gap.all isBlank = true ∧
      lineBody (b.margin ++ (b.head ++ t)) =
        withoutClose (gap ++ '@' :: trimRight (b.name ++ b.gap ++ t)) := by
  obtain ⟨gap, hgap, hbody⟩ := lineBody_margin b.isMargin (b.name ++ b.gap ++ t)
  exact ⟨gap, hgap, hbody⟩

/-- The line of the tag, where the type ends in it. -/
theorem lineBody_head_last (l : Text) :
    lineBody (b.margin ++ (b.head ++ '{' :: (l ++ '}' :: b.rest))) =
      b.head ++ '{' :: (l ++ b.closing) := by
  obtain ⟨gap, hgap, hbody⟩ := b.lineBody_head_append ('{' :: (l ++ '}' :: b.rest))
  have hright : trimRight (b.name ++ b.gap ++ '{' :: (l ++ '}' :: b.rest)) =
      (b.name ++ b.gap ++ '{' :: l) ++ '}' :: trimRight b.rest := by
    rw [← trimRight_append_cons (by decide)]
    simp
  have hleft : trimLeft (gap ++ '@' :: (b.name ++ b.gap ++ '{' :: l)) = b.head ++ '{' :: l := by
    rw [trimLeft_append_blanks hgap]
    simp [trimLeft, head, isBlank]
  rw [hbody, hright, ← List.cons_append, ← List.append_assoc, withoutClose_closing, hleft]
  simp

/-- The line of the tag, where the type goes on in the next one. -/
theorem lineBody_head (h : ¬"*/".toList <:+: l) :
    lineBody (b.margin ++ (b.head ++ '{' :: l)) = b.head ++ '{' :: trimRight l := by
  obtain ⟨gap, hgap, hbody⟩ := b.lineBody_head_append ('{' :: l)
  have hleft : trimLeft (gap ++ b.head) = b.head := by
    rw [trimLeft_append_blanks hgap]
    rfl
  have hline : gap ++ '@' :: trimRight (b.name ++ b.gap ++ '{' :: l) =
      (gap ++ b.head) ++ '{' :: trimRight l := by
    rw [trimRight_append_cons (by decide)]
    simp [head]
  have hsuffix : ¬"*/".toList <:+ trimRight l := fun hsuffix =>
    h (hsuffix.isInfix.trans (trimRight_isPrefix l).isInfix)
  rw [hbody, hline, withoutClose_append_cons (by decide) (by decide) hsuffix, hleft,
    trimRight_trimRight]

/-- The bodies of the lines that the type goes on in. -/
theorem tail_bodies (h : ∀ p ∈ m :: ls, TypePiece p) (conts : List Text) :
    (∀ x ∈ (b.typeLines " * " m ls).map lineBody, x ≠ [] ∧ x.head? ≠ some '@') ∧
      join "\n * " ((b.typeLines " * " m ls).map lineBody ++ conts) =
        brokenType (trimLeft m) ls ++ join "\n * " (b.closing :: conts) := by
  induction ls generalizing m with
  | nil =>
    have hm := h m List.mem_cons_self
    have hbodies : (b.typeLines " * " m []).map lineBody = [trimLeft m ++ b.closing] := by
      rw [typeLines, List.map_singleton, lineBody_lastLine]
    rw [hbodies, brokenType]
    refine ⟨fun x hx => List.mem_singleton.1 hx ▸ hm.head_trimLeft_append _, ?_⟩
    by_cases hconts : conts = []
    · subst hconts
      simp [join]
    · rw [List.singleton_append, join_cons hconts, join_cons hconts, List.append_assoc,
        List.append_assoc, List.append_assoc]
  | cons n ns ih =>
    obtain ⟨hm, hns⟩ := List.forall_mem_cons.1 h
    obtain ⟨hall, hjoin⟩ := ih hns
    have htail : (b.typeLines " * " n ns).map lineBody ++ conts ≠ [] := by
      cases ns <;> simp [typeLines]
    have hbodies : (b.typeLines " * " m (n :: ns)).map lineBody =
        trim m :: (b.typeLines " * " n ns).map lineBody := by
      rw [typeLines, List.map_cons, lineBody_line hm.not_close]
    rw [hbodies, brokenType]
    refine ⟨List.forall_mem_cons.2 ⟨⟨hm.not_blank, hm.not_tag⟩, hall⟩, ?_⟩
    rw [List.cons_append, join_cons htail, hjoin, trim]
    simp

/-! ### The block -/

/-- The tag opens a block. -/
theorem afterAt?_head (t : Text) : (Tag.afterAt? [b.name] (b.head ++ '{' :: t)).isSome = true := by
  have hword : endsWord (b.gap ++ '{' :: t) = true := by
    cases hgap : b.gap with
    | nil => rfl
    | cons c gap =>
      have hc := b.isBlank_of_mem c (hgap ▸ List.mem_cons_self)
      simp [endsWord, isNameChar_of_isBlank hc]
  rw [Option.isSome_iff_exists]
  exact ⟨_, Tag.afterAt?_singleton.2 ⟨by simp [head], hword⟩⟩

/-- The lines behind the type that belong to the block. -/
def continuation : List Text :=
  ((b.after.map lineBody).takeWhile (·.head? ≠ some '@')).filter fun t => !t.isEmpty

/-- What is read behind the type. -/
def behind : Text := join "\n * " (b.closing :: b.continuation)

/-- The block of the tag, where the type goes on in the lines `ls`. -/
theorem tagBlocks_comment (hl : '\n' ∉ l) (hclose : ¬"*/".toList <:+: l)
    (hls : ∀ p ∈ ls, TypePiece p) :
    tagBlocks (b.comment (join "\n * " (l :: ls))) b.name =
      [b.head ++ '{' :: (brokenType l ls ++ b.behind)] := by
  have hfeed : ∀ p ∈ l :: ls, '\n' ∉ p :=
    List.forall_mem_cons.2 ⟨hl, fun p hp => (hls p hp).oneLine⟩
  have hothers {ts : List Text} (hts : ts ⊆ b.before ++ b.after) :
      ∀ t ∈ ts.map lineBody, (Tag.afterAt? [b.name] t).isSome = false := by
    intro t ht
    obtain ⟨u, hu, rfl⟩ := List.mem_map.1 ht
    exact (b.others u (hts hu)).2
  have hblock {first : Text} {tail : List Text}
      (hlines : (b.typeLines (b.margin ++ (b.head ++ ['{'])) l ls).map lineBody =
        (b.head ++ '{' :: first) :: tail)
      (htail : ∀ t ∈ tail, t ≠ [] ∧ t.head? ≠ some '@') :
      tagBlocks (b.comment (join "\n * " (l :: ls))) b.name =
        [join "\n * " ((b.head ++ '{' :: first) :: (tail ++ b.continuation))] := by
    rw [tagBlocks, b.lines_comment hfeed, List.map_append, List.map_append, hlines,
      List.append_assoc, List.cons_append, blocksOfLines_single
        (hothers (List.subset_append_left _ _)) (b.afterAt?_head first) htail
        (hothers (List.subset_append_right _ _))]
    rfl
  cases ls with
  | nil =>
    have hlines : (b.typeLines (b.margin ++ (b.head ++ ['{'])) l []).map lineBody =
        [b.head ++ '{' :: (l ++ b.closing)] := by
      rw [typeLines, List.map_singleton, ← b.lineBody_head_last]
      simp
    rw [hblock hlines (by simp), brokenType, behind]
    by_cases hnil : b.continuation = []
    · simp [hnil, join]
    · rw [List.nil_append, join_cons hnil, join_cons hnil]
      simp
  | cons m ms =>
    obtain ⟨htail, hjoin⟩ := b.tail_bodies hls b.continuation
    have hlines : (b.typeLines (b.margin ++ (b.head ++ ['{'])) l (m :: ms)).map lineBody =
        (b.head ++ '{' :: trimRight l) :: (b.typeLines " * " m ms).map lineBody := by
      rw [typeLines, List.map_cons, ← b.lineBody_head hclose]
      simp
    have hne : (b.typeLines " * " m ms).map lineBody ++ b.continuation ≠ [] := by
      cases ms <;> simp [typeLines]
    rw [hblock hlines htail, join_cons hne, hjoin, brokenType, behind]
    simp

theorem exists_behind : ∃ R, b.behind = '}' :: R := by
  obtain ⟨z, hz⟩ := exists_withoutClose (c := '}') (by decide) (by decide) (trimRight b.rest)
  have hclosing : b.closing = '}' :: z := hz []
  obtain ⟨r, hr⟩ := prefix_join b.closing "\n * " b.continuation
  exact ⟨z ++ r, by rw [behind, ← hr, hclosing]; rfl⟩

theorem open_notMem_head : '{' ∉ b.head := by
  have hname : '{' ∉ b.name := fun h => absurd (b.isNameChar_of_mem _ h) (by decide)
  have hgap : '{' ∉ b.gap := fun h => absurd (b.isBlank_of_mem _ h) (by decide)
  simp [head, hname, hgap]

end SingleTag

end DocDecl

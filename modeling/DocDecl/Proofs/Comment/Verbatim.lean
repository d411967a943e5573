import DocDecl.Proofs.Comment.Override
import DocDecl.Proofs.LineEnds.Override
import DocDecl.Proofs.Text.Lines
import DocDecl.Proofs.Text.Trim
import Mathlib.Data.List.Infix

/-!
# Declarations word for word

A block gives its declaration in the lines behind the override tag. The declaration is read with
patterns that know nothing of lines: it goes up to the first at sign, and a blank and a star are
taken for a margin wherever they stand. So the lines are read as they are written exactly if neither
stands in them, and they are cut out exactly if none looks like the line of a tag. The margins of
the block are to be of one blank.

## Main definitions

* `docBlock` : a block of given lines.
* `DeclarationLine` : a line of a declaration.
* `TakesOver` : what is read from a block, and what is cut out of it.

## Main results

* `takesOver` : when the declaration is read as it is written, and when its lines are cut out.
* `not_verbatim_of_star` : declarations that are not.
-/

namespace DocDecl

open Text

variable {as bs ds ls : List Text} {d l t : Text} {k : Nat}

/-! ### Blocks -/

/-- The lines of a block behind the first one, where the margin is one blank and `k` more. -/
def blockLines (k : Nat) : List Text → Text
  | [] => ' ' :: (List.replicate k ' ' ++ "*/")
  | l :: ls => ' ' :: (List.replicate k ' ' ++ ("* " ++ (l ++ '\n' :: blockLines k ls)))

/-- A block of given lines. -/
def docBlock (k : Nat) (ls : List Text) : Text := "/**" ++ '\n' :: blockLines k ls

/-- The tag in front of a declaration. -/
def declarationTag : Text := "@tsdeclaration"

/-- A block with a declaration in it. -/
def overrideBlock (k : Nat) (bs ds as : List Text) : Text :=
  docBlock k (bs ++ declarationTag :: (ds ++ as))

/-- The lines of a block up to a given one. -/
def openingLines (k : Nat) (ls : List Text) : Text :=
  ls.flatMap fun l => ' ' :: (List.replicate k ' ' ++ ("* " ++ (l ++ ['\n'])))

theorem blockLines_append (k : Nat) (ls ms : List Text) :
    blockLines k (ls ++ ms) = openingLines k ls ++ blockLines k ms := by
  induction ls with
  | nil => rfl
  | cons l ls ih =>
    rw [List.cons_append, blockLines, ih]
    simp [openingLines]

/-- Each line begins with its margin. -/
theorem exists_of_mem_lines_blockLines (h : ∀ l ∈ ls, '\n' ∉ l) {m : Text}
    (hm : m ∈ lines (blockLines k ls)) : ∃ r, m = ' ' :: (List.replicate k ' ' ++ '*' :: r) := by
  have hfeed : '\n' ∉ List.replicate k ' ' := by simp [List.mem_replicate]
  induction ls with
  | nil =>
    rw [blockLines, lines, splitOn_of_not_mem (by simp [hfeed]), List.mem_singleton] at hm
    exact ⟨['/'], hm⟩
  | cons l ls ih =>
    obtain ⟨hl, hls⟩ := List.forall_mem_cons.1 h
    have hline : blockLines k (l :: ls) =
        (' ' :: (List.replicate k ' ' ++ ("* " ++ l))) ++ '\n' :: blockLines k ls := by
      simp [blockLines]
    rw [hline, lines_line (by simp [hfeed, hl]), List.mem_cons] at hm
    rcases hm with rfl | hm
    · exact ⟨' ' :: l, rfl⟩
    · exact ih hls hm

/-! ### Margins of more than one blank -/

/-- The override tag is read only with a margin of one blank behind it. -/
theorem contains_overrideTag_docBlock (h : ∀ l ∈ ls, '\n' ∉ l) :
    contains overrideTag (docBlock (k + 1) ls) = false := by
  rw [Bool.eq_false_iff, ne_eq, contains_iff_isInfix]
  intro htag
  have htag : declarationTag ++ '\n' :: " * " <:+: docBlock (k + 1) ls := htag
  obtain ⟨l, hl, hprefix⟩ := exists_mem_lines_of_isInfix (by decide) htag
  rw [docBlock, lines_line (by decide), List.mem_cons] at hl
  rcases hl with rfl | hl
  · exact absurd hprefix (by decide)
  · obtain ⟨r, rfl⟩ := exists_of_mem_lines_blockLines h hl
    rw [List.replicate_succ] at hprefix
    have hstar := (List.cons_prefix_cons.1 (List.cons_prefix_cons.1 hprefix).2).1
    exact absurd hstar (by decide)

/-! ### Where the declaration begins -/

theorem blockLines_zero_cons (l : Text) (ls : List Text) :
    blockLines 0 (l :: ls) = (" * " ++ l) ++ '\n' :: blockLines 0 ls := by
  simp [blockLines]

/-- A line that does not end with the tag is passed over, whatever part of the margin the pattern
begins with. -/
theorem not_suffix_margin {x : Text} (h : ¬declarationTag <:+ l) :
    ¬x ++ declarationTag <:+ " * " ++ l := by
  intro hx
  have hmargin : " * ".toList ++ l = ' ' :: '*' :: ' ' :: l := rfl
  have htag : declarationTag = '@' :: "tsdeclaration".toList := rfl
  have hsuffix := (List.suffix_append x declarationTag).trans hx
  rw [hmargin, List.suffix_cons_iff, List.suffix_cons_iff, List.suffix_cons_iff] at hsuffix
  exact h (by simpa [htag] using hsuffix)

/-- The first override tag that ends a line is found, with a part of the margin in front of it. -/
theorem cut?_overrideBlock {x y : Text} (hxy : y ++ x = " * ".toList)
    (hbs : ∀ b ∈ bs, '\n' ∉ b ∧ ¬declarationTag <:+ b) (d : Text) (ls : List Text) :
    cut? ((x ++ declarationTag) ++ '\n' :: " * ")
        (docBlock 0 (bs ++ declarationTag :: d :: ls)) =
      some ("/**" ++ '\n' :: (openingLines 0 bs ++ y), d ++ '\n' :: blockLines 0 ls) := by
  have hmargin : '\n' ∉ y ∧ '\n' ∉ x := by
    rw [← List.mem_append.not.trans not_or, hxy]
    decide
  have hfeed : '\n' ∉ x ++ declarationTag := by
    rw [List.mem_append, not_or]
    exact ⟨hmargin.2, by decide⟩
  have hcut : cut? ((x ++ declarationTag) ++ '\n' :: " * ")
      (blockLines 0 (bs ++ declarationTag :: d :: ls)) =
      some (openingLines 0 bs ++ y, d ++ '\n' :: blockLines 0 ls) := by
    induction bs with
    | nil =>
      have hline : blockLines 0 (declarationTag :: d :: ls) =
          y ++ ((x ++ declarationTag) ++ '\n' :: (" * " ++ (d ++ '\n' :: blockLines 0 ls))) := by
        rw [blockLines_zero_cons, blockLines_zero_cons, ← hxy]
        simp
      rw [List.nil_append, hline, cut?_lineEnd hfeed hmargin.1]
      rfl
    | cons b bs ih =>
      obtain ⟨⟨hb, htag⟩, hbs⟩ := List.forall_mem_cons.1 hbs
      have hb : '\n' ∉ " * ".toList ++ b := by simp [hb]
      rw [List.cons_append, blockLines_zero_cons, cut?_line hfeed hb (not_suffix_margin htag),
        ih hbs]
      simp [openingLines]
  have hfirst : ¬x ++ declarationTag <:+ "/**".toList := fun h =>
    absurd ((List.suffix_append x declarationTag).trans h) (by decide)
  rw [docBlock, cut?_line hfeed (by decide) hfirst, hcut]
  rfl

/-! ### Declarations -/

/-- A line of a declaration in a block. -/
structure DeclarationLine (d : Text) : Prop where
  /-- It is not empty. -/
  ne_nil : d ≠ []
  /-- No blanks stand around it. -/
  trimmed : trim d = d
  /-- The block does not end in it. -/
  not_close : ¬"*/".toList <:+: d
  /-- It is one line. -/
  oneLine : '\n' ∉ d

theorem declarationLine_iff :
    DeclarationLine d ↔ d ≠ [] ∧ trim d = d ∧ ¬"*/".toList <:+: d ∧ '\n' ∉ d :=
  ⟨fun h => ⟨h.ne_nil, h.trimmed, h.not_close, h.oneLine⟩, fun h => ⟨h.1, h.2.1, h.2.2.1, h.2.2.2⟩⟩

instance (d : Text) : Decidable (DeclarationLine d) := decidable_of_iff' _ declarationLine_iff

/-- The lines of a declaration as they stand in a block. -/
def inBlock (ds : List Text) : Text := join "\n * " ds

theorem inBlock_cons (h : ds ≠ []) (d : Text) :
    inBlock (d :: ds) = d ++ '\n' :: (" * " ++ inBlock ds) := by
  rw [inBlock, join_cons h, List.append_assoc]
  rfl

theorem blockLines_declaration (d : Text) (ds as : List Text) :
    d ++ '\n' :: blockLines 0 (ds ++ as) = inBlock (d :: ds) ++ '\n' :: blockLines 0 as := by
  induction ds generalizing d with
  | nil => simp [inBlock, join]
  | cons e ds ih =>
    rw [List.cons_append, blockLines_zero_cons, List.append_assoc, ih,
      inBlock_cons (List.cons_ne_nil e ds)]
    simp

theorem at_notMem_inBlock (h : ∀ d ∈ ds, '@' ∉ d) : '@' ∉ inBlock ds := by
  induction ds with
  | nil => exact List.not_mem_nil
  | cons d ds ih =>
    obtain ⟨hd, hds⟩ := List.forall_mem_cons.1 h
    by_cases hnil : ds = []
    · subst hnil
      simpa [inBlock, join] using hd
    · simp [inBlock_cons hnil, hd, ih hds]

/-- The margins between the lines add no closing mark to them. -/
theorem not_close_inBlock (h : ∀ d ∈ ds, DeclarationLine d) : ¬"*/".toList <:+: inBlock ds := by
  induction ds with
  | nil => simp [inBlock, join]
  | cons d ds ih =>
    obtain ⟨hd, hds⟩ := List.forall_mem_cons.1 h
    by_cases hnil : ds = []
    · subst hnil
      simpa [inBlock, join] using hd.not_close
    · have hmargin : ¬['*', '/'] <:+: ' ' :: '*' :: ' ' :: inBlock ds := by
        have hrest : ¬['*', '/'] <:+: inBlock ds := ih hds
        simpa [List.infix_cons_iff, List.cons_prefix_cons] using hrest
      rw [inBlock_cons hnil, infix_append_cons_iff (by decide), not_or]
      exact ⟨hd.not_close, hmargin⟩

theorem DeclarationLine.exists_cons (h : DeclarationLine d) :
    ∃ c r, d = c :: r ∧ isBlank c = false := by
  obtain ⟨c, r, rfl⟩ := List.exists_cons_of_ne_nil h.ne_nil
  have hleft := (trim_eq_self_iff.1 h.trimmed).1
  have hc := List.dropWhile_eq_self_iff.1 hleft (by simp)
  exact ⟨c, r, rfl, by simpa using hc⟩

theorem DeclarationLine.trimLeft_append (h : DeclarationLine d) (t : Text) :
    trimLeft (d ++ t) = d ++ t := by
  obtain ⟨c, r, rfl, hc⟩ := h.exists_cons
  exact List.dropWhile_cons_of_neg (by simp [hc])

theorem unlines_ne_nil (hds : ∀ d ∈ ds, DeclarationLine d) (hne : ds ≠ []) : unlines ds ≠ [] := by
  obtain ⟨d, ds, rfl⟩ := List.exists_cons_of_ne_nil hne
  obtain ⟨u, hu⟩ := prefix_join d "\n" ds
  rw [unlines, ← hu]
  exact List.append_ne_nil_of_left_ne_nil (hds d List.mem_cons_self).ne_nil u

theorem trim_unlines (hds : ∀ d ∈ ds, DeclarationLine d) (hne : ds ≠ []) :
    trim (unlines ds) = unlines ds := by
  refine trim_eq_self_iff.2 ⟨?_, ?_⟩
  · obtain ⟨d, ds, rfl⟩ := List.exists_cons_of_ne_nil hne
    obtain ⟨u, hu⟩ := prefix_join d "\n" ds
    rw [unlines, ← hu]
    exact (hds d List.mem_cons_self).trimLeft_append u
  · induction ds with
    | nil => exact absurd rfl hne
    | cons d ds ih =>
      obtain ⟨hd, hds⟩ := List.forall_mem_cons.1 hds
      have hright := (trim_eq_self_iff.1 hd.trimmed).2
      by_cases hnil : ds = []
      · subst hnil
        simpa [unlines, join] using hright
      · have hfeed : trimRight ('\n' :: unlines ds) = '\n' :: unlines ds := by
          rw [← List.singleton_append, trimRight_append, ih hds hnil,
            if_neg (unlines_ne_nil hds hnil)]
        rw [unlines_cons hnil, trimRight_append_of_eq hright, hfeed]

/-! ### How far a declaration goes -/

theorem declarationLines_line (hat : '@' ∉ l) (hclose : ¬"*/".toList <:+: l) (t : Text) :
    declarationLines (l ++ '\n' :: t) = l ++ '\n' :: declarationLines t := by
  induction l with
  | nil => exact if_neg (by simp [List.isPrefixOf])
  | cons c l ih =>
    rw [List.mem_cons, not_or] at hat
    have hprefix : ("*/" : Text).isPrefixOf (c :: (l ++ '\n' :: t)) = false := by
      rw [Bool.eq_false_iff, ne_eq, List.isPrefixOf_iff_prefix, ← List.cons_append,
        prefix_append_cons_iff (by decide)]
      exact fun h => hclose h.isInfix
    rw [List.cons_append, declarationLines, hprefix, if_neg (by simp [Ne.symm hat.1]),
      ih hat.2 fun h => hclose (List.infix_cons h)]
    rfl

theorem at_notMem_declarationLines (t : Text) : '@' ∉ declarationLines t := by
  induction t with
  | nil => exact List.not_mem_nil
  | cons c t ih =>
    rw [declarationLines]
    split_ifs with h
    · exact List.not_mem_nil
    · rw [List.mem_cons, not_or]
      exact ⟨fun hc => h (.inl hc.symm), ih⟩

/-! ### Margins -/

theorem dropMargins_cons_of_not (c : Char) (h : ¬[' ', '*'] <+: c :: t) :
    dropMargins (c :: t) = c :: dropMargins t := by
  rw [dropMargins, if_neg]
  rintro ⟨rfl, hhead⟩
  obtain ⟨t, rfl⟩ := List.head?_eq_some_iff.1 hhead
  exact h ⟨t, rfl⟩

theorem dropMargins_margin (t : Text) :
    dropMargins (' ' :: '*' :: t) = dropMargins (t.dropWhile isBlank) := by
  rw [dropMargins, if_pos ⟨rfl, rfl⟩]
  rfl

theorem dropMargins_line (h : ¬[' ', '*'] <:+: l) (t : Text) :
    dropMargins (l ++ '\n' :: t) = l ++ '\n' :: dropMargins t := by
  induction l with
  | nil => exact dropMargins_cons_of_not '\n' (by simp [List.cons_prefix_cons])
  | cons c l ih =>
    have hhead : ¬[' ', '*'] <+: c :: (l ++ '\n' :: t) := by
      rw [← List.cons_append, prefix_append_cons_iff (by decide)]
      exact fun hprefix => h hprefix.isInfix
    rw [List.cons_append, dropMargins_cons_of_not c hhead, ih fun hl => h (List.infix_cons hl)]
    rfl

theorem mem_of_mem_dropMargins {c : Char} (h : c ∈ dropMargins t) : c ∈ t := by
  induction t using dropMargins.induct with
  | case1 => rwa [dropMargins] at h
  | case2 d t hd ih =>
    rw [dropMargins, if_pos hd] at h
    exact List.mem_cons_of_mem d (List.mem_of_mem_tail ((List.dropWhile_sublist _).subset (ih h)))
  | case3 d t hd ih =>
    rw [dropMargins, if_neg hd, List.mem_cons] at h
    exact List.mem_cons.2 (h.imp_right ih)

/-- A star behind a blank in a line is taken for a margin, so the line is not read as it is. -/
theorem not_prefix_dropMargins (h : [' ', '*'] <:+: l) (t u : Text) :
    ¬l ++ u <+: dropMargins (l ++ t) := by
  induction l with
  | nil => simp at h
  | cons c l ih =>
    rw [List.cons_append, List.cons_append]
    by_cases hmargin : [' ', '*'] <+: c :: (l ++ t)
    · obtain ⟨r, hr⟩ := hmargin
      obtain ⟨rfl, hr⟩ := List.cons.inj hr
      rw [← hr]
      intro hprefix
      have hprefix : ' ' :: (l ++ u) <+: dropMargins (r.dropWhile isBlank) :=
        dropMargins_margin r ▸ hprefix
      -- what follows the blanks is no blank
      cases hrest : r.dropWhile isBlank with
      | nil => simp [hrest, dropMargins] at hprefix
      | cons e v =>
        have he : isBlank e = false := by simpa [hrest] using List.head?_dropWhile_not isBlank r
        have hne : ¬[' ', '*'] <+: e :: v := fun h => by
          obtain rfl := (List.cons_prefix_cons.1 h).1
          exact absurd he (by decide)
        rw [hrest, dropMargins_cons_of_not e hne] at hprefix
        obtain rfl := (List.cons_prefix_cons.1 hprefix).1
        exact absurd he (by decide)
    · have hl : [' ', '*'] <:+: l := by
        refine (List.infix_cons_iff.1 h).resolve_left fun hprefix => hmargin ?_
        exact hprefix.trans (List.prefix_append (c :: l) t)
      rw [dropMargins_cons_of_not c hmargin, List.cons_prefix_cons]
      exact fun hprefix => ih hl hprefix.2

/-- A declaration begins with no blank, and with no margin. -/
theorem exists_inBlock_append (hds : ∀ d ∈ ds, DeclarationLine d) (hne : ds ≠ []) (t : Text) :
    ∃ c r, inBlock ds ++ t = c :: r ∧ isBlank c = false ∧ ¬[' ', '*'] <+: c :: r := by
  obtain ⟨d, ds, rfl⟩ := List.exists_cons_of_ne_nil hne
  obtain ⟨c, r, rfl, hc⟩ := (hds d List.mem_cons_self).exists_cons
  obtain ⟨u, hu⟩ := prefix_join (c :: r) "\n * " ds
  refine ⟨c, r ++ u ++ t, by rw [inBlock, ← hu]; rfl, hc, fun hprefix => ?_⟩
  obtain rfl := (List.cons_prefix_cons.1 hprefix).1
  exact absurd hc (by decide)

theorem dropMargins_inBlock (hds : ∀ d ∈ ds, DeclarationLine d) (hne : ds ≠ []) (t : Text) :
    dropMargins (" * " ++ (inBlock ds ++ t)) = dropMargins (inBlock ds ++ t) := by
  obtain ⟨c, r, heq, hc, -⟩ := exists_inBlock_append hds hne t
  have hmargin : " * ".toList ++ (inBlock ds ++ t) = ' ' :: '*' :: ' ' :: (inBlock ds ++ t) := rfl
  rw [hmargin, dropMargins_margin, List.dropWhile_cons_of_pos (by decide), heq,
    List.dropWhile_cons_of_neg (by simp [hc])]

theorem trimLeft_dropMargins (hds : ∀ d ∈ ds, DeclarationLine d) (hne : ds ≠ []) (t : Text) :
    trimLeft (dropMargins (inBlock ds ++ t)) = dropMargins (inBlock ds ++ t) := by
  obtain ⟨c, r, heq, hc, hmargin⟩ := exists_inBlock_append hds hne t
  rw [heq, dropMargins_cons_of_not c hmargin]
  exact List.dropWhile_cons_of_neg (by simp [hc])

/-- Lines without stars behind blanks are read as they are. -/
theorem dropMargins_lines (hds : ∀ d ∈ ds, DeclarationLine d ∧ ¬[' ', '*'] <:+: d) (hne : ds ≠ [])
    (t : Text) : dropMargins (inBlock ds ++ '\n' :: t) = unlines ds ++ '\n' :: dropMargins t := by
  induction ds with
  | nil => exact absurd rfl hne
  | cons d ds ih =>
    obtain ⟨hd, hds⟩ := List.forall_mem_cons.1 hds
    by_cases hnil : ds = []
    · subst hnil
      simpa [inBlock, unlines, join] using dropMargins_line hd.2 t
    · rw [inBlock_cons hnil, List.append_assoc, List.cons_append, List.append_assoc,
        dropMargins_line hd.2, dropMargins_inBlock (fun e he => (hds e he).1) hnil, ih hds hnil,
        unlines_cons hnil, List.append_assoc]
      rfl

/-- Lines that are read as they are have no stars behind blanks. -/
theorem of_prefix_dropMargins (hds : ∀ d ∈ ds, DeclarationLine d)
    (h : unlines ds <+: dropMargins (inBlock ds ++ '\n' :: t)) :
    ∀ d ∈ ds, ¬[' ', '*'] <:+: d := by
  induction ds with
  | nil => exact fun d hd => absurd hd List.not_mem_nil
  | cons d ds ih =>
    obtain ⟨-, hds⟩ := List.forall_mem_cons.1 hds
    have hd : ¬[' ', '*'] <:+: d := by
      intro hstar
      obtain ⟨u, hu⟩ := prefix_join d "\n" ds
      obtain ⟨v, hv⟩ := prefix_join d "\n * " ds
      rw [unlines, inBlock, ← hu, ← hv, List.append_assoc] at h
      exact not_prefix_dropMargins hstar _ u h
    refine List.forall_mem_cons.2 ⟨hd, ?_⟩
    by_cases hnil : ds = []
    · subst hnil
      exact fun e he => absurd he List.not_mem_nil
    · rw [inBlock_cons hnil, List.append_assoc, List.cons_append, List.append_assoc,
        dropMargins_line hd, unlines_cons hnil, List.prefix_append_right_inj, List.cons_prefix_cons,
        dropMargins_inBlock hds hnil] at h
      exact ih hds h.2

/-- In front of the closing mark or of the next tag the declaration ends, but for blanks. -/
theorem dropMargins_blockLines (has : ∀ a ∈ as, a.head? = some '@') :
    (dropMargins (declarationLines (blockLines 0 as))).all isBlank = true := by
  cases as with
  | nil => decide +kernel
  | cons a as =>
    obtain ⟨a, rfl⟩ := List.head?_eq_some_iff.1 (has a List.mem_cons_self)
    have hmargin : declarationLines (blockLines 0 (('@' :: a) :: as)) = " * ".toList := by
      rw [blockLines_zero_cons]
      simp [declarationLines]
    rw [hmargin]
    decide +kernel

/-! ### What is read -/

theorem overrideOf_overrideBlock (hbs : ∀ b ∈ bs, '\n' ∉ b ∧ ¬declarationTag <:+ b)
    (hne : ds ≠ []) :
    overrideOf (overrideBlock 0 bs ds as) =
      trim (dropMargins (declarationLines (inBlock ds ++ '\n' :: blockLines 0 as))) := by
  obtain ⟨d, ds, rfl⟩ := List.exists_cons_of_ne_nil hne
  have hcut := cut?_overrideBlock (x := []) (y := " * ") rfl hbs d (ds ++ as)
  rw [blockLines_declaration] at hcut
  rw [overrideOf]
  generalize heq : cut? _ _ = o
  obtain rfl := heq.symm.trans hcut
  rfl

/-- The lines are read as they are written exactly if neither an at sign nor a star behind a blank
stands in them. -/
theorem overrideOf_eq_iff (hbs : ∀ b ∈ bs, '\n' ∉ b ∧ ¬declarationTag <:+ b)
    (hds : ∀ d ∈ ds, DeclarationLine d) (hne : ds ≠ []) (has : ∀ a ∈ as, a.head? = some '@') :
    overrideOf (overrideBlock 0 bs ds as) = unlines ds ↔
      ∀ d ∈ ds, '@' ∉ d ∧ ¬[' ', '*'] <:+: d := by
  rw [overrideOf_overrideBlock hbs hne]
  have hread (hat : ∀ d ∈ ds, '@' ∉ d) :
      declarationLines (inBlock ds ++ '\n' :: blockLines 0 as) =
        inBlock ds ++ '\n' :: declarationLines (blockLines 0 as) :=
    declarationLines_line (at_notMem_inBlock hat) (not_close_inBlock hds) _
  constructor
  · intro h
    have hat : ∀ d ∈ ds, '@' ∉ d := by
      intro d hd hmem
      have hjoined : '@' ∈ unlines ds := (infix_join hd "\n").subset hmem
      rw [← h] at hjoined
      exact at_notMem_declarationLines _ (mem_of_mem_dropMargins (mem_of_mem_trim hjoined))
    rw [hread hat] at h
    have hprefix := trim_prefix_trimLeft
      (dropMargins (inBlock ds ++ '\n' :: declarationLines (blockLines 0 as)))
    rw [h, trimLeft_dropMargins hds hne] at hprefix
    exact fun d hd => ⟨hat d hd, of_prefix_dropMargins hds hprefix d hd⟩
  · intro h
    have hblank :
        ('\n' :: dropMargins (declarationLines (blockLines 0 as))).all isBlank = true := by
      rw [List.all_cons, dropMargins_blockLines has]
      rfl
    rw [hread fun d hd => (h d hd).1, dropMargins_lines (fun d hd => ⟨hds d hd, (h d hd).2⟩) hne,
      trim_append_blanks hblank, trim_unlines hds hne]

/-! ### What is cut out -/

/-- What is cut out goes up to the first end behind the tag. -/
theorem withoutOverride_overrideBlock (hbs : ∀ b ∈ bs, '\n' ∉ b ∧ ¬declarationTag <:+ b)
    (hne : ds ≠ []) {n : Nat}
    (hn : findAny? overrideEnds (inBlock ds ++ '\n' :: blockLines 0 as) = some n) :
    withoutOverride (overrideBlock 0 bs ds as) =
      "/**" ++ '\n' :: (openingLines 0 bs ++ (inBlock ds ++ '\n' :: blockLines 0 as).drop n) := by
  obtain ⟨d, ds, rfl⟩ := List.exists_cons_of_ne_nil hne
  have hcut := cut?_overrideBlock (x := " * ") (y := []) rfl hbs d (ds ++ as)
  rw [blockLines_declaration] at hcut
  rw [withoutOverride]
  generalize heq : cut? _ _ = o
  obtain rfl := heq.symm.trans hcut
  simp only
  generalize heq : findAny? _ _ = o
  obtain rfl := heq.symm.trans hn
  simp

/-- Behind the declaration the next end follows. -/
theorem findAny?_blockLines (has : ∀ a ∈ as, a.head? = some '@') :
    findAny? overrideEnds (blockLines 0 as) = some 0 := by
  cases as with
  | nil => decide
  | cons a as =>
    obtain ⟨a, rfl⟩ := List.head?_eq_some_iff.1 (has a List.mem_cons_self)
    rw [blockLines_zero_cons]
    simp [findAny?, overrideEnds]

/-- Just the lines of the declaration are cut out exactly if none looks like the line of a tag. -/
theorem withoutOverride_eq_iff (hbs : ∀ b ∈ bs, '\n' ∉ b ∧ ¬declarationTag <:+ b)
    (hds : ∀ d ∈ ds, DeclarationLine d) (hne : ds ≠ []) (has : ∀ a ∈ as, a.head? = some '@') :
    withoutOverride (overrideBlock 0 bs ds as) = docBlock 0 (bs ++ as) ↔
      ¬" * @".toList <:+: inBlock ds := by
  have hblock : docBlock 0 (bs ++ as) =
      "/**" ++ '\n' :: (openingLines 0 bs ++ blockLines 0 as) := by
    rw [docBlock, blockLines_append]
  constructor
  · rintro h ⟨x, y, hxy⟩
    have hstands : AnyStandsAt overrideEnds (inBlock ds ++ '\n' :: blockLines 0 as) x.length := by
      refine ⟨" * @", by simp [overrideEnds], ?_⟩
      rw [StandsAt, ← hxy, List.append_assoc, List.append_assoc, List.drop_left]
      exact List.prefix_append _ _
    cases hn : findAny? overrideEnds (inBlock ds ++ '\n' :: blockLines 0 as) with
    | none => exact (findAny?_eq_none_iff (by decide)).1 hn _ hstands
    | some n =>
      have hle := ((findAny?_eq_some_iff (by decide)).1 hn).2 _ hstands
      rw [withoutOverride_overrideBlock hbs hne hn, hblock] at h
      have hrest := congrArg List.length (List.append_cancel_left (List.cons.inj
        (List.append_cancel_left h)).2)
      have hlength := congrArg List.length hxy
      simp only [List.length_append, List.length_drop, List.length_cons] at hrest hlength
      omega
  · intro htag
    have hends : ∀ p ∈ overrideEnds, ¬p <:+: inBlock ds := by
      have hclose : ¬" */".toList <:+: inBlock ds := fun hp =>
        not_close_inBlock hds ((List.suffix_cons ' ' "*/".toList).isInfix.trans hp)
      exact List.forall_mem_cons.2 ⟨hclose, List.forall_mem_cons.2 ⟨htag, List.forall_mem_nil _⟩⟩
    have hn := findAny?_line (by decide) hends (blockLines 0 as)
    rw [findAny?_blockLines has] at hn
    rw [withoutOverride_overrideBlock hbs hne hn, hblock]
    simp

/-! ### Taking over -/

/-- What is read from a block with a declaration, and what is left of the block. -/
structure TakesOver (k : Nat) (bs ds as : List Text) : Prop where
  /-- The lines of the declaration are read as they are written exactly if the margins are of one
  blank, and neither an at sign nor a star behind a blank stands in the lines. -/
  reads_iff : overrideOf (overrideBlock k bs ds as) = unlines ds ↔
    k = 0 ∧ ∀ d ∈ ds, '@' ∉ d ∧ ¬" *".toList <:+: d
  /-- Just the tag and these lines are cut out exactly if the margins are of one blank, and none of
  the lines looks like the line of a tag. -/
  cuts_iff : withoutOverride (overrideBlock k bs ds as) = docBlock k (bs ++ as) ↔
    k = 0 ∧ ¬" * @".toList <:+: inBlock ds
  /-- With longer margins nothing is read, and nothing is cut out. -/
  indented (hk : 0 < k) : overrideOf (overrideBlock k bs ds as) = [] ∧
    withoutOverride (overrideBlock k bs ds as) = overrideBlock k bs ds as

/-- **Declarations in blocks.** -/
theorem takesOver (k : Nat) (hbs : ∀ b ∈ bs, '\n' ∉ b ∧ ¬declarationTag <:+ b)
    (hds : ∀ d ∈ ds, DeclarationLine d) (hne : ds ≠ [])
    (has : ∀ a ∈ as, '\n' ∉ a ∧ a.head? = some '@') : TakesOver k bs ds as := by
  have htags : ∀ a ∈ as, a.head? = some '@' := fun a ha => (has a ha).2
  have hfeed : ∀ l ∈ bs ++ declarationTag :: (ds ++ as), '\n' ∉ l := by
    simp only [List.mem_append, List.mem_cons]
    rintro l (hl | rfl | hl | hl)
    · exact (hbs l hl).1
    · decide
    · exact (hds l hl).oneLine
    · exact (has l hl).1
  have hindented (hk : 0 < k) : overrideOf (overrideBlock k bs ds as) = [] ∧
      withoutOverride (overrideBlock k bs ds as) = overrideBlock k bs ds as := by
    obtain ⟨k, rfl⟩ := Nat.exists_eq_succ_of_ne_zero (Nat.ne_of_gt hk)
    have htag := contains_overrideTag_docBlock (k := k) hfeed
    exact ⟨overrideOf_eq_nil htag, withoutOverride_eq_self htag⟩
  refine ⟨?_, ?_, hindented⟩
  · rcases Nat.eq_zero_or_pos k with rfl | hk
    · rw [overrideOf_eq_iff hbs hds hne htags, eq_self, true_and]
      rfl
    · rw [(hindented hk).1]
      exact iff_of_false (unlines_ne_nil hds hne).symm fun h => Nat.ne_of_gt hk h.1
  · rcases Nat.eq_zero_or_pos k with rfl | hk
    · rw [withoutOverride_eq_iff hbs hds hne htags, eq_self, true_and]
    · rw [(hindented hk).2]
      refine iff_of_false (fun h => ?_) fun h => Nat.ne_of_gt hk h.1
      rw [overrideBlock, docBlock, docBlock, blockLines_append, blockLines_append] at h
      have hrest := List.append_cancel_left (List.cons.inj (List.append_cancel_left h)).2
      have hlength := congrArg List.length hrest
      rw [← List.cons_append, blockLines_append, List.length_append, openingLines,
        List.flatMap_cons, List.length_append, List.length_cons] at hlength
      omega

/-- Two lines between the lines of other tags. -/
theorem takesOver_of_overloads :
    overrideBlock 0 ["@memberof Foo"] ["f(): A", "f(b: B): A"] ["@private"] =
        "/**\n * @memberof Foo\n * @tsdeclaration\n * f(): A\n * f(b: B): A\n * @private\n */" ∧
      overrideOf (overrideBlock 0 ["@memberof Foo"] ["f(): A", "f(b: B): A"] ["@private"]) =
        "f(): A\nf(b: B): A" ∧
      withoutOverride (overrideBlock 0 ["@memberof Foo"] ["f(): A", "f(b: B): A"] ["@private"]) =
        "/**\n * @memberof Foo\n * @private\n */" := by
  have h : TakesOver 0 ["@memberof Foo"] ["f(): A", "f(b: B): A"] ["@private"] :=
    takesOver 0 (by decide +kernel) (by decide +kernel) (List.cons_ne_nil _ _) (by decide +kernel)
  exact ⟨by decide +kernel, (h.reads_iff.2 (by decide +kernel)).trans (by decide +kernel),
    (h.cuts_iff.2 (by decide +kernel)).trans (by decide +kernel)⟩

/-- A star is dropped with the blanks around it, a declaration ends at an at sign, one that looks
like the line of a tag stays, and with a margin of two blanks nothing is read. -/
theorem not_verbatim_of_star :
    (∀ d ∈ ["export * from './a';", "f(x: import('@scope/a').A): void",
      "f(): void; // see * @b", "f(): void"], DeclarationLine d) ∧
      overrideOf (overrideBlock 0 [] ["export * from './a';"] []) = "exportfrom './a';" ∧
      overrideOf (overrideBlock 0 [] ["export * from './a';"] []) ≠
        unlines ["export * from './a';"] ∧
      overrideOf (overrideBlock 0 [] ["f(x: import('@scope/a').A): void"] []) =
        "f(x: import('" ∧
      withoutOverride (overrideBlock 0 [] ["f(): void; // see * @b"] []) = docBlock 0 ["@b"] ∧
      withoutOverride (overrideBlock 0 [] ["f(): void; // see * @b"] []) ≠ docBlock 0 [] ∧
      overrideBlock 1 [] ["f(): void"] [] = "/**\n  * @tsdeclaration\n  * f(): void\n  */" ∧
      overrideOf (overrideBlock 1 [] ["f(): void"] []) = [] := by
  decide +kernel

end DocDecl

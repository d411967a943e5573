import DocDecl.Proofs.Comment.Excerpt
import DocDecl.Proofs.Comment.Naming
import DocDecl.Proofs.Comment.Override

/-!
# A block is classified, or it is reported

The places of the tags are looked for in the source as it is, but whether a block has a known tag is
asked of its comment, without the override. So a block is reported exactly if it is not private and
all its known markers stand in the override. Where the override has none, a block is reported if it
has no known marker, and is not among the classified ones then. A known tag in an override is both:
its block is classified, and reported all the same. This comes about where the line behind the
override tag is no declaration, but a tag line.

## Main definitions

* `Area.text` : the text of a block as it stands in the source.
* `taggedBlocks` : the blocks of a source that hold a tag.
* `Collected.classified` : the areas of the tags that a block is classified by.
* `CoversBlocks` : which blocks are reported.

## Main results

* `exists_taggedBlock`, `eq_of_stop_eq` : a block that holds a tag is found once.
* `mem_unclassified_iff` : a block is reported if its known markers stand in the override.
* `exists_inOverride_of_classified` : so do the markers of a block that is classified and reported.
* `coversBlocks_collect` : all of it together.
-/

namespace DocDecl

open Text

/-! ### Blocks that hold a tag -/

/-- The text of a block as it stands in the source. -/
def Area.text (source : Text) (a : Area) : Text := (source.take a.stop).drop a.start

/-- The blocks of a source that hold a tag. -/
def taggedBlocks (source : Text) : List Area :=
  (areas source "* @" {}).filter fun a => !a.malformed

section Blocks

variable {source : Text} {a b : Area}

/-- The opening mark of a block ends in front of the tags behind its first character. -/
theorem Encloses.add_two_le_of_le {pos start n q : Nat} (h : Encloses source pos start n)
    (hstar : source[q]? = some '*') (hblank : source[q + 1]? = some ' ') (hle : start ≤ q) :
    start + 2 ≤ q := by
  obtain ⟨hopen, -, hopen''⟩ := chars_of_open h.opens
  by_contra hno
  have hcases : q = start ∨ q = start + 1 := by omega
  rcases hcases with rfl | rfl
  · simp [hstar] at hopen
  · simp [hblank] at hopen''

/-- An area that is a block is that of a place in it, and its comment is the text of the block
without the override. -/
theorem exists_inBlock_of_mem_areas {marker : Text} {kind : AreaKind} (hm : marker ≠ [])
    (ha : a ∈ areas source marker kind) (hwell : a.malformed = false) :
    ∃ pos n, .inBlock pos a.start a.stop ∈ occurrences source marker 0 source ∧
      a = areaAt source marker kind (.inBlock pos a.start a.stop) ∧
      StandsAt marker source pos ∧ Encloses source pos a.start n ∧ a.stop = pos + n + 2 := by
  obtain ⟨o, ho, rfl⟩ := List.mem_map.1 ha
  cases o with
  | loose pos => simp [areaAt] at hwell
  | inBlock pos start stop =>
    obtain ⟨-, hstands, n, hblock, hstop⟩ := mem_occurrences hm List.drop_zero ho
    exact ⟨pos, n, ho, rfl, hstands, hblock, hstop⟩

theorem comment_of_mem_taggedBlocks (ha : a ∈ taggedBlocks source) :
    a.comment = withoutOverride (a.text source) := by
  obtain ⟨ha, hwell⟩ := List.mem_filter.1 ha
  obtain ⟨pos, n, -, heq, -⟩ :=
    exists_inBlock_of_mem_areas (List.cons_ne_nil _ _) ha (by simpa using hwell)
  exact congrArg Area.comment heq

/-- A block is found by one place of the tag only. -/
theorem eq_of_inBlock {w : Text} {p p' s s' e : Nat}
    (ho : .inBlock p s e ∈ occurrences source ("* @" ++ w) 0 source)
    (ho' : .inBlock p' s' e ∈ occurrences source ("* @" ++ w) 0 source) : p = p' ∧ s = s' := by
  have hm : ("* @" ++ w : Text) ≠ [] := List.cons_ne_nil _ _
  obtain ⟨-, hp, n, hb, rfl⟩ := mem_occurrences hm List.drop_zero ho
  obtain ⟨-, hp', n', hb', hstop⟩ := mem_occurrences hm List.drop_zero ho'
  have hle := hb.start_le
  have hle' := hb'.start_le
  -- the later place is accounted for by both
  have heq : Occurrence.inBlock p s (p + n + 2) = .inBlock p' s' (p + n + 2) := by
    rcases Nat.le_total p p' with h | h
    · exact eq_of_accounts hp' ho ho' (decide_eq_true ⟨by omega, by omega⟩)
        (decide_eq_true ⟨by omega, by omega⟩)
    · exact eq_of_accounts hp ho ho' (decide_eq_true ⟨by omega, by omega⟩)
        (decide_eq_true ⟨by omega, by omega⟩)
  injection heq with hplace hstart
  exact ⟨hplace, hstart⟩

/-- Blocks that end together are the same. -/
theorem eq_of_stop_eq (ha : a ∈ taggedBlocks source) (hb : b ∈ taggedBlocks source)
    (h : a.stop = b.stop) : a = b := by
  obtain ⟨ha, hawell⟩ := List.mem_filter.1 ha
  obtain ⟨hb, hbwell⟩ := List.mem_filter.1 hb
  obtain ⟨p, -, ho, haeq, -⟩ :=
    exists_inBlock_of_mem_areas (List.cons_ne_nil _ _) ha (by simpa using hawell)
  obtain ⟨p', -, ho', hbeq, -⟩ :=
    exists_inBlock_of_mem_areas (List.cons_ne_nil _ _) hb (by simpa using hbwell)
  rw [← h] at ho' hbeq
  obtain ⟨rfl, hstart⟩ := eq_of_inBlock (w := []) ho ho'
  rw [haeq, hbeq, hstart]

/-- A block that holds a tag is found, and its text goes back to the tag at least. -/
theorem exists_taggedBlock {q s n : Nat} (hq : StandsAt "* @" source q)
    (hb : Encloses source q s n) :
    ∃ a ∈ taggedBlocks source, a.stop = q + n + 2 ∧ a.start ≤ q := by
  obtain ⟨o, ho, hacc⟩ := exists_accounts (w := []) hq
  obtain ⟨-, hplace⟩ := mem_occurrences (List.cons_ne_nil _ _) List.drop_zero ho
  have hle := hb.start_le
  cases o with
  | loose p =>
    obtain rfl : p = q := of_decide_eq_true hacc
    exact absurd hb (hplace.2 s n)
  | inBlock p t e =>
    obtain ⟨hp, m, hblock, rfl⟩ := hplace
    obtain ⟨hstart, hstop⟩ : t ≤ q ∧ q < p + m + 2 := of_decide_eq_true hacc
    obtain ⟨hstar, hblank⟩ := chars_of_marker (w := []) hq
    have hclose := hblock.le_of_lt hstar hstop
    have hopen : t + 2 ≤ q := hblock.add_two_le_of_le hstar hblank hstart
    have hfirst := hb.first _ hblock.closes hclose
    have hfirst' := hblock.add_le_of_close (chars_of_marker (w := []) hp).1 hb.closes
      (Nat.le_trans hopen (Nat.le_add_right q n))
    refine ⟨_, List.mem_filter.2 ⟨List.mem_map.2 ⟨_, ho, rfl⟩, rfl⟩, ?_, hstart⟩
    change p + m + 2 = q + n + 2
    omega

end Blocks

/-! ### Known markers -/

section Markers

variable {source m : Text} {a : Area}

theorem infix_margin_of_mem_knownMarkers (hm : m ∈ knownMarkers) : ¬[' ', '*'] <:+: m := by
  have hall : ∀ m ∈ knownMarkers, ¬[' ', '*'] <:+: m := by decide
  exact hall m hm

/-- A known marker is a tag whose name has no star. -/
theorem eq_append_of_mem_knownMarkers (hm : m ∈ knownMarkers) :
    ∃ w : Text, '*' ∉ w ∧ m = "* @" ++ w := by
  have hall : ∀ m ∈ knownMarkers, '*' ∉ m.drop 3 ∧ m = "* @" ++ m.drop 3 := by decide
  exact ⟨m.drop 3, hall m hm⟩

/-- Where a known marker stands, a tag stands. -/
theorem standsAt_tag {n : Nat} (hm : m ∈ knownMarkers) (h : StandsAt m source n) :
    StandsAt "* @" source n := by
  obtain ⟨w, -, rfl⟩ := eq_append_of_mem_knownMarkers hm
  exact (List.prefix_append _ w).trans h

/-- A place of a known marker in a block is one of its text. -/
theorem exists_standsAt_text {q n : Nat} (hm : m ∈ knownMarkers) (hq : StandsAt m source q)
    (hclose : StandsAt "*/" source (q + n)) (hstop : a.stop = q + n + 2) (hstart : a.start ≤ q) :
    StandsAt m (a.text source) (q - a.start) := by
  obtain ⟨w, hw, rfl⟩ := eq_append_of_mem_knownMarkers hm
  have hlen := add_length_le_of_close hw hq hclose (Nat.le_add_right q n)
  have hne : ("* @" ++ w : Text) ≠ [] := List.cons_ne_nil _ _
  rw [Area.text, standsAt_drop_iff, Nat.add_sub_cancel' hstart, standsAt_take_iff hne]
  exact ⟨hq, by omega⟩

end Markers

/-! ### Classified areas -/

/-- The areas of the tags that a block is classified by. -/
def Collected.classified (c : Collected) : List Area := c.names ++ c.types ++ c.members ++ c.modules

section Classified

variable {source : Text} {a b : Area}

/-- An area stands for a place of a known marker. -/
def IsOfKnownMarker (source : Text) (b : Area) : Prop :=
  ∃ m ∈ knownMarkers, ∃ q n, StandsAt m source q ∧ Encloses source q b.start n ∧ b.stop = q + n + 2

theorem isOfKnownMarker_of_mem_areas {marker : Text} {kind : AreaKind} (hm : marker ∈ knownMarkers)
    (hb : b ∈ areas source marker kind) (hwell : b.malformed = false) :
    IsOfKnownMarker source b := by
  have hne : marker ≠ [] := by
    rintro rfl
    exact absurd hm (by decide)
  obtain ⟨q, n, -, -, hq, hblock, hstop⟩ := exists_inBlock_of_mem_areas hne hb hwell
  exact ⟨marker, hm, q, n, hq, hblock, hstop⟩

theorem isOfKnownMarker_of_mem_names (hb : b ∈ (collect source).value.names) :
    IsOfKnownMarker source b := by
  obtain ⟨a, ha, hstart, hstop⟩ := exists_mem_namingAreas_of_mem_names hb
  obtain ⟨q, n, ⟨m, hm, hq⟩, hblock, hend⟩ := exists_encloses_of_mem_namingAreas ha
  have hknown : ∀ m ∈ namingMarkers, m ∈ knownMarkers := by decide
  exact ⟨m, hknown m hm, q, n, hq, hstart ▸ hblock, hstop.trans hend⟩

theorem isOfKnownMarker_of_mem_types (hb : b ∈ (collect source).value.types) :
    IsOfKnownMarker source b := by
  have htypes : (collect source).value.types = (wellFormed
      (areas source "* @typedef " { role := some .typedef, withDefinition := false } ++
        areas source "* @callback " { role := some .callback, withDefinition := false })).value :=
    rfl
  rw [htypes, value_wellFormed, List.mem_filter, List.mem_append] at hb
  obtain ⟨hb | hb, hwell⟩ := hb
  · exact isOfKnownMarker_of_mem_areas (by decide) hb (by simpa using hwell)
  · exact isOfKnownMarker_of_mem_areas (by decide) hb (by simpa using hwell)

theorem isOfKnownMarker_of_mem_members (hb : b ∈ (collect source).value.members) :
    IsOfKnownMarker source b := by
  have hmembers : (collect source).value.members =
      (wellFormed (areasOfAll source ["* @memberof ", "* @memberOf "] {})).value.map memberRole :=
    rfl
  rw [hmembers, value_wellFormed] at hb
  obtain ⟨a, ha, rfl⟩ := List.mem_map.1 hb
  obtain ⟨ha, hwell⟩ := List.mem_filter.1 ha
  obtain ⟨m, hm, ha⟩ := List.mem_flatMap.1 ha
  have hknown : ∀ m ∈ ["* @memberof ".toList, "* @memberOf ".toList], m ∈ knownMarkers := by decide
  have hplace : IsOfKnownMarker source a :=
    isOfKnownMarker_of_mem_areas (hknown m hm) ha (by simpa using hwell)
  exact hplace

theorem isOfKnownMarker_of_mem_modules (hb : b ∈ (collect source).value.modules) :
    IsOfKnownMarker source b := by
  have hmodules : (collect source).value.modules =
      (wellFormed (areas source "* @module" { role := some .moduleBlock })).value := rfl
  rw [hmodules, value_wellFormed] at hb
  obtain ⟨hb, hwell⟩ := List.mem_filter.1 hb
  exact isOfKnownMarker_of_mem_areas (by decide) hb (by simpa using hwell)

theorem isOfKnownMarker_of_mem_classified (hb : b ∈ (collect source).value.classified) :
    IsOfKnownMarker source b := by
  simp only [Collected.classified, List.mem_append] at hb
  obtain ((hb | hb) | hb) | hb := hb
  · exact isOfKnownMarker_of_mem_names hb
  · exact isOfKnownMarker_of_mem_types hb
  · exact isOfKnownMarker_of_mem_members hb
  · exact isOfKnownMarker_of_mem_modules hb

/-- A block that is classified has a known marker in its text. -/
theorem exists_standsAt_of_classified (ha : a ∈ taggedBlocks source)
    (hb : b ∈ (collect source).value.classified) (h : a.stop = b.stop) :
    ∃ m ∈ knownMarkers, ∃ n, StandsAt m (a.text source) n := by
  obtain ⟨m, hm, q, n, hq, hblock, hstop⟩ := isOfKnownMarker_of_mem_classified hb
  obtain ⟨a', ha', hstop', hstart⟩ := exists_taggedBlock (standsAt_tag hm hq) hblock
  obtain rfl : a' = a := eq_of_stop_eq ha' ha (hstop'.trans (hstop.symm.trans h.symm))
  exact ⟨m, hm, _, exists_standsAt_text hm hq hblock.closes hstop' hstart⟩

end Classified

/-! ### Reports -/

/-- What is reported of a block that is not classified. -/
def unclassifiedReport (a : Area) : Report :=
  ⟨.error, .area a, "Unclassified",
    "comment at offset " ++ Text.ofNat a.start ++ " carries no recognised classification tag"⟩

section Reports

variable {source : Text} {a : Area}

theorem unclassified_collect (source : Text) :
    (collect source).value.unclassified = (areas source "* @" {}).filter isUnclassified := rfl

theorem reports_reportUnclassified (as : List Area) :
    (reportUnclassified as).reports = as.map unclassifiedReport := by
  induction as with
  | nil => rfl
  | cons a as ih =>
    rw [List.map_cons, ← ih]
    rfl

theorem filter_reports_wellFormed (as : List Area) :
    ((wellFormed as).reports.filter fun r => r.category = "Unclassified".toList) = [] := by
  induction as with
  | nil => rfl
  | cons a as ih =>
    rw [wellFormed]
    cases a.malformed with
    | true => exact ih
    | false =>
      have hpure (b : Area) (bs : List Area) :
          (pure (b :: bs) : Noted (List Area)).reports = [] := rfl
      rw [if_neg Bool.false_ne_true, Noted.reports_bind, hpure, List.append_nil, ih]

/-- The reports on blocks without a known tag are those of the unclassified blocks. -/
theorem filter_reports_collect (source : Text) :
    ((collect source).reports.filter fun r => r.category = "Unclassified".toList) =
      (collect source).value.unclassified.map unclassifiedReport := by
  have hdebug (part message : Text) : (Noted.debug part message).reports = [] := rfl
  have hpure (c : Collected) : (pure c : Noted Collected).reports = [] := rfl
  have hall : ∀ r ∈ ((areas source "* @" {}).filter isUnclassified).map unclassifiedReport,
      decide (r.category = "Unclassified".toList) = true :=
    List.forall_mem_map.2 fun a _ => rfl
  rw [unclassified_collect, collect]
  simp only [Noted.reports_bind, List.filter_append, filter_reports_wellFormed,
    reports_reportUnclassified, hdebug, hpure, List.nil_append, List.append_nil]
  exact List.filter_eq_self.2 hall

end Reports

/-! ### Coverage -/

section Coverage

variable {source : Text} {a b : Area}

/-- A block is unclassified exactly if it is not private and its known markers all stand in its
override. -/
theorem mem_unclassified_iff :
    a ∈ (collect source).value.unclassified ↔
      a ∈ taggedBlocks source ∧ a.isPrivate = false ∧
        ∀ m ∈ knownMarkers, ∀ n, StandsAt m (a.text source) n → InOverride (a.text source) n := by
  have hmarkers (ha : a ∈ taggedBlocks source) :
      (knownMarkers.any fun m => Text.contains m a.comment) = false ↔
        ∀ m ∈ knownMarkers, ∀ n, StandsAt m (a.text source) n → InOverride (a.text source) n := by
    rw [List.any_eq_false]
    refine forall₂_congr fun m hm => ?_
    rw [comment_of_mem_taggedBlocks ha,
      contains_withoutOverride_iff (infix_margin_of_mem_knownMarkers hm)]
    simp only [not_exists, not_and, not_not]
  rw [unclassified_collect, List.mem_filter, isUnclassified, Bool.and_eq_true, Bool.and_eq_true,
    Bool.not_eq_true', Bool.not_eq_true', Bool.not_eq_true']
  constructor
  · rintro ⟨ha, ⟨hwell, hprivate⟩, hnone⟩
    have ha : a ∈ taggedBlocks source := List.mem_filter.2 ⟨ha, by simpa using hwell⟩
    exact ⟨ha, hprivate, (hmarkers ha).1 hnone⟩
  · rintro ⟨ha, hprivate, hinside⟩
    have hwell := (List.mem_filter.1 ha).2
    exact ⟨(List.mem_filter.1 ha).1, ⟨by simpa using hwell, hprivate⟩, (hmarkers ha).2 hinside⟩

/-- A block that is both classified and reported has a known marker in its override. -/
theorem exists_inOverride_of_classified (ha : a ∈ (collect source).value.unclassified)
    (hb : b ∈ (collect source).value.classified) (h : a.stop = b.stop) :
    ∃ m ∈ knownMarkers, ∃ n, StandsAt m (a.text source) n ∧ InOverride (a.text source) n := by
  obtain ⟨hblock, -, hinside⟩ := mem_unclassified_iff.1 ha
  obtain ⟨m, hm, n, hn⟩ := exists_standsAt_of_classified hblock hb h
  exact ⟨m, hm, n, hn, hinside m hm n hn⟩

/-- Which blocks of a source are reported, and which are classified. -/
structure CoversBlocks (source : Text) : Prop where
  /-- A block that holds a tag is found once, with a text that goes back to the tag at least. -/
  blocks : ∀ q s n, StandsAt "* @" source q → Encloses source q s n →
    ∃ a ∈ taggedBlocks source, (a.stop = q + n + 2 ∧ a.start ≤ q) ∧
      ∀ b ∈ taggedBlocks source, b.stop = q + n + 2 → b = a
  /-- There is one report for each unclassified block, in order. -/
  reports : ((collect source).reports.filter fun r => r.category = "Unclassified".toList) =
    (collect source).value.unclassified.map unclassifiedReport
  /-- No block is unclassified twice. -/
  once : (collect source).value.unclassified.Pairwise fun a b => a.start < b.start ∧ a.stop ≠ b.stop
  /-- A block is unclassified exactly if it is not private and its known markers all stand in its
  override. -/
  mem_iff : ∀ a, a ∈ (collect source).value.unclassified ↔
    a ∈ taggedBlocks source ∧ a.isPrivate = false ∧
      ∀ m ∈ knownMarkers, ∀ n, StandsAt m (a.text source) n → InOverride (a.text source) n
  /-- So it is reported exactly if it has no known marker, where none stands in the override, and
  then it is not classified. -/
  of_outside : ∀ a ∈ taggedBlocks source,
    (∀ m ∈ knownMarkers, ∀ n, StandsAt m (a.text source) n → ¬InOverride (a.text source) n) →
      (a ∈ (collect source).value.unclassified ↔
          a.isPrivate = false ∧ ∀ m ∈ knownMarkers, Text.contains m (a.text source) = false) ∧
        (a ∈ (collect source).value.unclassified →
          ∀ b ∈ (collect source).value.classified, a.stop ≠ b.stop)
  /-- A block without a known marker is reported, unless it is private. -/
  of_no_marker : ∀ a ∈ taggedBlocks source, a.isPrivate = false →
    (∀ m ∈ knownMarkers, Text.contains m (a.text source) = false) →
      a ∈ (collect source).value.unclassified
  /-- A private block has the tag in its text. -/
  isPrivate : ∀ a ∈ taggedBlocks source, a.isPrivate = true →
    Tag.isIn "private" (a.text source) = true

theorem coversBlocks_collect (source : Text) : CoversBlocks source where
  blocks q s n hq hb := by
    obtain ⟨a, ha, hstop, hstart⟩ := exists_taggedBlock hq hb
    exact ⟨a, ha, ⟨hstop, hstart⟩, fun b hb' h => eq_of_stop_eq hb' ha (h.trans hstop.symm)⟩
  reports := filter_reports_collect source
  once := by
    have hsorted := (areas_account source (w := []) List.not_mem_nil {}).2.1
    have hsorted := hsorted.filter isUnclassified
    refine hsorted.imp_of_mem fun {a b} ha hb hlt => ⟨hlt, fun hstop => ?_⟩
    have heq := eq_of_stop_eq (mem_unclassified_iff.1 ha).1 (mem_unclassified_iff.1 hb).1 hstop
    exact absurd hlt (heq ▸ Nat.lt_irrefl _)
  mem_iff a := mem_unclassified_iff
  of_outside a ha hout := by
    have hnone : (∀ m ∈ knownMarkers, ∀ n, StandsAt m (a.text source) n →
          InOverride (a.text source) n) ↔
        ∀ m ∈ knownMarkers, Text.contains m (a.text source) = false := by
      refine forall₂_congr fun m hm => ?_
      rw [Bool.eq_false_iff, ne_eq, contains_iff, not_exists]
      exact forall_congr' fun n => ⟨fun h hn => hout m hm n hn (h hn), fun h hn => absurd hn h⟩
    refine ⟨?_, fun hmem b hb hstop => ?_⟩
    · rw [mem_unclassified_iff, hnone, and_iff_right ha]
    · obtain ⟨m, hm, n, hn, hin⟩ := exists_inOverride_of_classified hmem hb hstop
      exact hout m hm n hn hin
  of_no_marker a ha hprivate hnone := by
    refine mem_unclassified_iff.2 ⟨ha, hprivate, fun m hm n hn => ?_⟩
    have hcontains := contains_iff.2 ⟨n, hn⟩
    rw [hnone m hm] at hcontains
    exact absurd hcontains Bool.false_ne_true
  isPrivate a ha hprivate := by
    rw [Area.isPrivate, Area.hasTag, comment_of_mem_taggedBlocks ha] at hprivate
    exact isIn_of_isIn_withoutOverride (by decide) hprivate

/-- A tag line directly behind the override tag is cut out as if it were a declaration: the block is
a namespace and a class, and is reported as well. -/
theorem not_classified_once_of_empty_override :
    let source : Text :=
      "/**\n * @tsdeclaration\n * @name foo\n */\nfunction foo() \x7b\x7d\n"
    ((collect source).value.unclassified.map fun a =>
          (a.stop, a.isPrivate, Text.contains "* @name " (a.text source))) = [(38, false, true)] ∧
      ((collect source).value.names.map fun a => (a.role, a.stop)) =
        [(some .nameSpace, 38), (some .classBody, 38)] := by
  decide +kernel

end Coverage

end DocDecl

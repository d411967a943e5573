import DocDecl.Comment.Classification
import DocDecl.Proofs.Comment.Accounting
import DocDecl.Proofs.List.Keys

/-!
# Which blocks name something, and how often

The blocks of the three naming tags are looked for one tag after the other, and of several areas
that start at one place only the first is classified. So each start is classified once. It is the
start of a block, and a block that is opened only once has no other. But the area of a place starts
at the last opening mark in front of it, and what looks like one may stand in the text between two
tags of a block. The areas of these tags end at the same closing mark, start at different opening
marks, and are classified both.

## Main definitions

* `namingAreas` : the areas of the naming tags.
* `OneClassification` : what one block is classified as.
* `ReopensAt`, `Reopens` : a block with an opening mark between two of its naming tags.

## Main results

* `names_collect` : the names of a source are the classified areas of its naming tags.
* `reopens_of_start_lt` : areas that end together start together, unless their block is opened
  again.
* `classifiesOnce_collect` : a block is classified once, unless it is opened again.
-/

namespace DocDecl

open Text

/-! ### Areas of the naming tags -/

/-- The markers of the tags that name something. -/
def namingMarkers : List Text := ["* @name ", "* @function ", "* @alias "]

/-- A place of a tag that names something. -/
def IsNamingTag (source : Text) (pos : Nat) : Prop := ∃ m ∈ namingMarkers, StandsAt m source pos

/-- The areas of the naming tags that are blocks, one tag after the other. -/
def namingAreas (source : Text) : List Area :=
  (areasOfAll source namingMarkers {}).filter fun a => !a.malformed

theorem names_collect (source : Text) :
    (collect source).value.names = classifyNames (namingAreas source) := by
  rw [namingAreas, ← value_wellFormed]
  rfl

section Areas

variable {source : Text} {a b : Area}

/-- The area of a naming tag is a block that holds a place of the tag. -/
theorem exists_encloses_of_mem_namingAreas (ha : a ∈ namingAreas source) :
    ∃ pos n, IsNamingTag source pos ∧ Encloses source pos a.start n ∧ a.stop = pos + n + 2 := by
  obtain ⟨ha, hwell⟩ := List.mem_filter.1 ha
  obtain ⟨m, hm, ha⟩ := List.mem_flatMap.1 ha
  obtain ⟨o, ho, rfl⟩ := List.mem_map.1 ha
  cases o with
  | loose pos => simp [areaAt] at hwell
  | inBlock pos start stop =>
    have hne : m ≠ [] := by
      rintro rfl
      exact absurd hm (by decide)
    obtain ⟨-, hstands, n, hblock, rfl⟩ := mem_occurrences hne List.drop_zero ho
    exact ⟨pos, n, ⟨m, hm, hstands⟩, hblock, rfl⟩

theorem chars_of_isNamingTag {pos : Nat} (h : IsNamingTag source pos) :
    source[pos]? = some '*' ∧ source[pos + 1]? = some ' ' := by
  obtain ⟨m, hm, hstands⟩ := h
  simp only [namingMarkers, List.mem_cons, List.not_mem_nil, or_false] at hm
  rcases hm with rfl | rfl | rfl
  · exact chars_of_marker (w := "name ") hstands
  · exact chars_of_marker (w := "function ") hstands
  · exact chars_of_marker (w := "alias ") hstands

/-- Areas that start together end together. -/
theorem stop_eq_of_start_eq (ha : a ∈ namingAreas source) (hb : b ∈ namingAreas source)
    (h : a.start = b.start) : a.stop = b.stop := by
  obtain ⟨pos, n, htag, hblock, hstop⟩ := exists_encloses_of_mem_namingAreas ha
  obtain ⟨pos', n', htag', hblock', hstop'⟩ := exists_encloses_of_mem_namingAreas hb
  have hle := hblock.add_le_of_close (chars_of_isNamingTag htag).1 hblock'.closes
    (h ▸ Nat.le_trans hblock'.start_le (Nat.le_add_right _ _))
  have hge := hblock'.add_le_of_close (chars_of_isNamingTag htag').1 hblock.closes
    (h ▸ Nat.le_trans hblock.start_le (Nat.le_add_right _ _))
  omega

end Areas

/-! ### Blocks that are opened again -/

/-- Between two naming tags of the block that ends at `stop` there is an opening mark. -/
structure ReopensAt (source : Text) (first start second stop : Nat) : Prop where
  first_tag : IsNamingTag source first
  first_lt : first < start
  opens : StandsAt "/**" source start
  lt_second : start < second
  second_tag : IsNamingTag source second
  second_lt : second < stop
  unclosed : ∀ q, StandsAt "*/" source q → first ≤ q → stop ≤ q + 2

/-- The block that ends at `stop` is opened again between two of its naming tags. -/
def Reopens (source : Text) (stop : Nat) : Prop :=
  ∃ first start second, ReopensAt source first start second stop

/-- Of two areas that end together, one starts in front of the other only if the block is opened
again. -/
theorem reopens_of_start_lt {source : Text} {a b : Area} (ha : a ∈ namingAreas source)
    (hb : b ∈ namingAreas source) (hstop : a.stop = b.stop) (hlt : a.start < b.start) :
    Reopens source a.stop := by
  obtain ⟨first, n, htag, hblock, hfirst⟩ := exists_encloses_of_mem_namingAreas ha
  obtain ⟨second, n', htag', hblock', hsecond⟩ := exists_encloses_of_mem_namingAreas hb
  obtain ⟨hstar, hblank⟩ := chars_of_isNamingTag htag
  obtain ⟨hslash, -, hstar'⟩ := chars_of_open hblock'.opens
  have hlt_first : first < b.start := by
    -- the opening mark would be the last one in front of the first tag, or run into the tag
    by_contra hle
    have hcases : b.start = first ∨ b.start + 1 = first ∨ b.start + 2 ≤ first := by omega
    rcases hcases with heq | heq | hle
    · rw [heq, hstar] at hslash
      simp at hslash
    · rw [show b.start + 2 = first + 1 by omega, hblank] at hstar'
      simp at hstar'
    · have := hblock.last _ hblock'.opens hle
      omega
  have hlt_second := hblock'.start_le
  refine ⟨first, b.start, second, htag, hlt_first, hblock'.opens, by omega, htag', by omega, ?_⟩
  intro q hq hle
  have := hblock.first q hq hle
  omega

/-! ### Classification -/

/-- What one block is classified as: nothing, a function, or a namespace together with a class that
is the same but for its role. -/
inductive OneClassification : List Area → Prop
  | nothing : OneClassification []
  | function (a : Area) : OneClassification [{ a with role := some .function }]
  | container (a : Area) :
    OneClassification
      [{ a with role := some .nameSpace }, { a with role := some .classBody }]

/-- The classified areas of one area. -/
def classifyName (a : Area) : List Area :=
  (nameRoles a).map fun r => { a with role := some r, modifiers := [] }

theorem oneClassification_classifyName (a : Area) : OneClassification (classifyName a) := by
  rw [classifyName, nameRoles]
  split_ifs
  · exact .nothing
  · exact .function { a with modifiers := [] }
  · exact .container { a with modifiers := [] }

section Classification

variable {as : List Area} {p : Area → Bool}

theorem mem_of_mem_firstOfEachStart {a : Area} (ha : a ∈ firstOfEachStart as) : a ∈ as := by
  induction as with
  | nil => exact ha
  | cons b as ih =>
    rcases List.mem_cons.1 ha with rfl | ha
    · exact List.mem_cons_self
    · exact List.mem_cons_of_mem b (ih (List.mem_filter.1 ha).1)

/-- A property that classification does not change selects classified areas of selected areas. -/
theorem filter_classifyNames
    (hp : ∀ a r, p { a with role := some r, modifiers := [] } = p a) :
    (classifyNames as).filter p = ((firstOfEachStart as).filter p).flatMap classifyName := by
  have hclassify (a : Area) :
      (classifyName a).filter p = if p a then classifyName a else [] := by
    rw [classifyName, List.filter_map]
    have hcomp : (p ∘ fun r => { a with role := some r, modifiers := [] }) = fun _ => p a :=
      funext fun r => hp a r
    rw [hcomp]
    cases p a with
    | true => rw [List.filter_eq_self.2 fun _ _ => rfl, if_pos rfl]
    | false => rw [List.filter_eq_nil_iff.2 fun _ _ => Bool.false_ne_true]; rfl
  change ((firstOfEachStart as).flatMap classifyName).filter p = _
  rw [List.filter_flatMap, funext hclassify, flatMap_ite]

/-- Selected areas are one classification, if all of them start at one place. -/
theorem oneClassification_filter_classifyNames
    (hp : ∀ a r, p { a with role := some r, modifiers := [] } = p a)
    (hstart : ∀ a ∈ as, ∀ b ∈ as, p a = true → p b = true → a.start = b.start) :
    OneClassification ((classifyNames as).filter p) := by
  rw [filter_classifyNames hp]
  have hdistinct := (start_injOn_firstOfEachStart as).filter p
  match hkept : (firstOfEachStart as).filter p with
  | [] => exact .nothing
  | [a] =>
    rw [List.flatMap_singleton]
    exact oneClassification_classifyName a
  | a :: b :: bs =>
    have hmem {c : Area} (hc : c ∈ (firstOfEachStart as).filter p) : c ∈ as ∧ p c = true :=
      ⟨mem_of_mem_firstOfEachStart (List.mem_filter.1 hc).1, (List.mem_filter.1 hc).2⟩
    obtain ⟨ha, hpa⟩ := hmem (hkept ▸ List.mem_cons_self)
    obtain ⟨hb, hpb⟩ := hmem (hkept ▸ List.mem_cons_of_mem a List.mem_cons_self)
    rw [hkept] at hdistinct
    exact absurd (hstart a ha b hb hpa hpb) (List.rel_of_pairwise_cons hdistinct List.mem_cons_self)

end Classification

/-! ### The names of a source -/

/-- The names of a source are classified once for each start, and once for each block that is not
opened again. -/
structure ClassifiesOnce (source : Text) : Prop where
  /-- The names that start at one place are one classification. -/
  start : ∀ start, OneClassification
    ((collect source).value.names.filter fun a => a.start = start)
  /-- Names that start at one place end at one place. -/
  stop_eq : ∀ a ∈ (collect source).value.names, ∀ b ∈ (collect source).value.names,
    a.start = b.start → a.stop = b.stop
  /-- The names that end at one place are one classification, unless their block is opened again. -/
  stop : ∀ stop, ¬Reopens source stop → OneClassification
    ((collect source).value.names.filter fun a => a.stop = stop)

theorem exists_mem_namingAreas_of_mem_names {source : Text} {a : Area}
    (ha : a ∈ (collect source).value.names) :
    ∃ b ∈ namingAreas source, a.start = b.start ∧ a.stop = b.stop := by
  rw [names_collect] at ha
  obtain ⟨b, hb, ha⟩ := List.mem_flatMap.1 ha
  obtain ⟨r, -, rfl⟩ := List.mem_map.1 ha
  exact ⟨b, mem_of_mem_firstOfEachStart hb, rfl, rfl⟩

/-- A block is classified once, unless it is opened again between two of its naming tags. -/
theorem classifiesOnce_collect (source : Text) : ClassifiesOnce source where
  start start := by
    rw [names_collect]
    refine oneClassification_filter_classifyNames (fun _ _ => rfl) fun a _ b _ ha hb => ?_
    exact (of_decide_eq_true ha).trans (of_decide_eq_true hb).symm
  stop_eq a ha b hb h := by
    obtain ⟨a', ha', hstart, hstop⟩ := exists_mem_namingAreas_of_mem_names ha
    obtain ⟨b', hb', hstart', hstop'⟩ := exists_mem_namingAreas_of_mem_names hb
    rw [hstop, hstop']
    exact stop_eq_of_start_eq ha' hb' (hstart.symm.trans (h.trans hstart'))
  stop stop hopen := by
    rw [names_collect]
    refine oneClassification_filter_classifyNames (fun _ _ => rfl) fun a ha b hb hsa hsb => ?_
    have hsa : a.stop = stop := of_decide_eq_true hsa
    have hsb : b.stop = stop := of_decide_eq_true hsb
    by_contra hne
    rcases Nat.lt_or_gt_of_ne hne with hlt | hlt
    · exact hopen (hsa ▸ reopens_of_start_lt ha hb (hsa.trans hsb.symm) hlt)
    · exact hopen (hsb ▸ reopens_of_start_lt hb ha (hsb.trans hsa.symm) hlt)

/-- A name and a function tag in one block are one function. -/
example :
    (collect "/**\n * @name f\n * @function f\n */\nfunction f() \x7b\x7d\n").value.names.map
      Area.role = [some .function] := by
  decide +kernel

theorem OneClassification.role_ne_function {as : List Area} (h : OneClassification as) :
    as.map Area.role ≠ [some .function, some .function] := by
  cases h <;> simp

/-- A block with a glob in its text that ends like an opening mark, between a tag for the name and
one for the function: it is classified as a function twice. -/
theorem not_oneClassification_of_glob :
    let source : Text :=
      "/**\n * @name loadAll\n * Loads everything under lib/** at once.\n * @function loadAll\n" ++
        " */\nexport function loadAll() \x7b\x7d\n"
    ((collect source).value.names.map fun a => (a.role, a.start, a.stop, a.value)) =
        [(some .function, 0, 87, "loadAll".toList), (some .function, 50, 87, "loadAll".toList)] ∧
      ¬OneClassification ((collect source).value.names.filter fun a => a.stop = 87) := by
  intro source
  have hnames : ((collect source).value.names.map fun a => (a.role, a.start, a.stop, a.value)) =
      [(some .function, 0, 87, "loadAll".toList), (some .function, 50, 87, "loadAll".toList)] := by
    decide +kernel
  have hroles : ((collect source).value.names.filter fun a => a.stop = 87).map Area.role =
      [some .function, some .function] := by
    decide +kernel
  exact ⟨hnames, fun h => h.role_ne_function hroles⟩

end DocDecl

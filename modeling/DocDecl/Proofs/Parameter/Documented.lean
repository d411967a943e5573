import DocDecl.Parameter.Documented
import DocDecl.Proofs.List.Keys
import DocDecl.Proofs.Text.Pieces

/-!
# The names of documented fields

The fields that a block documents have the undotted names of its parameter blocks, each once and in
the order in which they occur first. A name is made up of word characters, dollar signs and dots.
A field that is described once, and has no parts, is the one that its block gives.

## Main definitions

* `blockFields` : the fields that the blocks give, one by one.
* `Field.IsAbout` : what a field or a part is about.
* `Field.pathBelow?`, `withPaths` : what the parts say of a field.
* `IsOnlyBlock` : a block that alone is about a field.

## Main results

* `map_name_documentedFields` : the names, in order.
* `nodup_name_documentedFields` : no name is repeated.
* `mem_documentedFields` : the field of a single block.
* `isPathChar_of_mem_documentedFields` : the characters of names.
-/

namespace DocDecl

variable {f : Field}

/-! ### Names in order -/

theorem map_name_putField (f : Field) (fs : List Field) :
    (putField f fs).map Field.name =
      if f.name ∈ fs.map Field.name then fs.map Field.name else fs.map Field.name ++ [f.name] := by
  induction fs with
  | nil => rfl
  | cons g gs ih =>
    rw [putField]
    by_cases h : g.name = f.name
    · simp [h]
    · simp only [if_neg h, List.map_cons, ih, List.mem_cons, Ne.symm h, false_or]
      split_ifs <;> rfl

theorem map_name_putFields (fs : List Field) :
    (fs.foldl (fun gs f => putField f gs) []).map Field.name = (fs.map Field.name).eraseDups := by
  induction fs using List.reverseRecOn with
  | nil => rfl
  | append_singleton fs f ih =>
    rw [List.foldl_append, List.map_append, List.map_singleton, eraseDups_concat]
    simp only [List.foldl_cons, List.foldl_nil, map_name_putField, ih, List.mem_eraseDups]

@[simp] theorem name_withParts (parts : List Field) (f : Field) :
    (withParts parts f).name = f.name := by
  simp only [withParts]
  split_ifs <;> rfl

/-- Undotted fields are put into a list, and dotted ones are parts of them. -/
theorem documentedFields_eq (comment tag : Text) :
    documentedFields comment tag =
      (((blockFields comment tag).filter fun f => '.' ∉ f.name).foldl
        (fun fs f => putField f fs) []).map
          (withParts ((blockFields comment tag).filter fun f => '.' ∈ f.name)) :=
  rfl

theorem map_name_documentedFields (comment tag : Text) :
    (documentedFields comment tag).map Field.name =
      (((blockFields comment tag).filter fun f => '.' ∉ f.name).map Field.name).eraseDups := by
  rw [documentedFields_eq, List.map_map, ← map_name_putFields]
  exact List.map_congr_left fun f _ => name_withParts _ f

/-- No name is repeated. -/
theorem nodup_name_documentedFields (comment tag : Text) :
    ((documentedFields comment tag).map Field.name).Nodup := by
  rw [map_name_documentedFields]
  exact nodup_eraseDups _

/-! ### The field of a block -/

theorem mem_putField_self (f : Field) (fs : List Field) : f ∈ putField f fs := by
  induction fs with
  | nil => exact List.mem_singleton_self f
  | cons g gs ih =>
    rw [putField]
    split_ifs
    · exact List.mem_cons_self
    · exact List.mem_cons_of_mem g ih

theorem mem_putField_of_ne {g : Field} {fs : List Field} (h : f ∈ fs) (hne : g.name ≠ f.name) :
    f ∈ putField g fs := by
  induction fs with
  | nil => cases h
  | cons e fs ih =>
    rw [putField]
    split_ifs with heq
    · rcases List.mem_cons.1 h with rfl | h
      · exact absurd heq.symm hne
      · exact List.mem_cons_of_mem g h
    · rcases List.mem_cons.1 h with rfl | h
      · exact List.mem_cons_self
      · exact List.mem_cons_of_mem e (ih h)

/-- The last field of its name is kept. -/
theorem mem_putFields (fs : List Field) {gs : List Field} (h : ∀ g ∈ gs, g.name ≠ f.name) :
    f ∈ (fs ++ f :: gs).foldl (fun fs g => putField g fs) [] := by
  induction gs using List.reverseRecOn with
  | nil =>
    rw [List.foldl_append]
    exact mem_putField_self f _
  | append_singleton gs g ih =>
    rw [List.forall_mem_append] at h
    rw [← List.cons_append, ← List.append_assoc, List.foldl_append]
    exact mem_putField_of_ne (ih h.1) (h.2 g (List.mem_singleton_self g))

/-- Whether a field is the one of a given name or a part of it. -/
def Field.IsAbout (n : Text) (f : Field) : Prop := (Text.splitOn '.' f.name).head? = some n

theorem Field.isAbout_self (h : '.' ∉ f.name) : f.IsAbout f.name := by
  rw [IsAbout, Text.splitOn_of_not_mem h]
  rfl

theorem Field.pathBelow?_eq_none {p : Field} {n : Text} (h : ¬p.IsAbout n) :
    p.pathBelow? n = none := by
  rw [IsAbout] at h
  rw [pathBelow?]
  split
  · next root path heq =>
    rw [heq, List.head?_cons, Option.some.injEq] at h
    exact if_neg h
  · rfl

/-- The field whose type is made up of what its parts say. -/
def withPaths (f : Field) (own : List (List Text × Field)) : Field :=
  if own = [] then f else { f with type := (TypeTree.ofPaths own).render }

theorem withParts_eq (parts : List Field) (f : Field) :
    withParts parts f = withPaths f (parts.filterMap (Field.pathBelow? f.name)) :=
  rfl

theorem withParts_eq_self {parts : List Field} (h : ∀ p ∈ parts, ¬p.IsAbout f.name) :
    withParts parts f = f := by
  rw [withParts_eq, withPaths]
  exact if_pos (List.filterMap_eq_nil_iff.2 fun p hp => Field.pathBelow?_eq_none (h p hp))

/-- Of the blocks of a tag, only this one is about the field of the given name. -/
def IsOnlyBlock (comment tag n block : Text) : Prop :=
  ∃ before after, tagBlocks comment tag = before ++ block :: after ∧
    ∀ b ∈ before ++ after, ∀ f, Field.ofBlock? b = some f → ¬f.IsAbout n

/-- The field of such a block is documented as the block gives it. -/
theorem mem_documentedFields {comment tag block : Text} (hf : Field.ofBlock? block = some f)
    (hdot : '.' ∉ f.name) (h : IsOnlyBlock comment tag f.name block) :
    f ∈ documentedFields comment tag := by
  obtain ⟨before, after, hblocks, hothers⟩ := h
  have hother {bs : List Text} (hbs : bs ⊆ before ++ after) :
      ∀ g ∈ bs.filterMap Field.ofBlock?, ¬g.IsAbout f.name := by
    intro g hg
    obtain ⟨b, hb, hgb⟩ := List.mem_filterMap.1 hg
    exact hothers b (hbs hb) g hgb
  have hbefore := hother (List.subset_append_left before after)
  have hafter := hother (List.subset_append_right before after)
  have hitems : blockFields comment tag =
      before.filterMap Field.ofBlock? ++ f :: after.filterMap Field.ofBlock? := by
    rw [blockFields, hblocks, List.filterMap_append, List.filterMap_cons_some hf]
  have htop : (blockFields comment tag).filter (fun f => '.' ∉ f.name) =
      (before.filterMap Field.ofBlock?).filter (fun f => '.' ∉ f.name) ++
        f :: (after.filterMap Field.ofBlock?).filter (fun f => '.' ∉ f.name) := by
    simp [hitems, List.filter_append, hdot]
  rw [documentedFields_eq, htop, List.mem_map]
  refine ⟨f, mem_putFields _ fun g hg hname => ?_, withParts_eq_self fun p hp => ?_⟩
  · obtain ⟨hg, hgdot⟩ := List.mem_filter.1 hg
    exact hafter g hg (hname ▸ Field.isAbout_self (of_decide_eq_true hgdot))
  · obtain ⟨hp, hpdot⟩ := List.mem_filter.1 hp
    rw [hitems, List.mem_append, List.mem_cons] at hp
    rcases hp with hp | rfl | hp
    · exact hbefore p hp
    · exact absurd (of_decide_eq_true hpdot) hdot
    · exact hafter p hp

/-! ### The characters of names -/

namespace ParamParts

theorem isPathChar_of_optionalName? {t name default r : Text}
    (h : optionalName? t = some (name, default, r)) : ∀ c ∈ name, isPathChar c = true := by
  have htake (u : Text) : ∀ c ∈ u.takeWhile isPathChar, isPathChar c = true :=
    List.all_eq_true.1 List.all_takeWhile
  rw [optionalName?] at h
  split at h
  · simp only at h
    split_ifs at h
    split at h
    · cases h
      exact htake _
    · split at h
      · cases h
        exact htake _
      · simp at h
    · simp at h
  · simp at h

theorem isPathChar_of_plainName? {t name default r : Text}
    (h : plainName? t = some (name, default, r)) : ∀ c ∈ name, isPathChar c = true := by
  have htake (u : Text) : ∀ c ∈ u.takeWhile isPathChar, isPathChar c = true :=
    List.all_eq_true.1 List.all_takeWhile
  rw [plainName?] at h
  simp only at h
  split_ifs at h
  split at h
  · split_ifs at h
    all_goals
      cases h
      exact htake _
  · cases h
    exact htake _

theorem isPathChar_of_ofLine {line name : Text} (h : (ofLine line).name? = some name) :
    ∀ c ∈ name, isPathChar c = true := by
  rw [ofLine] at h
  split at h
  · simp at h
  · simp only at h
    split at h
    · next hname =>
      obtain rfl := Option.some.inj h
      exact isPathChar_of_optionalName? hname
    · split at h
      · next hname =>
        obtain rfl := Option.some.inj h
        exact isPathChar_of_plainName? hname
      · simp at h

end ParamParts

theorem mem_of_mem_getD_after? {p t : Text} {c : Char} (h : c ∈ (Text.after? p t).getD t) :
    c ∈ t := by
  cases hr : Text.after? p t with
  | none => rwa [hr] at h
  | some r =>
    rw [hr] at h
    rw [Text.after?_eq_some_iff.1 hr]
    exact List.mem_append_right p h

theorem isPathChar_of_ofBlock? {block : Text} (h : Field.ofBlock? block = some f) :
    ∀ c ∈ f.name, ParamParts.isPathChar c = true := by
  rw [Field.ofBlock?] at h
  simp only at h
  split at h
  · next hname =>
    obtain rfl := Option.some.inj h
    exact fun c hc => ParamParts.isPathChar_of_ofLine hname c (mem_of_mem_getD_after? hc)
  · simp at h

/-- A name is made up of the characters of dotted names. -/
theorem isPathChar_of_mem_documentedFields {comment tag : Text}
    (h : f ∈ documentedFields comment tag) : ∀ c ∈ f.name, ParamParts.isPathChar c = true := by
  have hname : f.name ∈ (documentedFields comment tag).map Field.name := List.mem_map_of_mem h
  rw [map_name_documentedFields, List.mem_eraseDups] at hname
  obtain ⟨g, hg, hgf⟩ := List.mem_map.1 hname
  obtain ⟨block, -, hblock⟩ := List.mem_filterMap.1 (List.mem_filter.1 hg).1
  exact hgf ▸ isPathChar_of_ofBlock? hblock

end DocDecl

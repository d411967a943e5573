import DocDecl.Declaration.Named
import DocDecl.Declaration.Typed
import DocDecl.Proofs.Declaration.Members
import DocDecl.Proofs.Grouping.Placement
import DocDecl.Proofs.Head.Assignment
import DocDecl.Proofs.Text.Words

/-!
# What a qualified name is resolved to

A qualified name is written out of segments with a dot or a tilde between each two. The readers of
such names have separators of their own. A member tag takes both marks for separators and finds the
segments. The name tag of a class takes the dot alone, so the class keeps the name as it is written,
and owns the members with this name only where no tilde is in it. A type tag takes the last tilde
for the one in front of the name; its path is that of the segments as one text, and is the list of
them unless a dot stands behind the last tilde.

## Main definitions

* `isSegment`, `QualifiedName` : names with their segments.
* `dotted` : a name with dots alone.
* `NameResolution` : what the readers make of a name.

## Main results

* `QualifiedName.ownerPathOf_eq`, `fullPath_declareClass`, `QualifiedName.ofValue_eq` : each reader.
* `nameResolution` : all readers of a name.
-/

namespace DocDecl

/-! ### Qualified names -/

/-- Whether a text is a segment of a name: word characters and dollar signs, at least one. Every
identifier is. -/
def isSegment (s : Text) : Bool := !s.isEmpty && s.all isNameChar

/-- The name `t` is written out of segments, with a dot or a tilde between each two. -/
inductive QualifiedName : List Text → Text → Prop
  /-- One segment. -/
  | single {s : Text} (hs : isSegment s = true) : QualifiedName [s] s
  /-- One more in front. -/
  | cons {s : Text} {sep : Char} {segs : List Text} {t : Text} (hs : isSegment s = true)
      (hsep : sep = '.' ∨ sep = '~') (ht : QualifiedName segs t) :
      QualifiedName (s :: segs) (s ++ sep :: t)

/-- A name with dots instead of tildes. -/
def dotted (t : Text) : Text := t.map fun c => if c = '~' then '.' else c

theorem isNameChar_of_isSegment {s : Text} (h : isSegment s = true) :
    ∀ c ∈ s, isNameChar c = true := by
  simp only [isSegment, Bool.and_eq_true] at h
  exact List.all_eq_true.1 h.2

/-- A mark that no segment holds. -/
theorem not_mem_of_isSegment {s : Text} (h : isSegment s = true) {c : Char}
    (hc : isNameChar c = false) : c ∉ s := by
  intro hmem
  simp [isNameChar_of_isSegment h c hmem] at hc

theorem dotted_of_not_mem {t : Text} (h : '~' ∉ t) : dotted t = t := by
  have hid : ∀ c ∈ t, (if c = '~' then '.' else c) = id c := by
    intro c hc
    refine if_neg ?_
    rintro rfl
    exact h hc
  rw [dotted, List.map_congr_left hid, List.map_id]

/-- The text behind the last place of a character is determined. -/
theorem eq_of_last_append {c : Char} {a b a' b' : Text} (h : a ++ c :: b = a' ++ c :: b')
    (hb : c ∉ b) (hb' : c ∉ b') : b = b' := by
  rcases List.append_eq_append_iff.1 h with ⟨w, rfl, hw⟩ | ⟨w, rfl, hw⟩
  · cases w with
    | nil => exact (List.cons.inj hw).2
    | cons d w =>
      obtain ⟨-, rfl⟩ := List.cons.inj hw
      exact absurd (List.mem_append_right w List.mem_cons_self) hb
  · cases w with
    | nil => exact (List.cons.inj hw).2.symm
    | cons d w =>
      obtain ⟨-, rfl⟩ := List.cons.inj hw
      exact absurd (List.mem_append_right w List.mem_cons_self) hb'

theorem eq_dotted_iff {t : Text} : t = dotted t ↔ '~' ∉ t := by
  refine ⟨fun h hmem => ?_, fun h => (dotted_of_not_mem h).symm⟩
  rw [h, dotted, List.mem_map] at hmem
  obtain ⟨c, -, hc⟩ := hmem
  split_ifs at hc with hne
  · exact absurd hc (by decide)
  · exact hne hc

namespace QualifiedName

variable {segs : List Text} {t : Text}

theorem isSegment_of_mem (h : QualifiedName segs t) : ∀ s ∈ segs, isSegment s = true := by
  induction h with
  | single hs => exact List.forall_mem_singleton.2 hs
  | cons hs _ _ ih => exact List.forall_mem_cons.2 ⟨hs, ih⟩

theorem ne_nil (h : QualifiedName segs t) : segs ≠ [] := by
  cases h <;> exact List.cons_ne_nil _ _

theorem mem_cases (h : QualifiedName segs t) :
    ∀ c ∈ t, isNameChar c = true ∨ c = '.' ∨ c = '~' := by
  induction h with
  | single hs => exact fun c hc => Or.inl (isNameChar_of_isSegment hs c hc)
  | cons hs hsep _ ih =>
    intro c hc
    rcases List.mem_append.1 hc with hc | hc
    · exact Or.inl (isNameChar_of_isSegment hs c hc)
    · rcases List.mem_cons.1 hc with rfl | hc
      · exact Or.inr hsep
      · exact ih c hc

theorem not_isBlank (h : QualifiedName segs t) : ∀ c ∈ t, isBlank c = false := by
  intro c hc
  rw [Bool.eq_false_iff]
  intro hb
  rcases h.mem_cases c hc with hn | rfl | rfl
  · have := isAtomChar_of_isBlank hb
    simp [isAtomChar_of_isNameChar hn] at this
  · exact absurd hb (by decide)
  · exact absurd hb (by decide)

theorem dotted_eq (h : QualifiedName segs t) : dotted t = Text.join "." segs := by
  induction h with
  | single hs =>
    rw [dotted_of_not_mem (not_mem_of_isSegment hs (by decide))]
    simp [Text.join, List.intercalate]
  | @cons s sep segs t hs hsep ht ih =>
    have hsep' : (if sep = '~' then '.' else sep) = '.' := by
      rcases hsep with rfl | rfl <;> rfl
    rw [Text.join_cons ht.ne_nil, ← ih, dotted, List.map_append, List.map_cons, hsep',
      ← dotted, ← dotted, dotted_of_not_mem (not_mem_of_isSegment hs (by decide))]
    simp

theorem splitOn_dotted (h : QualifiedName segs t) : Text.splitOn '.' (dotted t) = segs := by
  rw [h.dotted_eq]
  exact Text.splitOn_join h.ne_nil fun s hs =>
    not_mem_of_isSegment (h.isSegment_of_mem s hs) (by decide)

/-! ### The readers -/

theorem ownerPathOf_eq (h : QualifiedName segs t)
    (hlast : segs.getLast? ≠ some "prototype".toList) : ownerPathOf t = segs := by
  have hdotted : (t.map fun c => if c = '#' ∨ c = '~' then '.' else c) = dotted t := by
    refine List.map_congr_left fun c hc => ?_
    have hne : c ≠ '#' := by
      rintro rfl
      rcases h.mem_cases '#' hc with hn | hn | hn
      · exact absurd hn (by decide)
      · exact absurd hn (by decide)
      · exact absurd hn (by decide)
    simp [hne]
  have hfull : (segs.filter fun s => !s.isEmpty) = segs := by
    refine List.filter_eq_self.2 fun s hs => ?_
    have hident := h.isSegment_of_mem s hs
    simp only [isSegment, Bool.and_eq_true] at hident
    exact hident.1
  simp only [ownerPathOf, hdotted, h.splitOn_dotted, hfull, if_neg hlast]

theorem ofValue_eq (h : QualifiedName segs t) :
    TypeName.ofValue t =
      match Text.rcut? "~" t with
      | some (owner, name) => ⟨Text.splitOn '.' (dotted owner), name, []⟩
      | none => ⟨(Text.unsnoc segs).1, (Text.unsnoc segs).2, []⟩ := by
  have hbrace : t.head? ≠ some '{' := by
    intro hhead
    rcases h.mem_cases '{' (List.mem_of_head? hhead) with hn | hn | hn
    · exact absurd hn (by decide)
    · exact absurd hn (by decide)
    · exact absurd hn (by decide)
  have htype : TypeName.leadingType? t = none := if_neg hbrace
  rw [TypeName.ofValue, Text.trim_of_no_blank h.not_isBlank, htype]
  simp only [Option.getD_none, Text.firstWord_of_no_blank h.not_isBlank]
  cases hcut : Text.rcut? "~" t with
  | some p => rfl
  | none =>
    have hno := Text.rcut?_singleton_eq_none hcut
    have hsegs := h.splitOn_dotted
    rw [dotted_of_not_mem hno] at hsegs
    rw [hsegs]

/-- The path of a type and its name, as one text. -/
theorem join_ofValue (h : QualifiedName segs t) :
    Text.join "." ((TypeName.ofValue t).path ++ [(TypeName.ofValue t).name]) =
      Text.join "." segs := by
  rw [h.ofValue_eq]
  cases hcut : Text.rcut? "~" t with
  | none => rw [Text.concat_unsnoc h.ne_nil]
  | some p =>
    obtain ⟨owner, name⟩ := p
    have hparts : t = owner ++ '~' :: name ∧ '~' ∉ name := Text.rcut?_singleton_eq_some hcut
    obtain ⟨heq, hname⟩ := hparts
    have hjoin : Text.join "." (Text.splitOn '.' (dotted owner)) = dotted owner :=
      Text.join_splitOn '.' _
    rw [Text.join_concat (Text.splitOn_ne_nil _ _), hjoin, ← h.dotted_eq, heq, dotted, dotted,
      List.map_append, List.map_cons, ← dotted, ← dotted, dotted_of_not_mem hname]
    simp

/-- They are the segments unless a dot stands behind the last tilde. -/
theorem concat_ofValue_iff (h : QualifiedName segs t) :
    (TypeName.ofValue t).path ++ [(TypeName.ofValue t).name] = segs ↔
      ∀ owner name, t = owner ++ '~' :: name → '~' ∉ name → '.' ∉ name := by
  rw [h.ofValue_eq]
  cases hcut : Text.rcut? "~" t with
  | none =>
    have hno : '~' ∉ t := Text.rcut?_singleton_eq_none hcut
    refine iff_of_true (Text.concat_unsnoc h.ne_nil) fun owner name heq => ?_
    exact absurd (by simp [heq]) hno
  | some p =>
    obtain ⟨owner, name⟩ := p
    have hparts : t = owner ++ '~' :: name ∧ '~' ∉ name := Text.rcut?_singleton_eq_some hcut
    obtain ⟨heq, hname⟩ := hparts
    constructor
    · intro hsegs owner' name' heq' hname'
      obtain rfl := eq_of_last_append (heq.symm.trans heq') hname hname'
      refine not_mem_of_isSegment (h.isSegment_of_mem name ?_) (by decide)
      rw [← hsegs]
      exact List.mem_append_right _ List.mem_cons_self
    · intro hno
      have hsplit := h.splitOn_dotted
      rw [heq, dotted, List.map_append, List.map_cons, ← dotted, ← dotted,
        dotted_of_not_mem hname] at hsplit
      have := (Text.splitOn_append_cons '.' (dotted owner) name).symm.trans hsplit
      rwa [Text.splitOn_of_not_mem (hno owner name heq hname)] at this

end QualifiedName

/-! ### Classes -/

/-- A class keeps the name as it is written. -/
theorem fullPath_declareClass (a : Area) : (declareClass a).fullPath = a.value := by
  have hparts := Text.concat_unsnoc (Text.splitOn_ne_nil '.' a.value)
  rw [Declaration.fullPath]
  refine Eq.trans ?_ (Text.join_splitOn '.' a.value)
  exact congrArg (Text.join ".") hparts

theorem role_declareClass_ne (a : Area) : (declareClass a).role ≠ some .function := by
  have hrole : (declareClass a).role = some .classBody := rfl
  simp [hrole]

/-! ### All readers -/

/-- What the readers make of the name `t` with the segments `segs`. -/
structure NameResolution (segs : List Text) (t : Text) : Prop where
  /-- A member tag finds the segments. -/
  memberPath : ownerPathOf t = segs
  /-- A class has the name as its full path. -/
  classPath : ∀ a : Area, a.value = t → (declareClass a).fullPath = t
  /-- This is the dotted path exactly if no tilde is in it. -/
  isDotted : t = Text.join "." segs ↔ '~' ∉ t
  /-- The last class of such a name holds the members with this path that are kept, as they are,
  and so those that are documented with the name. -/
  attached : '~' ∉ t → ∀ (includePrivate : Bool) (classes members : List Declaration) (i : Nat)
    (a : Area), a.value = t → classes[i]? = some (declareClass a) →
      (∀ j d, i < j → classes[j]? = some d → d.ownsPath t = false) →
        (placeMembers includePrivate (classes.map fun d => ⟨d, []⟩) members).value[i]? =
            some ⟨declareClass a, members.filter fun m =>
              m.isKept includePrivate && m.ownerPath = Text.join "." segs⟩ ∧
          ∀ (expand : Bool) (b : Area), b.value = t →
            (memberDeclaration expand b).ownerPath = Text.join "." segs
  /-- The path and the name of a type are the dotted path as one text. -/
  typePath : Text.join "." ((TypeName.ofValue t).path ++ [(TypeName.ofValue t).name]) =
    Text.join "." segs
  /-- They are the segments exactly if no dot stands behind the last tilde. -/
  typeSegments : (TypeName.ofValue t).path ++ [(TypeName.ofValue t).name] = segs ↔
    ∀ owner name, t = owner ++ '~' :: name → '~' ∉ name → '.' ∉ name

/-- All readers of a qualified name find the same path, apart from tildes in the name of a class and
dots behind the last tilde in that of a type. -/
theorem nameResolution {segs : List Text} {t : Text} (h : QualifiedName segs t)
    (hlast : segs.getLast? ≠ some "prototype".toList) : NameResolution segs t where
  memberPath := h.ownerPathOf_eq hlast
  classPath a ha := ha ▸ fullPath_declareClass a
  isDotted := by rw [← h.dotted_eq, eq_dotted_iff]
  attached hno includePrivate classes members i a ha hi hrest := by
    have hpath : (declareClass a).fullPath = Text.join "." segs := by
      rw [fullPath_declareClass, ha, ← h.dotted_eq, dotted_of_not_mem hno]
    refine ⟨?_, fun expand b hb => ?_⟩
    · rw [placeMembers_eq, getElem?_containersOf hi (role_declareClass_ne a) ?_ members, hpath]
      · exact congrArg (fun ms => some (⟨declareClass a, ms⟩ : Container)) (List.map_id _)
      · rw [fullPath_declareClass, ha]
        exact hrest
    · rw [← h.ownerPathOf_eq hlast, ← hb]
      rfl
  typePath := h.join_ofValue
  typeSegments := h.concat_ofValue_iff

/-- A name with both marks. -/
theorem nameResolution_of_both_marks :
    QualifiedName ["Lib", "A", "B"] "Lib.A~B" ∧
      (["Lib", "A", "B"] : List Text).getLast? ≠ some "prototype".toList ∧
        NameResolution ["Lib", "A", "B"] "Lib.A~B" := by
  have hname : QualifiedName ["Lib", "A", "B"] "Lib.A~B" :=
    .cons (s := "Lib") (by decide +kernel) (Or.inl rfl)
      (.cons (s := "A") (by decide +kernel) (Or.inr rfl) (.single (s := "B") (by decide +kernel)))
  exact ⟨hname, by decide, nameResolution hname (by decide)⟩

/-- The class `A~B` is not at the path of the members of `A~B`, so an interface is made up for them.
The type `A~B.C` is not at the segments of its name. -/
theorem not_resolved_of_tilde :
    let a : Area := { start := 0, stop := 0, comment := [], value := "A~B" }
    let m : Declaration :=
      { area := none, path := ownerPathOf a.value, name := "x", heads := [], role := some .field,
        signature := "x" }
    QualifiedName ["A", "B"] "A~B" ∧ QualifiedName ["A", "B", "C"] "A~B.C" ∧
      (declareClass a).fullPath ≠ Text.join "." (ownerPathOf a.value) ∧
        (placeMembers false [⟨declareClass a, []⟩] [m]).value =
          [⟨declareClass a, []⟩, ⟨madeUpInterface ["A", "B"], [{ m with heads := ["x"] }]⟩] ∧
        (TypeName.ofValue "A~B.C").path ++ [(TypeName.ofValue "A~B.C").name] ≠
          ownerPathOf "A~B.C" := by
  intro a m
  have hA : isSegment "A" = true := by decide +kernel
  have hB : isSegment "B" = true := by decide +kernel
  have hC : isSegment "C" = true := by decide +kernel
  exact ⟨.cons hA (Or.inr rfl) (.single hB),
    .cons hA (Or.inr rfl) (.cons hB (Or.inl rfl) (.single hC)), by decide +kernel,
    by decide +kernel, by decide +kernel⟩

end DocDecl

import DocDecl.Proofs.Comment.Excerpt
import DocDecl.Proofs.Declaration.Members
import DocDecl.Proofs.LineEnds.Family
import DocDecl.Proofs.LineEnds.LiteralType

/-!
# Members and line ends

Where the lines of a source end with carriage returns, a member has the same name, role and comment,
and its signature is the same but for carriage returns in front of line feeds: these come from the
quoted keys of a default. The type that documented members make up is put together from signatures
again, so this holds at any depth, by induction on the length of the default.

## Main definitions

* `Declaration.Resembles` : members that are the same but for carriage returns.
* `AlikeType` : types that are.

## Main results

* `alikeType_membersType` : the type that members make up.
* `alikeType_documentedType` : the type of a documented default.
* `resembles_declareMembers` : the members of a source.
-/

namespace DocDecl

open Text

variable {expand : Bool} {source : Text}

/-- A member of a source whose lines end with carriage returns: its heads and its signature are
alike, and all else is the same. -/
inductive Declaration.Resembles (source : Text) (d : Declaration) : Declaration → Prop
  | mk {heads : List Text} {signature : Text} (hheads : List.Forall₂ (Alike false) d.heads heads)
      (hsignature : AlikeToEnd d.signature signature) :
      Declaration.Resembles source d
        { d.dosLines source with heads := heads, signature := signature }

/-- Types that are alike and do not end with a line feed. They stand behind other text. -/
structure AlikeType (t t' : Text) : Prop where
  alike : Alike true t t'
  getLast?_ne : t.getLast? ≠ some '\n'

theorem alikeToEnd_fieldSignature {t t' : Text} (h : AlikeType t t') (name : Text) :
    AlikeToEnd (fieldSignature name t) (fieldSignature name t') := by
  rw [fieldSignature, fieldSignature]
  by_cases ht : t = []
  · rw [if_pos ht, if_pos (h.alike.eq_nil_iff.2 ht)]
    exact .refl name
  · rw [if_neg ht, if_neg (mt h.alike.eq_nil_iff.1 ht)]
    refine ⟨Alike.append_left _ ?_, fun hlast => ?_⟩
    · rw [behind_append]
      exact h.alike
    · rw [List.getLast?_append, Option.or_of_isSome] at hlast
      · exact absurd hlast h.getLast?_ne
      · simpa using ht

/-! ### Types of defaults -/

theorem documentsMembers_dosLines (a : Area) :
    documentsMembers expand (a.dosLines source) = documentsMembers expand a := by
  have hliteral : (a.dosLines source).literal = dosLines a.literal := rfl
  rw [documentsMembers, hliteral, contains_dosLines (by simp [isBreak]),
    contains_dosLines (by simp [isBreak]), documentsMembers]

theorem alikeType_defaultType {a : Area} (hr : '\r' ∉ a.literal)
    (hinner : documentsMembers expand a = true →
      AlikeType (innerType expand a).value (innerType expand (a.dosLines source)).value)
    (name : Text) :
    AlikeType (defaultType expand (innerType expand a) a name).value
      (defaultType expand (innerType expand (a.dosLines source)) (a.dosLines source)
        name).value := by
  have hnil : AlikeType [] [] := ⟨.nil true, by simp⟩
  have hliteral : (a.dosLines source).literal = dosLines a.literal := rfl
  rw [defaultType, defaultType, expansionOf, expansionOf, documentsMembers_dosLines, hliteral,
    isEmpty_dosLines, parseLiteral?_dosLines]
  by_cases hno : (!expand || a.literal.isEmpty) = true
  · rw [if_pos hno, if_pos hno]
    exact hnil
  · rw [if_neg hno, if_neg hno]
    by_cases hdoc : documentsMembers expand a = true
    · rw [if_pos hdoc, if_pos hdoc]
      exact hinner hdoc
    · rw [if_neg hdoc, if_neg hdoc]
      cases hv : parseLiteral? a.literal with
      | none => exact hnil
      | some v => exact ⟨alike_type (isUnix_of_parseLiteral? hv hr), getLast?_type_ne_feed v⟩

/-! ### One member -/

theorem value_methodSignature_dosLines (a : Area) (name : Text) (args : List Argument) :
    (methodSignature (a.dosLines source) name args).value =
      (methodSignature a name args).value := by
  simp only [methodSignature, Noted.value_bind, Noted.value_pure,
    value_checkedReturnType_dosLines, Area.isDeprecated_dosLines]
  simp only [Area.dosLines, parameters_dosLines]

theorem alike_memberSignature {a : Area} {inner inner' : Noted Text} {name : Text}
    (hdefault : AlikeType (defaultType expand inner a name).value
      (defaultType expand inner' (a.dosLines source) name).value) :
    (memberSignature expand inner' (a.dosLines source) name).value.1 =
        (memberSignature expand inner a name).value.1 ∧
      AlikeToEnd (memberSignature expand inner a name).value.2
        (memberSignature expand inner' (a.dosLines source) name).value.2 := by
  rw [memberSignature, memberSignature, Area.hasTag_dosLines (by simp [isBreak])]
  by_cases htype : a.hasTag "type" = true
  · rw [if_pos htype, if_pos htype]
    refine ⟨rfl, ?_⟩
    have hfield : fieldType (a.dosLines source).comment = fieldType a.comment :=
      fieldType_dosLines a.comment
    simp only [hfield]
    exact .refl _
  · rw [if_neg htype, if_neg htype]
    have hargs : (if (a.dosLines source).role = some .method then
        arguments? (a.dosLines source).definition else none) =
        if a.role = some .method then arguments? a.definition else none := rfl
    rw [hargs]
    cases if a.role = some .method then arguments? a.definition else none with
    | some args =>
      refine ⟨rfl, ?_⟩
      simp only [Noted.value_bind, Noted.value_pure, value_methodSignature_dosLines]
      exact .refl _
    | none => exact ⟨rfl, alikeToEnd_fieldSignature hdefault name⟩

theorem resembles_memberDeclaration {a : Area} (hr : '\r' ∉ a.literal)
    (hinner : documentsMembers expand a = true →
      AlikeType (innerType expand a).value (innerType expand (a.dosLines source)).value) :
    Declaration.Resembles source (memberDeclaration expand a)
      (memberDeclaration expand (a.dosLines source)) := by
  obtain ⟨hrole, hsignature⟩ :=
    alike_memberSignature (alikeType_defaultType hr hinner (memberName a.definition))
  have hrole : (memberDeclaration expand (a.dosLines source)).role =
      (memberDeclaration expand a).role := congrArg some hrole
  have hcomment : (memberDeclaration expand (a.dosLines source)).comment =
      (memberDeclaration expand a).comment := cleanComment_dosLines [] a.comment
  have heq : memberDeclaration expand (a.dosLines source) =
      { memberDeclaration expand (a.dosLines source) with
        role := (memberDeclaration expand (a.dosLines source)).role
        comment := (memberDeclaration expand (a.dosLines source)).comment } := rfl
  rw [heq, hrole, hcomment]
  refine .mk (.cons ?_ .nil) hsignature
  exact ((Alike.refl false _).append hsignature.alike).trim

/-! ### The type that members make up -/

theorem alikeType_membersType {ds ds' : List Declaration}
    (h : List.Forall₂ (Declaration.Resembles source) ds ds') :
    AlikeType (membersType ds) (membersType ds') := by
  rw [membersType, membersType]
  cases h with
  | nil => exact ⟨.refl _ _, by decide⟩
  | cons hd hds =>
    rw [if_neg (List.cons_ne_nil _ _), if_neg (List.cons_ne_nil _ _)]
    refine ⟨((Alike.refl _ _).append (.join _ ?_)).append (.refl _ _), ?_⟩
    · rw [List.forall₂_map_left_iff, List.forall₂_map_right_iff]
      refine (List.Forall₂.cons hd hds).imp fun d d' hd => ?_
      obtain ⟨-, hsignature⟩ := hd
      exact ((Alike.refl false _).append hsignature.alike).indentLines bodyTab
    · rw [List.getLast?_append]
      exact fun hlast => absurd hlast (by simp)

theorem resembles_withoutExpanded {ds ds' : List Declaration}
    (h : List.Forall₂ (Declaration.Resembles source) ds ds') :
    List.Forall₂ (Declaration.Resembles source) (withoutExpanded expand ds)
      (withoutExpanded expand ds') := by
  let documents (d : Declaration) : Bool := (d.area.map (documentsMembers expand)).getD false
  have hdocuments {d d' : Declaration} (hd : Declaration.Resembles source d d') :
      documents d' = documents d := by
    obtain ⟨-, -⟩ := hd
    change ((d.area.map (Area.dosLines source)).map (documentsMembers expand)).getD false =
      (d.area.map (documentsMembers expand)).getD false
    cases d.area with
    | none => rfl
    | some a => exact documentsMembers_dosLines a
  have howners : (ds'.filter documents).map Declaration.memberPath =
      (ds.filter documents).map Declaration.memberPath := by
    induction h with
    | nil => rfl
    | @cons d d' ds ds' hd _ ih =>
      have hpath : d'.memberPath = d.memberPath := by
        obtain ⟨-, -⟩ := hd
        rfl
      rw [List.filter_cons, List.filter_cons, hdocuments hd]
      split_ifs
      · rw [List.map_cons, List.map_cons, hpath, ih]
      · exact ih
  rw [withoutExpanded, withoutExpanded]
  change List.Forall₂ _ (ds.filter fun d => !((ds.filter documents).map _).contains _)
    (ds'.filter fun d => !((ds'.filter documents).map _).contains _)
  rw [howners]
  refine List.rel_filter (fun d d' hd => ?_) h
  obtain ⟨-, -⟩ := hd
  exact Iff.rfl

theorem resembles_declaredMembers {as : List Area} (hr : ∀ a ∈ as, '\r' ∉ a.literal)
    (hinner : ∀ a ∈ as, documentsMembers expand a = true →
      AlikeType (innerType expand a).value (innerType expand (a.dosLines source)).value) :
    List.Forall₂ (Declaration.Resembles source) (declaredMembers expand as)
      (declaredMembers expand (as.map (Area.dosLines source))) := by
  have hfilter : (as.map (Area.dosLines source)).filter Area.namesMember =
      (as.filter Area.namesMember).map (Area.dosLines source) := List.filter_map
  rw [declaredMembers, declaredMembers, hfilter, List.forall₂_map_left_iff,
    List.forall₂_map_right_iff, List.forall₂_map_right_iff, List.forall₂_same]
  intro a ha
  have ha := (List.mem_filter.1 ha).1
  exact resembles_memberDeclaration (hr a ha) (hinner a ha)

/-! ### Documented defaults -/

theorem literalMembers_dosLines {literal : Text}
    (hover : Text.contains overrideTag literal = false) :
    literalMembers (dosLines literal) =
      (literalMembers literal).map (Area.dosLines literal) := by
  rw [literalMembers, areasOfAll_dosLines (by simp [isBreak]) (by simp) hover,
    literalMembers, List.map_map, List.map_map]
  exact List.map_congr_left fun a _ => memberRole_dosLines literal a

theorem infix_literal_of_mem_areas {marker : Text} {kind : AreaKind} {a : Area}
    (ha : a ∈ areas source marker kind) : a.literal <:+: source := by
  obtain ⟨off, -, hstands⟩ := exists_standsAt_literal ha
  exact hstands.isInfix.trans (List.drop_suffix off source).isInfix

theorem infix_literal_of_mem_literalMembers {literal : Text} {a : Area}
    (ha : a ∈ literalMembers literal) : a.literal <:+: literal := by
  obtain ⟨b, hb, rfl⟩ := List.mem_map.1 ha
  obtain ⟨m, -, hb⟩ := List.mem_flatMap.1 hb
  change b.literal <:+: literal
  exact infix_literal_of_mem_areas hb

theorem value_documentedType (literal : Text) :
    (documentedType expand literal).value =
      membersType (withoutExpanded expand (declaredMembers expand (literalMembers literal))) := by
  rw [documentedType_eq, ← value_declareMembers]
  rfl

/-- The types that the documented members of a default make up are alike. -/
theorem alikeType_documentedType {literal : Text} (hr : '\r' ∉ literal)
    (hover : Text.contains overrideTag literal = false) :
    AlikeType (documentedType expand literal).value
      (documentedType expand (dosLines literal)).value := by
  induction hlen : literal.length using Nat.strongRecOn generalizing literal with
  | ind n ih =>
    rw [value_documentedType, value_documentedType, literalMembers_dosLines hover]
    refine alikeType_membersType (resembles_withoutExpanded (resembles_declaredMembers ?_ ?_))
    · exact fun a ha hreturn => hr ((infix_literal_of_mem_literalMembers ha).subset hreturn)
    · intro a ha hdoc
      have hin := infix_literal_of_mem_literalMembers ha
      have hlt := length_literalMembers_lt ha (literal_ne_nil_of_documentsMembers hdoc)
      rw [innerType, innerType, documentsMembers_dosLines, if_pos hdoc, if_pos hdoc]
      exact ih _ (hlen ▸ hlt) (fun hreturn => hr (hin.subset hreturn))
        (contains_eq_false_of_isInfix hin hover) rfl

/-- The members of areas resemble those with carriage returns at the line ends. -/
theorem resembles_declareMembers {as : List Area} (hin : ∀ a ∈ as, a.literal <:+: source)
    (hr : '\r' ∉ source) (hover : Text.contains overrideTag source = false) :
    List.Forall₂ (Declaration.Resembles source) (declareMembers expand as).value
      (declareMembers expand (as.map (Area.dosLines source))).value := by
  rw [value_declareMembers, value_declareMembers]
  have hr : ∀ a ∈ as, '\r' ∉ a.literal := fun a ha hreturn => hr ((hin a ha).subset hreturn)
  refine resembles_withoutExpanded (resembles_declaredMembers hr fun a ha hdoc => ?_)
  rw [innerType, innerType, documentsMembers_dosLines, if_pos hdoc, if_pos hdoc]
  exact alikeType_documentedType (hr a ha) (contains_eq_false_of_isInfix (hin a ha) hover)

end DocDecl

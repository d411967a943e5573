import DocDecl.Proofs.Grouping.Rendering
import DocDecl.Proofs.LineEnds.Member

/-!
# Containers and line ends

A member is placed by its name, its path and what its block says, so members that resemble each
other are placed alike, and the containers that are made for them have members that resemble each
other, one by one. What is printed for a container is therefore the same but for carriage returns in
front of line feeds.

## Main definitions

* `Container.Resembles`, `Fragment.Resembles` : containers and fragments that are the same but for
  carriage returns.

## Main results

* `resembles_placeMember` : placing one member keeps containers alike.
* `resembles_placeMembers` : so does placing all.
* `resembles_fragment` : what is printed for a container.
* `resembles_promoteStatics` : what is printed for promoted statics.
-/

namespace DocDecl

variable {source : Text} {includePrivate : Bool}

/-! ### What declarations are placed by -/

section Declaration

variable (source) (d : Declaration)

theorem override_dosLines : (d.dosLines source).override = d.override := by
  rw [Declaration.override, Declaration.override, Declaration.dosLines]
  cases d.area <;> rfl

theorem isPromotedStatic_dosLines :
    (d.dosLines source).isPromotedStatic = d.isPromotedStatic := by
  rw [Declaration.isPromotedStatic, Declaration.isPromotedStatic, Declaration.dosLines]
  cases d.area <;> rfl

theorem isHidden_dosLines (includePrivate : Bool) :
    (d.dosLines source).isHidden includePrivate = d.isHidden includePrivate := by
  rw [Declaration.isHidden, Declaration.isHidden, Declaration.dosLines]
  cases d.area with
  | none => rfl
  | some a =>
    have hprivate : (a.dosLines source).isPrivate = a.isPrivate :=
      Area.hasTag_dosLines (by simp [isBreak]) source a
    simp only [Option.map_some, hprivate]

theorem headText_dosLines : (d.dosLines source).headText = d.headText := by
  rw [Declaration.headText, override_dosLines, Declaration.headText]
  rfl

end Declaration

/-! ### Containers -/

/-- A container that holds members which resemble those of another. -/
structure Container.Resembles (source : Text) (c c' : Container) : Prop where
  declaration_eq : c'.declaration = c.declaration.dosLines source
  members : List.Forall₂ (Declaration.Resembles source) c.members c'.members

theorem Container.Resembles.add {c c' : Container} {m m' : Declaration}
    (hc : c.Resembles source c') (hm : m.Resembles source m') :
    (c.add m).Resembles source (c'.add m') := by
  have hinterface : c'.declaration.isInterface = c.declaration.isInterface := by
    rw [hc.declaration_eq]
    rfl
  rw [Container.add, Container.add, hinterface]
  refine ⟨hc.declaration_eq, List.rel_append hc.members (.cons ?_ .nil)⟩
  obtain ⟨hheads, hsignature⟩ := hm
  split_ifs
  · exact .mk (.cons hsignature.alike .nil) hsignature
  · exact .mk hheads hsignature

theorem Container.Resembles.owns_eq {c c' : Container} (hc : c.Resembles source c')
    (path : Text) : c'.owns path = c.owns path := by
  rw [Container.owns, Container.owns, hc.declaration_eq]
  rfl

theorem Container.Resembles.isEmpty_eq {c c' : Container} (hc : c.Resembles source c') :
    c'.members.isEmpty = c.members.isEmpty := by
  have hempty {ms ms' : List Declaration} (h : List.Forall₂ (Declaration.Resembles source) ms ms') :
      ms'.isEmpty = ms.isEmpty := by
    cases h <;> rfl
  exact hempty hc.members

theorem resembles_addToOwner {cs cs' : List Container} {m m' : Declaration}
    (hcs : List.Forall₂ (Container.Resembles source) cs cs') (hm : m.Resembles source m') :
    Option.Rel (List.Forall₂ (Container.Resembles source)) (addToOwner m cs)
      (addToOwner m' cs') := by
  have hpath : m'.ownerPath = m.ownerPath := by
    obtain ⟨-, -⟩ := hm
    rfl
  induction hcs with
  | nil => exact .none
  | @cons c c' cs cs' hc hcs ih =>
    rw [addToOwner, addToOwner]
    cases h : addToOwner m cs with
    | some ds =>
      cases h' : addToOwner m' cs' with
      | some ds' =>
        rw [h, h'] at ih
        obtain ⟨hds⟩ := ih
        exact .some (.cons hc hds)
      | none =>
        rw [h, h'] at ih
        cases ih
    | none =>
      cases h' : addToOwner m' cs' with
      | some ds' =>
        rw [h, h'] at ih
        cases ih
      | none =>
        simp only [hpath, hc.owns_eq]
        split_ifs
        · exact .some (.cons (hc.add hm) hcs)
        · exact .none

/-- Placing a member keeps containers alike. -/
theorem resembles_placeMember {cs cs' : List Container} {m m' : Declaration}
    (hcs : List.Forall₂ (Container.Resembles source) cs cs') (hm : m.Resembles source m') :
    List.Forall₂ (Container.Resembles source) (placeMember includePrivate cs m).value
      (placeMember includePrivate cs' m').value := by
  have hstatic : m'.isPromotedStatic = m.isPromotedStatic := by
    obtain ⟨-, -⟩ := hm
    exact isPromotedStatic_dosLines source m
  have hhidden : m'.isHidden includePrivate = m.isHidden includePrivate := by
    obtain ⟨-, -⟩ := hm
    exact isHidden_dosLines source m includePrivate
  have hpath : m'.path = m.path := by
    obtain ⟨-, -⟩ := hm
    rfl
  have howner := resembles_addToOwner hcs hm
  rw [placeMember, placeMember, hstatic, hhidden, hpath]
  by_cases hs : m.isPromotedStatic = true
  · rw [if_pos hs, if_pos hs]
    exact hcs
  · rw [if_neg hs, if_neg hs]
    by_cases hh : m.isHidden includePrivate = true
    · rw [if_pos hh, if_pos hh]
      exact hcs
    · rw [if_neg hh, if_neg hh]
      generalize addToOwner m cs = o at howner
      generalize addToOwner m' cs' = o' at howner
      cases howner with
      | some h => exact h
      | none =>
        dsimp only
        by_cases hn : isClassName (m.path.getLastD []) = true
        · rw [if_pos hn, if_pos hn]
          have hnew : Container.Resembles source ⟨madeUpInterface m.path, []⟩
            ⟨madeUpInterface m.path, []⟩ := ⟨rfl, .nil⟩
          exact List.rel_append hcs (.cons (hnew.add hm) .nil)
        · rw [if_neg hn, if_neg hn]
          exact hcs

/-- Placing all members keeps containers alike. -/
theorem resembles_placeMembers {cs cs' : List Container} {ms ms' : List Declaration}
    (hcs : List.Forall₂ (Container.Resembles source) cs cs')
    (hms : List.Forall₂ (Declaration.Resembles source) ms ms') :
    List.Forall₂ (Container.Resembles source) (placeMembers includePrivate cs ms).value
      (placeMembers includePrivate cs' ms').value := by
  induction hms generalizing cs cs' with
  | nil => exact hcs
  | cons hm _ ih => exact ih (resembles_placeMember hcs hm)

/-! ### Fragments -/

/-- A fragment that is the same as another but for carriage returns in front of line feeds. -/
structure Fragment.Resembles (source : Text) (f f' : Fragment) : Prop where
  area_eq : f'.area = f.area.map (Area.dosLines source)
  code : Alike false f.code f'.code
  path_eq : f'.path = f.path

theorem alike_layoutContainer (comment head : Text) {ms ms' : List Text}
    (h : List.Forall₂ (Alike false) ms ms') :
    Alike false (layoutContainer comment head ms) (layoutContainer comment head ms') := by
  have hlines : List.Forall₂ (Alike false) (ms.map (indentLines bodyTab))
      (ms'.map (indentLines bodyTab)) :=
    List.rel_map (fun _ _ h => h.indentLines bodyTab) h
  exact ((Alike.refl false _).append (.withFeeds hlines)).append (.refl _ _)

theorem alike_memberText {m m' : Declaration} (h : m.Resembles source m') :
    Alike false (memberText m) (memberText m') := by
  obtain ⟨hheads, -⟩ := h
  have hoverride := override_dosLines source m
  refine (Alike.refl false _).append ?_
  change Alike false (if m.override ≠ [] then m.override else _)
    (if (m.dosLines source).override ≠ [] then (m.dosLines source).override else _)
  rw [hoverride]
  split_ifs
  · exact .refl _ _
  · exact .join _ hheads

/-- What is printed for a container. -/
theorem resembles_fragment {c c' : Container} (h : c.Resembles source c') :
    c.fragment.Resembles source c'.fragment := by
  rw [Container.fragment, Container.fragmentWith, Container.fragment, Container.fragmentWith,
    h.declaration_eq, headText_dosLines, h.isEmpty_eq]
  refine ⟨rfl, ?_, rfl⟩
  dsimp only
  split_ifs
  · exact .refl _ _
  · exact alike_layoutContainer _ _ (List.rel_map (fun _ _ h => alike_memberText h) h.members)

theorem Container.Resembles.survives_eq {c c' : Container} (h : c.Resembles source c') :
    c'.survives includePrivate = c.survives includePrivate := by
  rw [Container.survives, h.declaration_eq, isHidden_dosLines, override_dosLines, h.isEmpty_eq,
    Container.survives]
  rfl

/-! ### Promoted statics -/

theorem alike_layoutDeclaration (comment : Text) {t t' : Text} (h : AlikeToEnd t t') :
    Alike false (layoutDeclaration comment t) (layoutDeclaration comment t') :=
  (h.append_left (commentLines comment)).trimFeeds

theorem alike_staticStatement {a : Area} {m m' : Declaration} (h : m.Resembles source m') :
    AlikeToEnd (staticStatement a m) (staticStatement (a.dosLines source) m') := by
  obtain ⟨-, hsignature⟩ := h
  rw [staticStatement, staticStatement, Area.hasTag_dosLines (by simp [isBreak])]
  change AlikeToEnd _ (if m.role = some .method then _ else _)
  split_ifs
  · exact hsignature.append_left "function "
  · exact hsignature.append_left "const "
  · exact hsignature.append_left "let "

theorem resembles_promotedFragment? {m m' : Declaration} (h : m.Resembles source m') :
    Option.Rel (Fragment.Resembles source) (promotedFragment? m) (promotedFragment? m') := by
  have hstatic : m'.isPromotedStatic = m.isPromotedStatic := by
    obtain ⟨-, -⟩ := h
    exact isPromotedStatic_dosLines source m
  have harea : m'.area = m.area.map (Area.dosLines source) := by
    obtain ⟨-, -⟩ := h
    rfl
  have hoverride : m'.override = m.override := by
    obtain ⟨-, -⟩ := h
    exact override_dosLines source m
  have hcomment : m'.comment = m.comment ∧ m'.path = m.path := by
    obtain ⟨-, -⟩ := h
    exact ⟨rfl, rfl⟩
  rw [promotedFragment?, promotedFragment?, harea, hstatic, hoverride, hcomment.1, hcomment.2]
  cases ha : m.area with
  | none => exact .none
  | some a =>
    dsimp only [Option.map_some]
    split_ifs
    · exact .some ⟨rfl, .refl _ _, rfl⟩
    · exact .some ⟨rfl, alike_layoutDeclaration _ (alike_staticStatement h), rfl⟩
    · exact .none

theorem resembles_promoteStatics {ms ms' : List Declaration}
    (h : List.Forall₂ (Declaration.Resembles source) ms ms') :
    List.Forall₂ (Fragment.Resembles source) (promoteStatics ms) (promoteStatics ms') :=
  List.rel_filterMap (fun _ _ h => resembles_promotedFragment? h) h

end DocDecl

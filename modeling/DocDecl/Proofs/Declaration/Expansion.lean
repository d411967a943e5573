import DocDecl.Proofs.Comment.Excerpt
import DocDecl.Proofs.Declaration.Members
import DocDecl.Proofs.Text.Pieces

/-!
# Members of documented defaults

A default that documents members stands for all members of its path: these are left out, wherever in
the source they are documented. The type of the default is made up of the members that its literal
holds. So a member that is left out is found in the type of its owner if its block lies in the
literal; one that only shares the path with such members is not.

## Main definitions

* `expandedPaths` : the paths of members that a documented default stands for.
* `Area.readsDefault` : a member whose type is read off its default.
* `propertyText` : a member as it stands in the type of its owner.
* `AccountsForMembers` : what becomes of the members of a source.

## Main results

* `declareMembers_eq_filter` : a member is left out exactly if a documented default has its path.
* `infix_signature_of_mem` : the members of a documented default are in the type of its owner.
* `exists_sameBlock_literalMembers` : a block in a literal is found again there.
* `accountsForMembers` : what becomes of the members of every source.
-/

namespace DocDecl

variable {expand : Bool}

/-! ### Members that are left out -/

/-- The paths of members that a documented default stands for. -/
def expandedPaths (expand : Bool) (as : List Area) : List Text :=
  ((as.filter Area.namesMember).filter (documentsMembers expand)).map fun a =>
    (memberDeclaration expand a).memberPath

/-- The members that are declared are those whose path is not that of a documented default. -/
theorem declareMembers_eq_filter (as : List Area) :
    (declareMembers expand as).value =
      (declaredMembers expand as).filter fun d =>
        !(expandedPaths expand as).contains d.ownerPath := by
  have hpaths : ((declaredMembers expand as).filter fun d =>
        (d.area.map (documentsMembers expand)).getD false).map Declaration.memberPath =
      expandedPaths expand as := by
    rw [declaredMembers, List.filter_map, List.map_map]
    rfl
  rw [value_declareMembers, withoutExpanded, hpaths]

theorem mem_declareMembers_iff {as : List Area} {d : Declaration} :
    d ∈ (declareMembers expand as).value ↔
      d ∈ declaredMembers expand as ∧ d.ownerPath ∉ expandedPaths expand as := by
  simp [declareMembers_eq_filter]

/-! ### The type of a documented default -/

/-- A member as it stands in the type of its owner: indented, below its comment. -/
def propertyText (d : Declaration) : Text :=
  indentLines bodyTab (commentLines d.comment ++ d.signature)

/-- Each member is in the type that is made up of them. -/
theorem infix_membersType {ds : List Declaration} {d : Declaration} (h : d ∈ ds) :
    propertyText d <:+: membersType ds := by
  rw [membersType, if_neg (List.ne_nil_of_mem h)]
  have hmem : propertyText d ∈ ds.map propertyText := List.mem_map_of_mem h
  exact (Text.infix_join hmem _).trans ⟨_, _, rfl⟩

theorem membersType_ne_nil (ds : List Declaration) : membersType ds ≠ [] := by
  rw [membersType]
  split_ifs
  · exact List.cons_ne_nil _ _
  · exact List.append_ne_nil_of_right_ne_nil _ (List.cons_ne_nil _ _)

/-- Whether the type of a member is read off its default: no tag gives it, and the member is no
method. -/
def Area.readsDefault (a : Area) : Bool :=
  !a.hasTag "type" && (if a.role = some .method then arguments? a.definition else none).isNone

theorem memberSignature_of_readsDefault {a : Area} (h : a.readsDefault = true)
    (inner : Noted Text) (name : Text) :
    memberSignature expand inner a name = do
      return (.field, fieldSignature name (← defaultType expand inner a name)) := by
  rw [Area.readsDefault, Bool.and_eq_true, Bool.not_eq_true', Option.isNone_iff_eq_none] at h
  rw [memberSignature, h.1, h.2]
  rfl

theorem signature_of_readsDefault {a : Area} (h : a.readsDefault = true) :
    (memberDeclaration expand a).signature =
      fieldSignature (memberName a.definition)
        (defaultType expand (innerType expand a) a (memberName a.definition)).value := by
  rw [memberDeclaration, memberSignature_of_readsDefault h]
  rfl

theorem expansionOf_of_documentsMembers {a : Area} (h : documentsMembers expand a = true) :
    expansionOf expand a = .documented := by
  have hexpand : expand = true := by
    rw [documentsMembers, Bool.and_eq_true] at h
    exact h.1
  have hliteral : a.literal.isEmpty = false := by
    simpa [List.isEmpty_iff] using literal_ne_nil_of_documentsMembers h
  rw [expansionOf, hliteral, if_pos h, hexpand]
  rfl

/-- The type of a documented default is made up of the members that its literal declares. -/
theorem signature_of_documentsMembers {a : Area} (hr : a.readsDefault = true)
    (hd : documentsMembers expand a = true) :
    (memberDeclaration expand a).signature =
      memberName a.definition ++ ": " ++
        membersType (declareMembers expand (literalMembers a.literal)).value := by
  have htype : (defaultType expand (innerType expand a) a (memberName a.definition)).value =
      membersType (declareMembers expand (literalMembers a.literal)).value := by
    rw [defaultType, expansionOf_of_documentsMembers hd, innerType, if_pos hd, documentedType_eq]
    rfl
  rw [signature_of_readsDefault hr, htype, fieldSignature, if_neg (membersType_ne_nil _)]

theorem infix_signature_of_mem {a : Area} {d : Declaration} (hr : a.readsDefault = true)
    (hd : documentsMembers expand a = true)
    (h : d ∈ (declareMembers expand (literalMembers a.literal)).value) :
    propertyText d <:+: (memberDeclaration expand a).signature := by
  rw [signature_of_documentsMembers hr hd]
  exact (infix_membersType h).trans (List.suffix_append _ _).isInfix

/-! ### Members of a source -/

/-- The markers of the tags that members are documented by. -/
def memberMarkers : List Text := ["* @memberof ", "* @memberOf "]

theorem members_collect (source : Text) :
    (collect source).value.members =
      ((areasOfAll source memberMarkers {}).filter fun a => !a.malformed).map memberRole := by
  rw [← value_wellFormed]
  rfl

section Source

variable {source : Text} {a b : Area}

theorem sameBlock_memberRole (h : a.SameBlock b) : (memberRole a).SameBlock (memberRole b) := by
  rw [← h]
  rfl

theorem memberDeclaration_of_sameBlock (h : a.SameBlock b) :
    memberDeclaration expand b = { memberDeclaration expand a with area := some b } := by
  rw [← h]
  rfl

/-- A member whose block lies in a literal is a member of the literal. -/
theorem exists_sameBlock_literalMembers (hb : b ∈ (collect source).value.members) {literal : Text}
    {off : Nat} (h : b.LiesIn source literal off) :
    ∃ c ∈ literalMembers literal, c.SameBlock b := by
  rw [members_collect] at hb
  obtain ⟨b₀, hb₀, rfl⟩ := List.mem_map.1 hb
  obtain ⟨hb₀, hwell⟩ := List.mem_filter.1 hb₀
  have hwell : b₀.malformed = false := by simpa using hwell
  have hlies : b₀.LiesIn source literal off := ⟨h.stands, h.start, h.stop, h.head⟩
  obtain ⟨m, hm, hb₀⟩ := List.mem_flatMap.1 hb₀
  have hfound : ∃ c ∈ areas literal m {}, c.SameBlock b₀ := by
    simp only [memberMarkers, List.mem_cons, List.not_mem_nil, or_false] at hm
    rcases hm with rfl | rfl
    · exact exists_sameBlock_of_liesIn (w := "memberof ") (by decide) hb₀ hwell hlies
    · exact exists_sameBlock_of_liesIn (w := "memberOf ") (by decide) hb₀ hwell hlies
  obtain ⟨c, hc, hcb⟩ := hfound
  have hmem : c ∈ areasOfAll literal memberMarkers {} := List.mem_flatMap.2 ⟨m, hm, hc⟩
  exact ⟨memberRole c, List.mem_map_of_mem hmem, sameBlock_memberRole hcb⟩

/-- The default of a member is an excerpt of the code behind its block. -/
theorem exists_standsAt_literal_of_mem (ha : a ∈ (collect source).value.members) :
    ∃ off, a.stop ≤ off ∧ Text.StandsAt a.literal source off := by
  rw [members_collect] at ha
  obtain ⟨a₀, ha₀, rfl⟩ := List.mem_map.1 ha
  obtain ⟨m, -, hmem⟩ := List.mem_flatMap.1 (List.mem_filter.1 ha₀).1
  have hliteral : ∃ off, a₀.stop ≤ off ∧ Text.StandsAt a₀.literal source off :=
    exists_standsAt_literal hmem
  exact hliteral

/-- A member whose block lies in a documented default is in the type that is read off the default,
unless another default in there stands for its path. -/
theorem infix_signature_of_liesIn (hr : a.readsDefault = true)
    (hd : documentsMembers expand a = true) (hb : b ∈ (collect source).value.members)
    (hname : b.namesMember = true) {off : Nat} (h : b.LiesIn source a.literal off)
    (hpath : (memberDeclaration expand b).ownerPath ∉
      expandedPaths expand (literalMembers a.literal)) :
    propertyText (memberDeclaration expand b) <:+: (memberDeclaration expand a).signature := by
  obtain ⟨c, hc, hcb⟩ := exists_sameBlock_literalMembers hb h
  have hdeclaration : memberDeclaration expand b =
      { memberDeclaration expand c with area := some b } := memberDeclaration_of_sameBlock hcb
  have hnames : c.namesMember = true := by
    rw [← hcb] at hname
    exact hname
  rw [hdeclaration] at hpath ⊢
  have hmem : memberDeclaration expand c ∈
      (declareMembers expand (literalMembers a.literal)).value :=
    mem_declareMembers_iff.2 ⟨List.mem_map_of_mem (List.mem_filter.2 ⟨hc, hnames⟩), hpath⟩
  exact infix_signature_of_mem (d := memberDeclaration expand c) hr hd hmem

end Source

/-- What becomes of the members of a source. -/
structure AccountsForMembers (expand : Bool) (source : Text) : Prop where
  /-- A member is left out exactly if its path is that of a documented default; all others are
  declared, in order. -/
  declared : (declareMembers expand (collect source).value.members).value =
    (declaredMembers expand (collect source).value.members).filter fun d =>
      !(expandedPaths expand (collect source).value.members).contains d.ownerPath
  /-- The default of a member stands in the source behind its block. -/
  located : ∀ a ∈ (collect source).value.members,
    ∃ off, a.stop ≤ off ∧ Text.StandsAt a.literal source off
  /-- A member whose block lies in a documented default is in the type that is read off it, unless
  another default in there stands for its path. -/
  shown : ∀ a ∈ (collect source).value.members, a.readsDefault = true →
    documentsMembers expand a = true → ∀ b ∈ (collect source).value.members,
      b.namesMember = true → ∀ off, b.LiesIn source a.literal off →
        (memberDeclaration expand b).ownerPath ∉
            expandedPaths expand (literalMembers a.literal) →
          propertyText (memberDeclaration expand b) <:+: (memberDeclaration expand a).signature

/-- Each member is declared, or left out for a documented default with its path; and what lies in a
documented default is in the type of its owner. -/
theorem accountsForMembers (expand : Bool) (source : Text) : AccountsForMembers expand source where
  declared := declareMembers_eq_filter _
  located _ ha := exists_standsAt_literal_of_mem ha
  shown _ _ hr hd _ hb hname _ h hpath := infix_signature_of_liesIn hr hd hb hname h hpath

/-- The block of a member in a documented default lies in the literal. -/
example :
    let source : Text :=
      "/**\n * @memberof A\n */\nA.o = \x7b\n/**\n * @memberof A.o\n */\nx: 1\n\x7d;\n"
    let members := (collect source).value.members
    ∀ a ∈ members.take 1, ∀ b ∈ members.drop 1, b.LiesIn source a.literal 29 := by
  decide +kernel

/-- A member that is documented behind the default with its path is left out, and is not in the type
of its owner. -/
theorem not_shown_of_path :
    let source : Text :=
      "/**\n * @memberof A\n */\nA.opts = \x7b\n  /**\n   * @memberof A.opts\n   */\n  x: 1\n" ++
        "\x7d;\n/**\n * @memberof A.opts\n */\nA.opts.y = 2;\n"
    let members := (collect source).value.members
    ((declaredMembers true members).map fun d => (d.ownerPath, d.signature)) =
        [("A".toList, "opts: \x7b\n  x\n\x7d".toList), ("A.opts".toList, "x".toList),
          ("A.opts".toList, "y".toList)] ∧
      ((declareMembers true members).value.map Declaration.signature) =
        ["opts: \x7b\n  x\n\x7d".toList] ∧
      ¬"y".toList <:+: "opts: \x7b\n  x\n\x7d".toList := by
  decide +kernel

end DocDecl

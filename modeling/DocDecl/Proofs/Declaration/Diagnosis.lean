import DocDecl.Proofs.Declaration.Expansion
import DocDecl.Proofs.Declaration.QualifiedName
import Mathlib.Algebra.BigOperators.Group.List.Basic
import Mathlib.Algebra.GroupWithZero.Nat

/-!
# How often a member is diagnosed

The oddities of a member are reported when the member is declared. The members that a documented
default holds are declared once for the source, and once more for the type of the default; only the
declarations that come twice are left out, not the reports. So a member is diagnosed again for every
default around it, and as the members of a default hold defaults themselves, the number of its
reports doubles with every literal that it is nested in.

## Main definitions

* `MemberFault` : what is reported of members.
* `reportCount` : how often something is reported.
* `ownCount`, `againCount` : the reports of a member, and those of the members of its default.
* `DiagnosesMembers` : how often the members of a source are diagnosed.

## Main results

* `reportCount_declareMembers` : the members of defaults are diagnosed on top of all others.
* `two_pow_le_reportCount` : a member in nested defaults.
* `diagnosesMembers` : how often the members of every source are diagnosed.
* `not_once_of_documented_default` : a member in one default, and one in a default of a default.
-/

namespace DocDecl

open Text

variable {α β : Type} {expand : Bool} {a b : Area} {as : List Area} {s : Subject} {t : Text}

/-! ### Names of members -/

theorem all_nameAt? {name r : Text} (h : nameAt? t = some (name, r)) :
    name.all isNameChar = true := by
  rw [nameAt?] at h
  split_ifs at h
  rw [← (Prod.mk.inj (Option.some.inj h)).1]
  exact List.all_takeWhile

/-- What every reading gives is also given behind a keyword. -/
theorem of_behindKeyword {ks : List Text} {read : Text → Option α} {p : α → Prop}
    (hread : ∀ t x, read t = some x → p x) {x : α} (h : behindKeyword ks read t = some x) :
    p x := by
  rw [behindKeyword, Option.or_eq_some_iff] at h
  rcases h with h | ⟨-, h⟩
  · obtain ⟨r, -, hr⟩ := Option.bind_eq_some_iff.1 h
    exact hread r x hr
  · exact hread t x h

theorem all_assignedName? {name : Text} (h : assignedName? t = some name) :
    name.all isNameChar = true := by
  fun_induction assignedName? t with
  | case1 => cases h
  | case2 t name' r hname r' hr ih => exact ih h
  | case3 t name' r hname r' hr hstop => cases h
  | case4 t name' r hname r' hr hstop => exact Option.some.inj h ▸ all_nameAt? hname
  | case5 => cases h

theorem all_calledName? {q : Text × Text} (h : calledName? t = some q) :
    q.1.all isNameChar = true := by
  obtain ⟨⟨name, r⟩, hname, hq⟩ := Option.bind_eq_some_iff.1 h
  simp only at hq
  split at hq
  · exact Option.some.inj hq ▸ all_nameAt? hname
  · cases hq

theorem all_methodHead? {q : Text × Text} (h : methodHead? t = some q) :
    q.1.all isNameChar = true := by
  have hstarred (t : Text) (q : Text × Text) (h : starredName? t = some q) :
      q.1.all isNameChar = true := by
    rw [starredName?.eq_def] at h
    split at h
    · exact all_calledName? h
    · exact all_calledName? h
  have haccess (t : Text) (q : Text × Text)
      (h : behindKeyword ["get", "set"] starredName? t = some q) : q.1.all isNameChar = true :=
    of_behindKeyword hstarred h
  exact of_behindKeyword (p := fun q => q.1.all isNameChar = true)
    (fun t q h => of_behindKeyword (p := fun q => q.1.all isNameChar = true) haccess h) h

/-- The name of a member is made of characters of names. -/
theorem all_memberName (head : Text) : (memberName head).all isNameChar = true := by
  rw [memberName]
  cases h : ((propertyName? head).or (assignmentName? head)).or
    ((methodHead? head).map Prod.fst) with
  | none => rfl
  | some name =>
    rw [Option.or_eq_some_iff, Option.or_eq_some_iff] at h
    rcases h with (h | ⟨-, h⟩) | ⟨-, h⟩
    · obtain ⟨⟨name', r⟩, hname, hq⟩ := Option.bind_eq_some_iff.1 h
      obtain ⟨-, heq⟩ := Option.ite_none_right_eq_some.1 hq
      exact Option.some.inj heq ▸ all_nameAt? hname
    · exact of_behindKeyword (p := fun name => name.all isNameChar = true)
        (fun _ _ => all_assignedName?) h
    · obtain ⟨q, hq, rfl⟩ := Option.map_eq_some_iff.1 h
      exact all_methodHead? hq

/-- What a member is called in reports. -/
def memberLabel (a : Area) : Text := a.value ++ "#" ++ memberName a.definition

/-- Members of one label have the same tag value and the same name. -/
theorem eq_of_memberLabel_eq (h : memberLabel a = memberLabel b) :
    a.value = b.value ∧ memberName a.definition = memberName b.definition := by
  have hhash (head : Text) : '#' ∉ memberName head := fun h =>
    absurd (List.all_eq_true.1 (all_memberName head) _ h) (by decide +kernel)
  rw [memberLabel, memberLabel, List.append_assoc, List.append_assoc] at h
  have hname : memberName a.definition = memberName b.definition :=
    eq_of_last_append h (hhash _) (hhash _)
  rw [hname, List.append_cancel_right_eq] at h
  exact ⟨h, hname⟩

/-! ### Reports on members -/

/-- What is reported of members. -/
inductive MemberFault where
  /-- Other parameters are documented than the definition has. -/
  | parameters
  /-- Asynchronous code is documented to return no promise. -/
  | returns
  /-- The default is no plain literal. -/
  | default
  deriving DecidableEq

/-- The category that a fault is reported in. -/
def MemberFault.category : MemberFault → Text
  | parameters => "Parameter Mismatch"
  | returns => "Invalid Return"
  | default => "Unparsable Literal"

theorem MemberFault.category_injective : Function.Injective category := by
  intro f g h
  cases f <;> cases g <;> first | rfl | exact absurd h (by decide)

/-- How often a fault is reported of a subject. -/
def reportCount (f : MemberFault) (s : Subject) (x : Noted α) : Nat :=
  x.reports.countP fun r => r.category = f.category ∧ r.subject = s

variable {f g : MemberFault}

@[simp]
theorem reportCount_pure (x : α) : reportCount f s (pure x : Noted α) = 0 := rfl

@[simp]
theorem reportCount_debug (part message : Text) :
    reportCount f s (Noted.debug part message) = 0 := rfl

@[simp]
theorem reportCount_bind (x : Noted α) (y : α → Noted β) :
    reportCount f s (x >>= y) = reportCount f s x + reportCount f s (y x.value) := by
  rw [reportCount, Noted.reports_bind, List.countP_append]
  rfl

theorem reportCount_mapM (y : α → Noted β) (xs : List α) :
    reportCount f s (xs.mapM y) = (xs.map fun x => reportCount f s (y x)).sum := by
  induction xs with
  | nil => rfl
  | cons x xs ih =>
    rw [List.mapM_cons, reportCount_bind, reportCount_bind, reportCount_pure, ih, List.map_cons,
      List.sum_cons, Nat.add_zero]

theorem reportCount_info (f g : MemberFault) (s s' : Subject) (message : Text) :
    reportCount f s (Noted.info s' g.category message) = if g = f ∧ s' = s then 1 else 0 := by
  have hreports : (Noted.info s' g.category message).reports =
      [⟨.info, s', g.category, message⟩] := rfl
  rw [reportCount, hreports, List.countP_singleton]
  simp only [MemberFault.category_injective.eq_iff, decide_eq_true_iff]

theorem reportCount_info_le (f g : MemberFault) (s s' : Subject) (message : Text) :
    reportCount f s (Noted.info s' g.category message) ≤ if s' = s then 1 else 0 := by
  rw [reportCount_info]
  by_cases hs : s' = s
  · simp only [hs, and_true, if_true]
    split_ifs <;> omega
  · simp only [hs, and_false, if_false, le_refl]

theorem reportCount_error {category : Text} (h : category ≠ f.category) (s' : Subject)
    (message : Text) : reportCount f s (Noted.error s' category message) = 0 := by
  have hreports : (Noted.error s' category message).reports =
      [⟨.error, s', category, message⟩] := rfl
  rw [reportCount, hreports, List.countP_singleton, if_neg]
  rw [decide_eq_true_iff]
  exact fun hc => h hc.1

theorem reportCount_onlyIf_info (c : Bool) (f g : MemberFault) (s s' : Subject) (message : Text) :
    reportCount f s (Noted.onlyIf c (Noted.info s' g.category message)) ≤
      if g = f ∧ s' = s then 1 else 0 := by
  cases c with
  | true => exact Nat.le_of_eq (reportCount_info f g s s' message)
  | false => exact Nat.zero_le _

/-! ### The reports of one member -/

theorem reportCount_align (as : List Argument) (documented : List Field) (deprecated : Bool)
    (label : Text) :
    reportCount f s (align (some as) documented deprecated label) ≤
      if .parameters = f ∧ .label label = s then 1 else 0 := by
  rw [align, reportCount_bind, reportCount_pure]
  exact reportCount_onlyIf_info _ f .parameters s (.label label) _

theorem reportCount_checkedReturnType (a : Area) (name : Text) :
    reportCount f s (checkedReturnType a name) ≤
      if .returns = f ∧ .label (a.value ++ "#" ++ name) = s then 1 else 0 := by
  simp only [checkedReturnType]
  cases !isAsync a.definition && !a.hasTag "async" with
  | true => exact Nat.zero_le _
  | false =>
    cases !hasReturnTag a.comment with
    | true => exact Nat.zero_le _
    | false =>
      simp only [Bool.false_eq_true, if_false, reportCount_bind, reportCount_pure, Nat.add_zero]
      exact reportCount_onlyIf_info _ f .returns s (.label (a.value ++ "#" ++ name)) _

/-- A method is told about its parameters and its return type. -/
theorem reportCount_methodSignature (a : Area) (name : Text) (args : List Argument) :
    reportCount f s (methodSignature a name args) ≤
      if .label (a.value ++ "#" ++ name) = s then 1 else 0 := by
  have hfields := reportCount_align (f := f) (s := s) args (parameters a.comment) a.isDeprecated
    (a.value ++ "#" ++ name)
  have hreturns := reportCount_checkedReturnType (f := f) (s := s) a name
  rw [methodSignature, reportCount_bind, reportCount_bind, reportCount_pure, Nat.add_zero]
  refine (Nat.add_le_add hfields hreturns).trans ?_
  generalize Subject.label (a.value ++ "#" ++ name) = s'
  by_cases hs : s' = s
  · cases f <;> simp [hs]
  · simp [hs]

theorem documentsMembers_of_expansionOf (h : expansionOf expand a = .documented) :
    documentsMembers expand a = true := by
  rw [expansionOf] at h
  split_ifs at h with _ hdocuments
  · exact hdocuments
  · cases hparse : parseLiteral? a.literal with
    | none => rw [hparse] at h; cases h
    | some v => rw [hparse] at h; cases h

/-- A default without documented members is told about once. -/
theorem reportCount_defaultType (h : documentsMembers expand a = false) (inner : Noted Text)
    (name : Text) :
    reportCount f s (defaultType expand inner a name) ≤
      if .label (a.value ++ "#" ++ name) = s then 1 else 0 := by
  rw [defaultType]
  cases hexp : expansionOf expand a with
  | nothing => exact Nat.zero_le _
  | documented => simp [documentsMembers_of_expansionOf hexp] at h
  | plain v => exact Nat.zero_le _
  | unparsable =>
    simp only [reportCount_bind, reportCount_pure, Nat.add_zero]
    exact reportCount_info_le f .default s (.label (a.value ++ "#" ++ name)) _

theorem defaultType_of_documentsMembers (h : documentsMembers expand a = true)
    (inner : Noted Text) (name : Text) : defaultType expand inner a name = inner := by
  rw [defaultType, expansionOf_of_documentsMembers h]

theorem defaultType_of_not_documentsMembers (h : documentsMembers expand a = false)
    (inner inner' : Noted Text) (name : Text) :
    defaultType expand inner a name = defaultType expand inner' a name := by
  rw [defaultType, defaultType]
  cases hexp : expansionOf expand a with
  | documented => simp [documentsMembers_of_expansionOf hexp] at h
  | _ => rfl

theorem memberSignature_of_not_readsDefault (h : a.readsDefault = false) (inner : Noted Text)
    (name : Text) :
    memberSignature expand inner a name =
      if a.hasTag "type" then return (.field, fieldSignature name (fieldType a.comment))
      else do return (.method, ← methodSignature a name ((arguments? a.definition).getD [])) := by
  rw [memberSignature]
  split_ifs with htype hrole
  · rfl
  · cases hargs : arguments? a.definition with
    | none =>
      rw [Area.readsDefault, Bool.eq_false_iff.2 htype, if_pos hrole, hargs] at h
      cases h
    | some args => rfl
  · rw [Area.readsDefault, Bool.eq_false_iff.2 htype, if_neg hrole] at h
    cases h

/-- What is told of a member, apart from the members of its default. -/
def ownSignature (expand : Bool) (a : Area) : Noted (Role × Text) :=
  memberSignature expand (return []) a (memberName a.definition)

/-- A member is told about each fault once at most, under its own label. -/
theorem reportCount_ownSignature_le (a : Area) :
    reportCount f s (ownSignature expand a) ≤ if .label (memberLabel a) = s then 1 else 0 := by
  rw [ownSignature]
  cases hreads : a.readsDefault with
  | false =>
    rw [memberSignature_of_not_readsDefault hreads]
    by_cases htype : a.hasTag "type" = true
    · rw [if_pos htype]
      exact Nat.zero_le _
    · rw [if_neg htype, reportCount_bind]
      exact reportCount_methodSignature a _ _
  | true =>
    rw [memberSignature_of_readsDefault hreads, reportCount_bind, reportCount_pure, Nat.add_zero]
    cases hdocuments : documentsMembers expand a with
    | false => exact reportCount_defaultType hdocuments _ _
    | true =>
      rw [defaultType_of_documentsMembers hdocuments]
      exact Nat.zero_le _

/-- A member whose type is made up of others is diagnosed with them. -/
theorem reportCount_memberSignature (inner : Noted Text) (a : Area) :
    reportCount f s (memberSignature expand inner a (memberName a.definition)) =
      reportCount f s (ownSignature expand a) +
        if a.readsDefault && documentsMembers expand a then reportCount f s inner else 0 := by
  rw [ownSignature]
  cases hreads : a.readsDefault with
  | false =>
    rw [memberSignature_of_not_readsDefault hreads, memberSignature_of_not_readsDefault hreads]
    rfl
  | true =>
    rw [memberSignature_of_readsDefault hreads, memberSignature_of_readsDefault hreads,
      reportCount_bind, reportCount_bind, reportCount_pure, reportCount_pure, Nat.add_zero,
      Nat.add_zero]
    cases hdocuments : documentsMembers expand a with
    | false =>
      rw [defaultType_of_not_documentsMembers hdocuments inner (return [])]
      rfl
    | true =>
      rw [defaultType_of_documentsMembers hdocuments, defaultType_of_documentsMembers hdocuments]
      exact (Nat.zero_add _).symm

/-! ### The reports of all members -/

/-- Whether the type of a member is made up of the members of its default. -/
def Area.showsMembers (expand : Bool) (a : Area) : Bool :=
  a.namesMember && (a.readsDefault && documentsMembers expand a)

/-- How often a fault is reported of a subject when a member is looked at for itself. -/
def ownCount (expand : Bool) (f : MemberFault) (s : Subject) (a : Area) : Nat :=
  if a.namesMember then reportCount f s (ownSignature expand a) else 0

/-- How often it is reported when the members of its default are declared for its type. -/
def againCount (expand : Bool) (f : MemberFault) (s : Subject) (a : Area) : Nat :=
  if a.showsMembers expand then reportCount f s (declareMembers expand (literalMembers a.literal))
  else 0

theorem reportCount_documentedType (literal : Text) :
    reportCount f s (documentedType expand literal) =
      reportCount f s (declareMembers expand (literalMembers literal)) := by
  rw [documentedType_eq, reportCount_bind, reportCount_bind, reportCount_debug, reportCount_pure,
    Nat.add_zero]

theorem reportCount_declareMember (inner : Noted Text) (a : Area) :
    reportCount f s (declareMember expand inner a) =
      if (memberName a.definition).isEmpty then 0
      else reportCount f s (memberSignature expand inner a (memberName a.definition)) := by
  rw [declareMember]
  split
  · next h =>
    have hcategory : "Class Member".toList ≠ f.category := by cases f <;> decide
    rw [h, reportCount_bind, reportCount_pure, reportCount_error hcategory]
    rfl
  · next h =>
    rw [if_neg (by simpa [List.isEmpty_iff] using h), reportCount_bind]
    rfl

/-- Every member is diagnosed for itself, and on top of that for the type that its members make up,
where it is made up of them. -/
theorem reportCount_declareMembersWith (as : List Area) (inner : Area → Noted Text) :
    reportCount f s (declareMembersWith expand as fun a _ => inner a) =
      (as.map fun a => ownCount expand f s a +
        if a.showsMembers expand then reportCount f s (inner a) else 0).sum := by
  have hstep (a : Area) :
      reportCount f s (if a.isMember then declareMember expand (inner a) a
        else return none : Noted (Option Declaration)) =
      ownCount expand f s a +
        if a.showsMembers expand then reportCount f s (inner a) else 0 := by
    rw [ownCount, Area.showsMembers, Area.namesMember]
    cases hmember : a.isMember with
    | false => rfl
    | true =>
      rw [if_pos rfl, reportCount_declareMember, reportCount_memberSignature]
      cases hname : (memberName a.definition).isEmpty with
      | true => rfl
      | false => simp only [Bool.not_false, Bool.true_and, Bool.false_eq_true, if_false, if_true]
  rw [declareMembersWith, reportCount_bind, reportCount_pure, Nat.add_zero, reportCount_mapM]
  simp only [hstep]
  exact congrArg List.sum
    (List.attach_map_val (f := fun a => ownCount expand f s a +
      if a.showsMembers expand then reportCount f s (inner a) else 0))

/-- Every member is diagnosed for itself, and on top of that the members of its default are
diagnosed for its type. -/
theorem reportCount_declareMembers (as : List Area) :
    reportCount f s (declareMembers expand as) =
      (as.map fun a => ownCount expand f s a + againCount expand f s a).sum := by
  rw [declareMembers_eq, reportCount_declareMembersWith]
  refine congrArg List.sum (List.map_congr_left fun a _ => congrArg _ ?_)
  rw [againCount]
  split_ifs with hshows
  · rw [Area.showsMembers, Bool.and_eq_true, Bool.and_eq_true] at hshows
    rw [innerType, if_pos hshows.2.2, reportCount_documentedType]
  · rfl

/-! ### Members with labels of their own -/

/-- The tag value and the name of each member. -/
def memberKeys (as : List Area) : List (Text × Text) :=
  (as.filter Area.namesMember).map fun a => (a.value, memberName a.definition)

theorem ownCount_le (a : Area) :
    ownCount expand f s a ≤
      if a.namesMember = true ∧ .label (memberLabel a) = s then 1 else 0 := by
  rw [ownCount]
  cases a.namesMember with
  | false => exact Nat.zero_le _
  | true => simpa using reportCount_ownSignature_le a

/-- Looked at for themselves, members are told about once for each member of the label at most. -/
theorem sum_ownCount_le (as : List Area) :
    (as.map (ownCount expand f s)).sum ≤
      ((as.filter Area.namesMember).map fun a => Subject.label (memberLabel a)).count s := by
  induction as with
  | nil => exact Nat.le_refl 0
  | cons a as ih =>
    have hown : ownCount expand f s a ≤
        if a.namesMember = true ∧ .label (memberLabel a) = s then 1 else 0 := ownCount_le a
    rw [List.map_cons, List.sum_cons, List.filter_cons]
    cases hname : a.namesMember with
    | false =>
      simp only [hname, Bool.false_eq_true, false_and, if_false] at hown ⊢
      omega
    | true =>
      simp only [hname, true_and, if_true, List.map_cons, List.count_cons, beq_iff_eq] at hown ⊢
      omega

/-- Where no two members share their tag value and their name, each is told about once. -/
theorem sum_ownCount_le_one (h : (memberKeys as).Nodup) (f : MemberFault) (s : Subject) :
    (as.map (ownCount expand f s)).sum ≤ 1 := by
  refine (sum_ownCount_le as).trans (List.nodup_iff_count_le_one.1 ?_ s)
  rw [memberKeys, List.Nodup, List.pairwise_map] at h
  rw [List.Nodup, List.pairwise_map]
  refine h.imp fun {a b} hne heq => hne ?_
  obtain ⟨hvalue, hname⟩ := eq_of_memberLabel_eq (Subject.label.inj heq)
  exact Prod.ext hvalue hname

/-! ### Nested defaults -/

/-- What is told of a member does not depend on where its block is. -/
theorem ownCount_of_sameBlock (h : a.SameBlock b) :
    ownCount expand f s a = ownCount expand f s b := by
  rw [← h]
  rfl

theorem literal_of_sameBlock (h : a.SameBlock b) : a.literal = b.literal := by
  rw [← h]

/-- One member apart from the others. -/
theorem reportCount_declareMembers_append_cons (front back : List Area) (a : Area) :
    reportCount f s (declareMembers expand (front ++ a :: back)) =
      ownCount expand f s a + againCount expand f s a +
        reportCount f s (declareMembers expand (front ++ back)) := by
  simp only [reportCount_declareMembers, List.map_append, List.map_cons, List.sum_append,
    List.sum_cons]
  omega

/-- The literal of a member is longer than those of the members in it. -/
theorem literal_ne_of_nested (ha : documentsMembers expand a = true)
    (h : ∃ d ∈ literalMembers a.literal, d.SameBlock b) : b.literal ≠ a.literal := by
  obtain ⟨d, hd, hdb⟩ := h
  have hliteral := literal_of_sameBlock hdb
  intro heq
  have hne : d.literal ≠ [] := by
    rw [hliteral, heq]
    exact literal_ne_nil_of_documentsMembers ha
  have hlt := length_literalMembers_lt hd hne
  rw [hliteral, heq] at hlt
  exact Nat.lt_irrefl _ hlt

/-- A member in nested documented defaults is diagnosed for itself and again for every default
around it, among the members of a text and among those of each default. -/
theorem two_pow_le_reportCount {outer : List Area} (hown : 0 < ownCount expand f s b)
    (hshows : ∀ a ∈ outer, a.showsMembers expand = true)
    (hnested : (outer ++ [b]).Pairwise fun a c => ∃ d ∈ literalMembers a.literal, d.SameBlock c)
    (hfound : ∀ a ∈ outer ++ [b], ∃ c ∈ as, c.SameBlock a) :
    2 ^ outer.length ≤ reportCount f s (declareMembers expand as) := by
  induction outer generalizing as with
  | nil =>
    obtain ⟨c, hc, hcb⟩ := hfound b List.mem_cons_self
    obtain ⟨front, back, rfl⟩ := List.append_of_mem hc
    rw [reportCount_declareMembers_append_cons, ownCount_of_sameBlock hcb, List.length_nil,
      Nat.pow_zero]
    omega
  | cons a outer ih =>
    obtain ⟨hshow, hshows⟩ := List.forall_mem_cons.1 hshows
    obtain ⟨hinside, hnested⟩ := List.pairwise_cons.1 hnested
    obtain ⟨⟨c, hc, hca⟩, hfound⟩ := List.forall_mem_cons.1 hfound
    have hliteral := literal_of_sameBlock hca
    have hshow' : c.showsMembers expand = true := by
      rw [← hca] at hshow
      exact hshow
    obtain ⟨front, back, rfl⟩ := List.append_of_mem hc
    rw [reportCount_declareMembers_append_cons, againCount, if_pos hshow', hliteral,
      List.length_cons, Nat.pow_succ]
    have hbeside : ∀ x ∈ outer ++ [b], ∃ d ∈ front ++ back, d.SameBlock x := by
      intro x hx
      obtain ⟨d, hd, hdx⟩ := hfound x hx
      have hdocuments : documentsMembers expand a = true := by
        rw [Area.showsMembers, Bool.and_eq_true, Bool.and_eq_true] at hshow
        exact hshow.2.2
      have hne : d ≠ c := by
        rintro rfl
        refine literal_ne_of_nested hdocuments (hinside x hx) ?_
        rw [← hliteral, literal_of_sameBlock hdx]
      simp only [List.mem_append, List.mem_cons, hne, false_or] at hd
      exact ⟨d, List.mem_append.2 hd, hdx⟩
    -- the inner members are found once beside this one and once in its default
    have := ih hshows hnested hbeside
    have := ih hshows hnested hinside
    omega

/-! ### Sources -/

/-- How often the members of a source are diagnosed. -/
structure DiagnosesMembers (expand : Bool) (source : Text) : Prop where
  /-- Every member is diagnosed for itself, and on top of that the members of its default are
  diagnosed if its type is made up of them. -/
  total : ∀ f s, reportCount f s (declareMembers expand (collect source).value.members) =
    ((collect source).value.members.map fun a =>
      ownCount expand f s a + againCount expand f s a).sum
  /-- Where no two members share their tag value and their name, no fault is told twice of members
  that are looked at for themselves. -/
  own_le_one : (memberKeys (collect source).value.members).Nodup → ∀ f s,
    ((collect source).value.members.map (ownCount expand f s)).sum ≤ 1
  /-- A fault of a member is then reported once exactly if no default is declared in which the
  member is told about again. -/
  once_iff : (memberKeys (collect source).value.members).Nodup → ∀ f,
    ∀ b ∈ (collect source).value.members, 0 < ownCount expand f (.label (memberLabel b)) b →
      (reportCount f (.label (memberLabel b))
          (declareMembers expand (collect source).value.members) = 1 ↔
        ∀ a ∈ (collect source).value.members,
          againCount expand f (.label (memberLabel b)) a = 0)
  /-- A fault of a member in nested documented defaults is reported twice as often with each of
  these. -/
  doubled : ∀ f, ∀ b ∈ (collect source).value.members, ∀ outer ⊆ (collect source).value.members,
    0 < ownCount expand f (.label (memberLabel b)) b →
      (∀ a ∈ outer, a.showsMembers expand = true) →
        ((outer ++ [b]).Pairwise fun a c => ∃ off, c.LiesIn source a.literal off) →
          2 ^ outer.length ≤ reportCount f (.label (memberLabel b))
            (declareMembers expand (collect source).value.members)

/-- The members of a source are diagnosed for themselves, and again for every default around
them. -/
theorem diagnosesMembers (expand : Bool) (source : Text) : DiagnosesMembers expand source where
  total f s := reportCount_declareMembers _
  own_le_one h f s := sum_ownCount_le_one h f s
  once_iff h f b hb hown := by
    have hle : ((collect source).value.members.map
        (ownCount expand f (.label (memberLabel b)))).sum ≤ 1 := sum_ownCount_le_one h f _
    have hpos : 0 < ((collect source).value.members.map
        (ownCount expand f (.label (memberLabel b)))).sum :=
      List.sum_pos_iff_exists_pos_nat.2 ⟨_, List.mem_map_of_mem hb, hown⟩
    have hagain : ((collect source).value.members.map
        (againCount expand f (.label (memberLabel b)))).sum = 0 ↔
        ∀ a ∈ (collect source).value.members,
          againCount expand f (.label (memberLabel b)) a = 0 := by
      rw [List.sum_eq_zero_iff_forall_eq_nat, List.forall_mem_map]
    rw [reportCount_declareMembers, List.sum_map_add, ← hagain]
    omega
  doubled f b hb outer houter hown hshows hnested := by
    have hall : ∀ a ∈ outer ++ [b], a ∈ (collect source).value.members :=
      List.forall_mem_append.2 ⟨houter, List.forall_mem_singleton.2 hb⟩
    refine two_pow_le_reportCount hown hshows ?_ fun a ha => ⟨a, hall a ha, rfl⟩
    refine hnested.imp_of_mem fun _ hc hlies => ?_
    obtain ⟨off, hlies⟩ := hlies
    exact exists_sameBlock_literalMembers (hall _ hc) hlies

/-- The parameters of a member in a documented default are told about twice, and in a default of
that default four times. -/
theorem not_once_of_documented_default :
    let source : Text :=
      "/**\n * @memberof A\n */\nA.opts = \x7b\n  /**\n   * @memberof A.opts\n" ++
        "   * @param \x7bnumber\x7d x\n   */\n  f: function (y) \x7b\x7d\n\x7d;\n"
    let nested : Text :=
      "/**\n * @memberof A\n */\nA.o = \x7b\n  /**\n   * @memberof A.o\n   */\n  p: \x7b\n" ++
        "    /**\n     * @memberof A.o.p\n     * @param \x7bnumber\x7d x\n     */\n" ++
        "    f: function (y) \x7b\x7d\n  \x7d\n\x7d;\n"
    let mismatch : Report :=
      ⟨.info, .label "A.opts#f", "Parameter Mismatch",
        "documented parameters (x) do not match the definition (y)"⟩
    (memberKeys (collect source).value.members).Nodup ∧
      (declareMembers true (collect source).value.members).reports = [mismatch, mismatch] ∧
      reportCount .parameters (.label "A.opts#f")
        (declareMembers true (collect source).value.members) = 2 ∧
      (memberKeys (collect nested).value.members).Nodup ∧
      reportCount .parameters (.label "A.o.p#f")
        (declareMembers true (collect nested).value.members) = 4 := by
  decide +kernel

end DocDecl

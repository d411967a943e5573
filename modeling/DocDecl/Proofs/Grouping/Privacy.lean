import DocDecl.Proofs.Grouping.Rendering

/-!
# Private members leave no trace

Where private declarations are not wanted, the containers that a list of members leads to are those
that its other members lead to: a private member is in no container, has no interface made up for
it, and lets no later member into one. All that it leaves behind is one report, and a promoted
static not even that, since it is passed over before.

The containers of both runs are equal after every member, so everything that is read off them is
equal as well: what is printed, in what order, with what reports, and with what fault.

## Main definitions

* `Declaration.isPrivate`, `withoutPrivate` : private declarations, and the others of a list.
* `privacyReport`, `Report.isMemberInfo` : the report on a private member, and reports like it.

## Main results

* `value_placeMembers_withoutPrivate` : private members do not change the containers.
* `reports_placeMembers_withoutPrivate`, `memberInfos_placeMembers` : the other reports, and those
  on private members.
* `intoClasses_withoutPrivate` : private members do not change what is printed.
-/

namespace DocDecl

/-- Whether the area of a declaration is marked as private. -/
def Declaration.isPrivate (d : Declaration) : Bool := (d.area.map Area.isPrivate).getD false

theorem isHidden_false (d : Declaration) : d.isHidden false = d.isPrivate := Bool.and_true _

/-- The declarations that are not private. -/
def withoutPrivate (ds : List Declaration) : List Declaration := ds.filter fun d => !d.isPrivate

/-- The report on a private member that is left out. -/
def privacyReport (m : Declaration) : Report :=
  ⟨.info, .ofArea? m.area, "Class Member",
    m.ownerPath ++ "." ++ m.name ++ " is private and will not be documented"⟩

/-- Whether a report tells something worth knowing about a member. -/
def Report.isMemberInfo (r : Report) : Bool := r.severity = .info && r.category = "Class Member"

/-! ### Placing one member -/

section Placing

variable {m : Declaration} (cs : List Container)

theorem placeMember_of_isPrivate (h : m.isPrivate = true) :
    placeMember false cs m =
      ⟨cs, if m.isPromotedStatic then [] else [.report (privacyReport m)]⟩ := by
  rw [placeMember, isHidden_false, h]
  cases m.isPromotedStatic <;> rfl

/-- A member that is not private is reported only where it is lost, and that is a mistake. -/
theorem isMemberInfo_of_mem_reports_placeMember (h : m.isPrivate = false) {r : Report}
    (hr : r ∈ (placeMember false cs m).reports) : r.isMemberInfo = false := by
  by_cases hp : m.isPromotedStatic = true
  · rw [placeMember, if_pos hp] at hr
    exact absurd hr List.not_mem_nil
  · rw [placeMember_kept (by simp [Declaration.isKept, isHidden_false, h, hp])] at hr
    cases ha : addToOwner m cs with
    | some cs' =>
      rw [ha] at hr
      exact absurd hr List.not_mem_nil
    | none =>
      simp only [ha] at hr
      split_ifs at hr with hn
      · exact absurd hr List.not_mem_nil
      · obtain rfl := List.mem_singleton.1 hr
        rfl

end Placing

/-! ### Placing all members -/

section Run

variable (cs : List Container) (m : Declaration) (ms : List Declaration)

theorem value_placeMembers_cons :
    (placeMembers false cs (m :: ms)).value =
      (placeMembers false (placeMember false cs m).value ms).value := by
  rw [placeMembers, List.foldlM_cons, Noted.value_bind, placeMembers]

theorem reports_placeMembers_cons :
    (placeMembers false cs (m :: ms)).reports =
      (placeMember false cs m).reports ++
        (placeMembers false (placeMember false cs m).value ms).reports := by
  rw [placeMembers, List.foldlM_cons, Noted.reports, Noted.entries_bind, reportsOf_append,
    Noted.reports, Noted.reports, placeMembers]

variable {m} in
theorem withoutPrivate_cons_of_isPrivate (h : m.isPrivate = true) :
    withoutPrivate (m :: ms) = withoutPrivate ms := List.filter_cons_of_neg (by simp [h])

variable {m} in
theorem withoutPrivate_cons_of_public (h : m.isPrivate = false) :
    withoutPrivate (m :: ms) = m :: withoutPrivate ms := List.filter_cons_of_pos (by simp [h])

/-- Private members do not change the containers. -/
theorem value_placeMembers_withoutPrivate :
    (placeMembers false cs ms).value = (placeMembers false cs (withoutPrivate ms)).value := by
  induction ms generalizing cs with
  | nil => rfl
  | cons m ms ih =>
    rw [value_placeMembers_cons]
    cases h : m.isPrivate with
    | true => rw [placeMember_of_isPrivate cs h, withoutPrivate_cons_of_isPrivate ms h, ih]
    | false => rw [withoutPrivate_cons_of_public ms h, value_placeMembers_cons, ih]

/-- Without the reports on private members, the reports are those of a run without these. -/
theorem reports_placeMembers_withoutPrivate :
    ((placeMembers false cs ms).reports.filter fun r => !r.isMemberInfo) =
      (placeMembers false cs (withoutPrivate ms)).reports := by
  induction ms generalizing cs with
  | nil => rfl
  | cons m ms ih =>
    rw [reports_placeMembers_cons, List.filter_append, ih]
    cases h : m.isPrivate with
    | true =>
      rw [placeMember_of_isPrivate cs h, withoutPrivate_cons_of_isPrivate ms h]
      cases m.isPromotedStatic <;> rfl
    | false =>
      rw [withoutPrivate_cons_of_public ms h, reports_placeMembers_cons, List.filter_eq_self.2]
      intro r hr
      rw [isMemberInfo_of_mem_reports_placeMember cs h hr, Bool.not_false]

/-- Each private member that is not promoted is reported once, in order. -/
theorem memberInfos_placeMembers :
    (placeMembers false cs ms).reports.filter Report.isMemberInfo =
      (ms.filter fun m => m.isPrivate && !m.isPromotedStatic).map privacyReport := by
  induction ms generalizing cs with
  | nil => rfl
  | cons m ms ih =>
    rw [reports_placeMembers_cons, List.filter_append, ih, List.filter_cons]
    cases h : m.isPrivate with
    | true =>
      rw [placeMember_of_isPrivate cs h]
      cases m.isPromotedStatic <;> rfl
    | false =>
      rw [List.filter_eq_nil_iff.2, List.nil_append, Bool.false_and, if_neg Bool.false_ne_true]
      intro r hr
      rw [isMemberInfo_of_mem_reports_placeMember cs h hr]
      exact Bool.false_ne_true

end Run

/-! ### Printing -/

section Printing

variable (classes members : List Declaration)

theorem reports_run_intoClasses {includePrivate : Bool} {cs : List Container}
    (h : (placeMembers includePrivate (classes.map fun d => ⟨d, []⟩) members).value = cs) :
    (intoClasses includePrivate classes members).run.reports =
      (placeMembers includePrivate (classes.map fun d => ⟨d, []⟩) members).reports ++
        (printContainers includePrivate cs).run.reports := by
  rw [intoClasses_eq, reports_run_bind, outcome_liftM, ← h]
  exact congrArg (· ++ _) (congrArg reportsOf (List.append_nil _))

theorem isMemberInfo_of_mem_reports_printContainers {includePrivate : Bool} {cs : List Container}
    {r : Report} (hr : r ∈ (printContainers includePrivate cs).run.reports) :
    r.isMemberInfo = false := by
  rw [Report.isMemberInfo, decide_eq_false (avoids_printContainers includePrivate cs r hr),
    Bool.and_false]

/-- Private members do not change what is printed, whether it is printed at all, or what else is
reported. Those that are not promoted have one report each. -/
theorem intoClasses_withoutPrivate :
    Work.outcome (intoClasses false classes members) =
        Work.outcome (intoClasses false classes (withoutPrivate members)) ∧
      ((intoClasses false classes members).run.reports.filter fun r => !r.isMemberInfo) =
        (intoClasses false classes (withoutPrivate members)).run.reports ∧
      (intoClasses false classes members).run.reports.filter Report.isMemberInfo =
        (members.filter fun m => m.isPrivate && !m.isPromotedStatic).map privacyReport := by
  have hcontainers := value_placeMembers_withoutPrivate (classes.map fun d => ⟨d, []⟩) members
  refine ⟨?_, ?_, ?_⟩
  · rw [intoClasses_eq, intoClasses_eq, outcome_bind, outcome_bind, outcome_liftM, outcome_liftM,
      hcontainers]
  · rw [reports_run_intoClasses classes members hcontainers,
      reports_run_intoClasses classes (withoutPrivate members) rfl, List.filter_append,
      reports_placeMembers_withoutPrivate]
    congr 1
    refine List.filter_eq_self.2 fun r hr => ?_
    rw [isMemberInfo_of_mem_reports_printContainers hr, Bool.not_false]
  · rw [reports_run_intoClasses classes members rfl, List.filter_append, memberInfos_placeMembers,
      List.append_right_eq_self, List.filter_eq_nil_iff]
    intro r hr
    rw [isMemberInfo_of_mem_reports_printContainers hr]
    exact Bool.false_ne_true

end Printing

end DocDecl

import DocDecl.Grouping.Namespaces
import DocDecl.Proofs.Grouping.Placement

/-!
# How the grouping is printed

Every container that has to be printed is printed with all its members, in their order, and the
containers keep theirs. A declaration without a head cannot be printed: where a container that has
to be printed has neither a head nor an override, the whole work stops with that fault.

Printing reports on classes only. All that is reported of members is what their fates say.

## Main definitions

* `Work.outcome`, `Noted.Avoids` : what comes of work, and what it does not report.
* `Declaration.isMember` : the roles of members.
* `Container.survives` : whether a container is printed.
* `Container.fragment`, `printContainers` : a container as it is printed, and those that are.
* `Fate.report?` : what is reported of a member.

## Main results

* `outcome_containerFragment` : a container is printed exactly if it survives.
* `outcome_printContainers` : the containers that survive are printed, if all of these can be.
* `outcome_intoClasses`, `reports_intoClasses` : the fragments, and the reports on members.
-/

namespace DocDecl

/-! ### Work -/

section Work

variable {α β : Type}

/-- What comes of work, apart from what it notes. -/
def Work.outcome (x : Work α) : Except Fault α := x.run.value

theorem outcome_bind (x : Work α) (f : α → Work β) :
    Work.outcome (x >>= f) = Work.outcome x >>= fun a => Work.outcome (f a) := by
  rw [Work.outcome, ExceptT.run_bind, Noted.value_bind, Work.outcome]
  cases x.run.value with
  | error e => rfl
  | ok a => rfl

theorem outcome_mapM (f : α → Work β) (as : List α) :
    Work.outcome (as.mapM f) = as.mapM fun a => Work.outcome (f a) := by
  induction as with
  | nil => rfl
  | cons a as ih =>
    rw [List.mapM_cons, List.mapM_cons, outcome_bind]
    refine congrArg _ (funext fun b => ?_)
    rw [outcome_bind, ih]
    rfl

/-- Where each element of a list is left out, is printed, or has nothing to be printed as, the list
is printed in order, unless one of its elements has nothing to be printed as. -/
theorem outcome_filterMap_mapM {f : α → Work (Option β)} {survives isHeadless : α → Bool}
    {print : α → β} {as : List α}
    (h : ∀ a ∈ as, Work.outcome (f a) =
      if survives a then if isHeadless a then .error .missingHead else .ok (some (print a))
      else .ok none) :
    Work.outcome (do return (← as.mapM f).filterMap id) =
      if as.any fun a => survives a && isHeadless a then .error .missingHead
      else .ok ((as.filter survives).map print) := by
  rw [outcome_bind, outcome_mapM]
  induction as with
  | nil => rfl
  | cons a as ih =>
    obtain ⟨ha, has⟩ := List.forall_mem_cons.1 h
    have ih := ih has
    rw [List.mapM_cons, ha, List.any_cons, List.filter_cons]
    generalize (as.mapM fun a => Work.outcome (f a)) = x at ih ⊢
    cases hs : survives a with
    | false =>
      simp only [Bool.false_eq_true, if_false, Bool.false_and, Bool.false_or, ← ih]
      cases x <;> rfl
    | true =>
      cases hh : isHeadless a with
      | true => rfl
      | false =>
        have hcons {P : Prop} [Decidable P] {bs : List β} :
            (if P then .error .missingHead else .ok (print a :: bs) : Except Fault _) =
              (if P then .error .missingHead else .ok bs : Except Fault _).map
                (print a :: ·) := by
          split_ifs <;> rfl
        simp only [if_true, Bool.false_eq_true, if_false, Bool.and_false, Bool.false_or,
          List.map_cons, hcons, ← ih]
        cases x <;> rfl

theorem reports_run_bind (x : Work α) (f : α → Work β) :
    (x >>= f).run.reports =
      x.run.reports ++
        match Work.outcome x with
        | .ok a => (f a).run.reports
        | .error _ => [] := by
  rw [Noted.reports, ExceptT.run_bind, Noted.entries_bind, reportsOf_append, Work.outcome]
  refine congrArg (x.run.reports ++ ·) ?_
  cases x.run.value with
  | ok a => rfl
  | error e => rfl

/-- Where an element stops the work without a report, the reports are those of the elements before
the first of these. -/
theorem reports_run_mapM {f : α → Work β} {stops : α → Bool}
    (hgo : ∀ a, stops a = false → ∃ b, Work.outcome (f a) = .ok b)
    (hstop : ∀ a, stops a = true →
      (f a).run.reports = [] ∧ ∃ e, Work.outcome (f a) = .error e) (as : List α) :
    (as.mapM f).run.reports =
      (as.takeWhile fun a => !stops a).flatMap fun a => (f a).run.reports := by
  induction as with
  | nil => rfl
  | cons a as ih =>
    rw [List.mapM_cons, reports_run_bind]
    cases hs : stops a with
    | true =>
      obtain ⟨hreports, e, he⟩ := hstop a hs
      rw [hreports, he, List.takeWhile_cons_of_neg (by simp [hs])]
      rfl
    | false =>
      obtain ⟨b, hb⟩ := hgo a hs
      rw [hb, List.takeWhile_cons_of_pos (by simp [hs]), List.flatMap_cons, ← ih]
      refine congrArg ((f a).run.reports ++ ·) ?_
      refine (reports_run_bind _ _).trans ?_
      cases Work.outcome (as.mapM f) with
      | ok bs => exact List.append_nil _
      | error e => exact List.append_nil _

/-- No report is in a category. -/
def Noted.Avoids (category : Text) (x : Noted α) : Prop :=
  ∀ r ∈ x.reports, r.category ≠ category

variable {category : Text}

theorem avoids_pure (a : α) : (pure a : Noted α).Avoids category := by
  simp [Noted.Avoids, Noted.reports, reportsOf]

theorem avoids_bind {x : Noted α} {f : α → Noted β} (hx : x.Avoids category)
    (hf : ∀ a, (f a).Avoids category) : (x >>= f).Avoids category := by
  intro r hr
  rw [Noted.reports, Noted.entries_bind, reportsOf_append] at hr
  rcases List.mem_append.1 hr with hr | hr
  · exact hx r hr
  · exact hf _ r hr

theorem avoids_note {r : Report} (h : r.category ≠ category) :
    (Noted.note (.report r)).Avoids category := by
  intro r' hr'
  obtain rfl : r' = r := by simpa [Noted.reports, Noted.note, reportsOf, Entry.report?] using hr'
  exact h

theorem avoids_run_bind {x : Work α} {f : α → Work β} (hx : x.run.Avoids category)
    (hf : ∀ a, (f a).run.Avoids category) : (x >>= f).run.Avoids category := by
  rw [ExceptT.run_bind]
  refine avoids_bind hx fun a => ?_
  cases a with
  | error e => exact avoids_pure _
  | ok a => exact hf a

theorem avoids_run_mapM {f : α → Work β} (hf : ∀ a, (f a).run.Avoids category) (as : List α) :
    (as.mapM f).run.Avoids category := by
  induction as with
  | nil => exact avoids_pure _
  | cons a as ih =>
    rw [List.mapM_cons]
    exact avoids_run_bind (hf a) fun b => avoids_run_bind ih fun bs => avoids_pure _

end Work

/-! ### Printing one container -/

/-- Whether a declaration has a role that members have. -/
def Declaration.isMember (m : Declaration) : Bool :=
  m.role = some .constructor || m.role = some .method || m.role = some .field

/-- A member as it is printed in the body of its container. -/
def memberText (m : Declaration) : Text :=
  commentLines m.comment ++ if m.override ≠ [] then m.override else Text.unlines m.heads

namespace Container

/-- Whether a container is printed. A function is; a class is unless it is private and private ones
are not wanted, or it has neither members nor an override. -/
def survives (includePrivate : Bool) (c : Container) : Bool :=
  c.declaration.role = some .function ||
    (!c.declaration.isHidden includePrivate &&
      (!c.members.isEmpty || decide (c.declaration.override ≠ [])))

/-- A container as it is printed below a head. -/
def fragmentWith (c : Container) (head : Text) : Fragment :=
  ⟨c.declaration.area,
    if c.members.isEmpty then layoutDeclaration c.declaration.comment head
    else layoutContainer c.declaration.comment head (c.members.map memberText),
    c.declaration.path⟩

theorem code_fragmentWith_of_isEmpty {c : Container} (h : c.members.isEmpty = true) (head : Text) :
    (c.fragmentWith head).code = layoutDeclaration c.declaration.comment head := if_pos h

theorem code_fragmentWith_of_members {c : Container} (h : c.members.isEmpty = false)
    (head : Text) :
    (c.fragmentWith head).code =
      layoutContainer c.declaration.comment head (c.members.map memberText) :=
  if_neg (Bool.eq_false_iff.1 h)

/-- What a container has to be for printing: members have the roles of members, and functions have
none. -/
structure IsSound (c : Container) : Prop where
  isMember : ∀ m ∈ c.members, m.isMember = true
  function : c.declaration.role = some .function → c.members = []

end Container

theorem outcome_renderMember {m : Declaration} (h : m.isMember = true) :
    Work.outcome (renderMember m : Work Text) = .ok (memberText m) := by
  have hrole : m.role = some .constructor ∨ m.role = some .method ∨ m.role = some .field := by
    simpa [Declaration.isMember, or_assoc] using h
  rw [renderMember, if_pos hrole]
  rfl

theorem outcome_mapM_renderMember {ms : List Declaration} (h : ∀ m ∈ ms, m.isMember = true) :
    Work.outcome (ms.mapM fun m => (renderMember m : Work Text)) = .ok (ms.map memberText) := by
  rw [outcome_mapM]
  induction ms with
  | nil => rfl
  | cons m ms ih =>
    obtain ⟨hm, hms⟩ := List.forall_mem_cons.1 h
    rw [List.mapM_cons, ih hms, outcome_renderMember hm]
    rfl

theorem value_classIsShown (includePrivate : Bool) (d : Declaration) :
    (classIsShown includePrivate d).value = !d.isHidden includePrivate := by
  rw [classIsShown, Declaration.isHidden]
  cases d.area with
  | none => rfl
  | some a =>
    cases hp : a.isPrivate with
    | true => cases includePrivate <;> simp [hp]
    | false => simp [hp]

theorem outcome_liftM {α : Type} (x : Noted α) :
    Work.outcome (liftM x : Work α) = .ok x.value := rfl

theorem outcome_liftM_except {α : Type} (x : Except Fault α) :
    Work.outcome (liftM x : Work α) = x := by
  cases x <;> rfl

theorem override_ne_nil_head {d : Declaration} (h : d.override ≠ []) : d.head = .ok d.override :=
  if_pos h

theorem outcome_renderClass {includePrivate : Bool} {c : Container}
    (hc : ∀ m ∈ c.members, m.isMember = true) (hrole : c.declaration.role ≠ some .function) :
    Work.outcome (renderClass includePrivate c) =
      if c.survives includePrivate then
        c.declaration.head.map fun h => some (c.fragmentWith h).code
      else .ok none := by
  rw [renderClass, outcome_bind, outcome_liftM, value_classIsShown]
  simp only [Container.survives, hrole, decide_false, Bool.false_or]
  cases hh : c.declaration.isHidden includePrivate with
  | true => rfl
  | false =>
    cases hm : c.members.isEmpty with
    | false =>
      simp only [Container.code_fragmentWith_of_members hm]
      change Work.outcome (do
        let head ← c.declaration.head
        let members ← c.members.mapM fun m => (renderMember m : Work Text)
        return some (layoutContainer c.declaration.comment head members)) = _
      rw [outcome_bind, outcome_liftM_except]
      cases c.declaration.head with
      | error e => rfl
      | ok h =>
        refine (outcome_bind _ _).trans ?_
        rw [outcome_mapM_renderMember hc]
        rfl
    | true =>
      by_cases ho : c.declaration.override ≠ []
      · have hcode := Container.code_fragmentWith_of_isEmpty hm c.declaration.override
        rw [override_ne_nil_head ho, decide_eq_true ho]
        change Work.outcome (if c.declaration.override ≠ [] then
          pure (some (layoutDeclaration c.declaration.comment c.declaration.override))
          else _) = .ok (some (c.fragmentWith c.declaration.override).code)
        rw [if_pos ho, hcode]
        rfl
      · simp only [ho]
        rfl

/-- A container is printed exactly if it survives, and then needs a head. -/
theorem outcome_containerFragment {includePrivate : Bool} {c : Container} (hc : c.IsSound) :
    Work.outcome (containerFragment includePrivate c) =
      if c.survives includePrivate then
        c.declaration.head.map fun h => some (c.fragmentWith h)
      else .ok none := by
  rw [containerFragment, outcome_bind]
  by_cases hrole : c.declaration.role = some .function
  · have hs : c.survives includePrivate = true := by simp [Container.survives, hrole]
    have hcode := Container.code_fragmentWith_of_isEmpty (c := c) (by rw [hc.function hrole]; rfl)
    rw [if_pos hs, renderContainer, if_pos hrole, outcome_bind, outcome_liftM_except]
    cases c.declaration.head with
    | error e => rfl
    | ok h => exact congrArg (fun t => Except.ok (some (⟨_, t, _⟩ : Fragment))) (hcode h).symm
  · rw [renderContainer, if_neg hrole, outcome_renderClass hc.isMember hrole]
    split
    · cases c.declaration.head <;> rfl
    · rfl

/-! ### Printing all containers -/

/-- Whether a declaration has nothing to be printed as. -/
def Declaration.isHeadless (d : Declaration) : Bool := d.override.isEmpty && d.heads.isEmpty

/-- The line that declares a declaration, where it has one. -/
def Declaration.headText (d : Declaration) : Text :=
  if d.override ≠ [] then d.override else d.heads.headD []

theorem head_eq (d : Declaration) :
    d.head = if d.isHeadless then .error .missingHead else .ok d.headText := by
  rw [Declaration.head, Declaration.isHeadless, Declaration.headText]
  by_cases ho : d.override = []
  · cases hh : d.heads <;> simp [ho]
  · simp [ho]

/-- A container as it is printed. -/
def Container.fragment (c : Container) : Fragment := c.fragmentWith c.declaration.headText

/-- The fragments of the containers that are printed. -/
def printContainers (includePrivate : Bool) (cs : List Container) : Work (List Fragment) := do
  return (← cs.mapM (containerFragment includePrivate)).filterMap id

/-- What comes of printing is the list of the containers that survive, unless one of these has
nothing to be printed as. -/
theorem outcome_printContainers {includePrivate : Bool} {cs : List Container}
    (hcs : ∀ c ∈ cs, c.IsSound) :
    Work.outcome (printContainers includePrivate cs) =
      if cs.any fun c => c.survives includePrivate && c.declaration.isHeadless then
        .error .missingHead
      else .ok ((cs.filter (·.survives includePrivate)).map Container.fragment) := by
  refine outcome_filterMap_mapM fun c hc => ?_
  rw [outcome_containerFragment (hcs c hc), head_eq]
  split_ifs <;> rfl

section Reports

variable {category : Text}

theorem avoids_liftM {α : Type} {x : Noted α} (h : x.Avoids category) :
    (liftM x : Work α).run.Avoids category := by
  have hentries : (liftM x : Work α).run.entries = x.entries := List.append_nil x.entries
  rw [Noted.Avoids, Noted.reports, hentries]
  exact h

theorem avoids_liftM_except {α : Type} (x : Except Fault α) :
    (liftM x : Work α).run.Avoids category := by
  cases x <;> exact avoids_pure _

/-- The category of reports on classes is not that of reports on members. -/
theorem class_ne_classMember : ("Class" : Text) ≠ "Class Member" := by decide

theorem avoids_classIsShown (includePrivate : Bool) (d : Declaration) :
    (classIsShown includePrivate d).Avoids "Class Member" := by
  rw [classIsShown]
  split
  · exact avoids_pure _
  · refine avoids_bind ?_ fun _ => ?_
    · rw [tagsAgree]
      split
      · exact avoids_pure _
      · have hne : ("Mutually Exclusive Tags" : Text) ≠ "Class Member" := by decide
        exact avoids_bind (avoids_note hne) fun _ => avoids_pure _
    · split_ifs
      · exact avoids_pure _
      · exact avoids_bind (avoids_note class_ne_classMember) fun _ => avoids_pure _
      · exact avoids_bind (avoids_note class_ne_classMember) fun _ => avoids_pure _

theorem avoids_containerFragment (includePrivate : Bool) (c : Container) :
    (containerFragment includePrivate c).run.Avoids "Class Member" := by
  refine avoids_run_bind ?_ fun _ => avoids_pure _
  rw [renderContainer]
  split_ifs
  · exact avoids_run_bind (avoids_liftM_except _) fun _ => avoids_pure _
  · rw [renderClass]
    refine avoids_run_bind (avoids_liftM (avoids_classIsShown _ _)) fun _ => ?_
    split_ifs
    · exact avoids_pure _
    · refine avoids_run_bind (avoids_liftM_except _) fun _ => ?_
      refine avoids_run_bind (avoids_run_mapM (fun _ => avoids_liftM_except _) _) fun _ => ?_
      exact avoids_pure _
    · exact avoids_pure _
    · refine avoids_run_bind (avoids_liftM (avoids_note class_ne_classMember)) fun _ => ?_
      exact avoids_pure _

theorem avoids_printContainers (includePrivate : Bool) (cs : List Container) :
    (printContainers includePrivate cs).run.Avoids "Class Member" :=
  avoids_run_bind (avoids_run_mapM (avoids_containerFragment includePrivate) cs) fun _ =>
    avoids_pure _

end Reports

/-! ### Members of the containers -/

section Members

variable {includePrivate : Bool} {classes members : List Declaration}

theorem fate_of_mem_fates {m : Declaration} {f : Fate}
    (h : (m, f) ∈ fates includePrivate classes members) :
    m ∈ members ∧ ∃ earlier, fateAfter includePrivate classes earlier m = f := by
  obtain ⟨k, hk, heq⟩ := List.mem_mapIdx.1 h
  obtain ⟨rfl, rfl⟩ := Prod.mk.inj heq
  exact ⟨List.getElem_mem hk, _, rfl⟩

theorem isMember_asMemberOf (d m : Declaration) : (d.asMemberOf m).isMember = m.isMember := by
  rw [Declaration.asMemberOf]
  split <;> rfl

theorem isSound_of_mem_containersOf (h : ∀ m ∈ members, m.isMember = true) {c : Container}
    (hc : c ∈ containersOf classes (fates includePrivate classes members)) : c.IsSound := by
  have hmember {d : Declaration} {p : Declaration × Fate → Bool} :
      ∀ m ∈ ((fates includePrivate classes members).filter p).map fun f => d.asMemberOf f.1,
        m.isMember = true := by
    intro m hm
    obtain ⟨⟨m', f⟩, hf, rfl⟩ := List.mem_map.1 hm
    rw [isMember_asMemberOf]
    exact h m' (fate_of_mem_fates (List.mem_filter.1 hf).1).1
  rcases List.mem_append.1 hc with hc | hc
  · obtain ⟨i, hi, rfl⟩ := List.mem_mapIdx.1 hc
    refine ⟨hmember, fun hrole => ?_⟩
    rw [List.map_eq_nil_iff, List.filter_eq_nil_iff]
    rintro ⟨m, f⟩ hf hi'
    obtain rfl : f = .owned i := of_decide_eq_true hi'
    obtain ⟨-, earlier, hfate⟩ := fate_of_mem_fates hf
    obtain ⟨d, hd, howns⟩ := (lastOwner?_eq_some_iff.1 (fateAfter_eq_iff.1 hfate).2).1
    obtain rfl := Option.some.inj ((List.getElem?_eq_getElem hi).symm.trans hd)
    simp [Declaration.ownsPath, show (classes[i]).role = some .function from hrole] at howns
  · obtain ⟨g, -, rfl⟩ := List.mem_map.1 hc
    exact ⟨hmember, fun hrole => absurd hrole (by simp [madeUpContainer, madeUpInterface])⟩

/-! ### Printing a grouping -/

/-- What is reported of a member. -/
def Fate.report? (m : Declaration) : Fate → Option Report
  | hidden =>
    some ⟨.info, .ofArea? m.area, "Class Member",
      m.ownerPath ++ "." ++ m.name ++ " is private and will not be documented"⟩
  | lost =>
    some ⟨.error, .ofArea? m.area, "Class Member",
      "name " ++ m.name ++ " @memberof parameter has undefined object path of \"" ++
        m.ownerPath ++ "\""⟩
  | _ => none

theorem reportsOf_entries (fs : List (Declaration × Fate)) :
    (reportsOf (fs.flatMap fun f => f.2.entries f.1)).filter
        (fun r => r.category = ("Class Member" : Text)) =
      fs.filterMap fun f => f.2.report? f.1 := by
  induction fs with
  | nil => rfl
  | cons f fs ih =>
    obtain ⟨m, f⟩ := f
    rw [List.flatMap_cons, reportsOf_append, List.filter_append, ih, List.filterMap_cons]
    cases f <;> rfl

theorem intoClasses_eq :
    intoClasses includePrivate classes members =
      (do
        printContainers includePrivate
          (← placeMembers includePrivate (classes.map fun d => ⟨d, []⟩) members)) := rfl

/-- The reports on members are those that their fates give, in their order. -/
theorem reports_intoClasses :
    (intoClasses includePrivate classes members).run.reports.filter
        (fun r => r.category = ("Class Member" : Text)) =
      (fates includePrivate classes members).filterMap fun f => f.2.report? f.1 := by
  have hreports : (intoClasses includePrivate classes members).run.reports =
      reportsOf ((fates includePrivate classes members).flatMap fun f => f.2.entries f.1) ++
        (printContainers includePrivate
          (containersOf classes (fates includePrivate classes members))).run.reports := by
    rw [intoClasses_eq, placeMembers_eq, Noted.reports, ExceptT.run_bind, Noted.entries_bind,
      reportsOf_append]
    congr 1
    exact congrArg reportsOf (List.append_nil _)
  rw [hreports, List.filter_append, reportsOf_entries, List.append_right_eq_self,
    List.filter_eq_nil_iff]
  intro r hr hcategory
  exact avoids_printContainers includePrivate _ r hr (of_decide_eq_true hcategory)

/-- What comes of the work is what comes of printing the containers. -/
theorem outcome_intoClasses (h : ∀ m ∈ members, m.isMember = true) :
    Work.outcome (intoClasses includePrivate classes members) =
      let cs := containersOf classes (fates includePrivate classes members)
      if cs.any fun c => c.survives includePrivate && c.declaration.isHeadless then
        .error .missingHead
      else .ok ((cs.filter (·.survives includePrivate)).map Container.fragment) := by
  rw [intoClasses_eq, outcome_bind, outcome_liftM, placeMembers_eq]
  exact outcome_printContainers fun c hc => isSound_of_mem_containersOf h hc

end Members

end DocDecl

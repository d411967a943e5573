import DocDecl.Generation.Session
import DocDecl.Proofs.Generation.Totality
import DocDecl.Proofs.Report.Summary
import Mathlib.Data.List.DropRight

/-!
# The requests of a session do not disturb each other

A session keeps the reports of its requests one behind the other until they are handed out or
forgotten. A generation does not look at them: it answers what it answers on its own, and adds the
reports that it makes on its own. So no report is lost or told twice, the exit status tells of the
errors since the reports were cleared last, and the summary tells of the reports that are there.

## Main definitions

* `Request.recorded`, `Request.clears` : what a request adds, and whether it takes the reports away.
* `recordedSince` : what was recorded since the reports were cleared last.
* `released` : the reports that were handed out or forgotten.
* `IsSeparate`, `FailsAlone` : what a session that goes through does, and one that fails.

## Main results

* `collected_of_perform` : the reports after one request.
* `released_append_collectedAfter` : no report is lost or told twice.
* `collectedAfter_eq` : the reports are those recorded since they were cleared last.
* `isSeparate_perform` : a generation answers as it does on its own, whatever came before.
-/

namespace DocDecl

namespace Session

/-! ### One request -/

/-- What a request records. For a generation these are the reports that it makes on its own. -/
def Request.recorded (s : Settings) : Request → List Report
  | generate source => (DocDecl.generate s 0 source).reports
  | report r => [r]
  | _ => []

/-- Whether a request takes all reports away. -/
def Request.clears : Request → Bool
  | reset => true
  | drain => true
  | _ => false

section Request

variable {s : Settings} {earlier : List Report} {r : Request} {o : Outcome} {source : Text}

theorem perform_generate_eq (s : Settings) (earlier : List Report) (source : Text) :
    (Request.generate source).perform s earlier =
      ((generateRaw s source).value.map fun output => s.finish output source).map fun output =>
        ⟨.output output, recordsOf (DocDecl.generate s earlier.length source).entries,
          earlier ++ (generateRaw s source).reports⟩ := by
  rw [Request.perform, value_generate, reports_generate]

/-- A request clears the reports, or adds the reports that it records. -/
theorem collected_of_perform (h : r.perform s earlier = .ok o) :
    o.collected = if r.clears then [] else earlier ++ r.recorded s := by
  cases r with
  | generate source =>
    rw [reports_perform_generate h, Request.recorded, reports_generate]
    rfl
  | report _ | reset | drain =>
    cases h
    rfl
  | reports | summarize _ | conclude _ =>
    cases h
    exact (List.append_nil _).symm

/-- A generation answers and adds what it does without earlier reports. -/
theorem exists_fresh_of_perform (h : (Request.generate source).perform s earlier = .ok o) :
    ∃ fresh, (Request.generate source).perform s [] = .ok fresh ∧ o.reply = fresh.reply ∧
      o.collected = earlier ++ fresh.collected := by
  rw [perform_generate_eq] at h ⊢
  cases hraw : (generateRaw s source).value with
  | error f => simp [hraw, Except.map] at h
  | ok output =>
    rw [hraw] at h
    cases h
    exact ⟨_, rfl, rfl, rfl⟩

/-- A generation fails with the fault that it fails with on its own, and all others succeed. -/
theorem perform_eq_error {f : GenerationFault} (h : r.perform s earlier = .error f) :
    ∃ source, r = .generate source ∧ (Request.generate source).perform s [] = .error f ∧
      (DocDecl.generate s earlier.length source).reports = [] := by
  cases r with
  | generate source =>
    refine ⟨source, rfl, ?_⟩
    rw [perform_generate_eq] at h ⊢
    rw [reports_generate]
    cases hprepare : s.prepare source with
    | error g =>
      have hraw : generateRaw s source = ⟨.error (.rule g), []⟩ := by
        rw [generateRaw, hprepare]
        rfl
      rw [hraw] at h ⊢
      cases h
      exact ⟨rfl, rfl⟩
    | ok prepared =>
      -- only the rules can fail
      obtain ⟨output, houtput⟩ := exists_value_generate_iff.2 ⟨prepared, hprepare⟩
      rw [value_generate s earlier.length] at houtput
      rw [houtput] at h
      cases h
  | report _ | reset | drain | reports | summarize _ | conclude _ => cases h

end Request

/-! ### Several requests -/

/-- The reports that are there after some outcomes. -/
def collectedAfter (earlier : List Report) (os : List Outcome) : List Report :=
  (os.getLast?.map Outcome.collected).getD earlier

section Requests

variable {s : Settings} {earlier : List Report} {r : Request} {rs rs' : List Request} {o : Outcome}
  {os : List Outcome}

theorem collectedAfter_cons (earlier : List Report) (o : Outcome) (os : List Outcome) :
    collectedAfter earlier (o :: os) = collectedAfter o.collected os := by
  rw [collectedAfter, collectedAfter, List.getLast?_cons]
  cases os.getLast? <;> rfl

theorem collectedAfter_concat (earlier : List Report) (o : Outcome) (os : List Outcome) :
    collectedAfter earlier (os ++ [o]) = o.collected := by
  rw [collectedAfter, List.getLast?_concat]
  rfl

theorem perform_cons_of_ok (h : r.perform s earlier = .ok o) :
    perform s earlier (r :: rs) = (perform s o.collected rs).map (o :: ·) := by
  rw [perform, h]
  rfl

theorem perform_cons_of_error {f : GenerationFault} (h : r.perform s earlier = .error f) :
    perform s earlier (r :: rs) = .error f := by
  rw [perform, h]
  rfl

theorem perform_cons_eq_ok (h : perform s earlier (r :: rs) = .ok os) :
    ∃ o os', r.perform s earlier = .ok o ∧ perform s o.collected rs = .ok os' ∧ os = o :: os' := by
  cases hr : r.perform s earlier with
  | error f => simp [perform_cons_of_error hr] at h
  | ok o =>
    rw [perform_cons_of_ok hr] at h
    cases hrs : perform s o.collected rs with
    | error f => simp [hrs, Except.map] at h
    | ok os' =>
      rw [hrs] at h
      cases h
      exact ⟨o, os', rfl, hrs, rfl⟩

theorem length_of_perform (h : perform s earlier rs = .ok os) : os.length = rs.length := by
  induction rs generalizing earlier os with
  | nil =>
    cases h
    rfl
  | cons r rs ih =>
    obtain ⟨o, os', -, hrs, rfl⟩ := perform_cons_eq_ok h
    rw [List.length_cons, List.length_cons, ih hrs]

/-- A session is under way what it would be if it ended there. -/
theorem perform_take (h : perform s earlier rs = .ok os) (n : Nat) :
    perform s earlier (rs.take n) = .ok (os.take n) := by
  induction rs generalizing earlier os n with
  | nil =>
    cases h
    rw [List.take_nil, List.take_nil]
    rfl
  | cons r rs ih =>
    obtain ⟨o, os', hr, hrs, rfl⟩ := perform_cons_eq_ok h
    cases n with
    | zero => rfl
    | succ n =>
      rw [List.take_succ_cons, List.take_succ_cons, perform_cons_of_ok hr, ih hrs]
      rfl

/-- Each request is performed on the reports that the ones before it leave. -/
theorem perform_getElem? (h : perform s earlier rs = .ok os) {n : Nat} (hr : rs[n]? = some r)
    (ho : os[n]? = some o) : r.perform s (collectedAfter earlier (os.take n)) = .ok o := by
  induction rs generalizing earlier os n with
  | nil => simp at hr
  | cons r' rs ih =>
    obtain ⟨o', os', hr', hrs, rfl⟩ := perform_cons_eq_ok h
    cases n with
    | zero =>
      cases hr
      cases ho
      exact hr'
    | succ n =>
      rw [List.take_succ_cons, collectedAfter_cons]
      exact ih hrs hr ho

theorem collectedAfter_take (earlier : List Report) {n : Nat} (ho : os[n]? = some o) :
    collectedAfter earlier (os.take (n + 1)) = o.collected := by
  rw [List.take_add_one, ho]
  exact collectedAfter_concat _ _ _

end Requests

/-! ### Conservation -/

/-- The reports that a request hands out or forgets, where there were `earlier` ones. -/
def releasedBy (earlier : List Report) : Request → Reply → List Report
  | .drain, .handedOut rs => rs
  | .reset, _ => earlier
  | _, _ => []

/-- The reports that were handed out or forgotten, one request after the other. -/
def released (earlier : List Report) : List (Request × Outcome) → List Report
  | [] => []
  | (r, o) :: steps => releasedBy earlier r o.reply ++ released o.collected steps

/-- What was recorded since the reports were cleared last, behind the earlier reports if they never
were. -/
def recordedSince (s : Settings) (earlier : List Report) (rs : List Request) : List Report :=
  (if rs.any Request.clears then [] else earlier) ++
    (rs.rtakeWhile fun r => !r.clears).flatMap (Request.recorded s)

section Conservation

variable {s : Settings} {earlier : List Report} {r : Request} {rs : List Request} {o : Outcome}
  {os : List Outcome}

/-- What one request releases and what it leaves is what was there and what it records. -/
theorem releasedBy_append_collected (h : r.perform s earlier = .ok o) :
    releasedBy earlier r o.reply ++ o.collected = earlier ++ r.recorded s := by
  have hcollected := collected_of_perform h
  cases r with
  | reset | drain =>
    cases h
    rfl
  | generate _ | report _ | reports | summarize _ | conclude _ => exact hcollected

/-- What was released and what is left is all that was recorded, in order. -/
theorem released_append_collectedAfter (h : perform s earlier rs = .ok os) :
    released earlier (rs.zip os) ++ collectedAfter earlier os =
      earlier ++ rs.flatMap (Request.recorded s) := by
  induction rs generalizing earlier os with
  | nil =>
    cases h
    exact (List.append_nil _).symm
  | cons r rs ih =>
    obtain ⟨o, os', hr, hrs, rfl⟩ := perform_cons_eq_ok h
    rw [List.zip_cons_cons, released, collectedAfter_cons, List.append_assoc, ih hrs,
      ← List.append_assoc, releasedBy_append_collected hr, List.append_assoc, List.flatMap_cons]

theorem recordedSince_concat (s : Settings) (earlier : List Report) (rs : List Request)
    (r : Request) :
    recordedSince s earlier (rs ++ [r]) =
      if r.clears then [] else recordedSince s earlier rs ++ r.recorded s := by
  rw [recordedSince, recordedSince, List.rtakeWhile_concat, List.any_append, List.any_cons,
    List.any_nil, Bool.or_false]
  cases hr : r.clears with
  | true => simp
  | false => simp [List.flatMap_append]

/-- The reports that are there are those recorded since they were cleared last. -/
theorem collectedAfter_eq (h : perform s earlier rs = .ok os) :
    collectedAfter earlier os = recordedSince s earlier rs := by
  induction rs using List.reverseRecOn generalizing os with
  | nil =>
    cases h
    exact (List.append_nil _).symm
  | append_singleton rs r ih =>
    have hlength := length_of_perform h
    have hbefore := perform_take h rs.length
    rw [List.take_left] at hbefore
    rw [List.length_append, List.length_singleton] at hlength
    obtain ⟨o, ho⟩ : ∃ o, os[rs.length]? = some o :=
      ⟨_, List.getElem?_eq_getElem (by omega)⟩
    have hr : (rs ++ [r])[rs.length]? = some r := by
      rw [List.getElem?_append_right (Nat.le_refl _), Nat.sub_self]
      rfl
    have hlast := collectedAfter_take earlier ho
    rw [List.take_of_length_le (Nat.le_of_eq hlength)] at hlast
    rw [hlast, collected_of_perform (perform_getElem? h hr ho), ih hbefore, recordedSince_concat]

end Conservation

/-! ### Sessions -/

/-- What a session that goes through does. -/
structure IsSeparate (s : Settings) (earlier : List Report) (rs : List Request)
    (os : List Outcome) : Prop where
  /-- Every request has its outcome. -/
  length_eq : os.length = rs.length
  /-- A generation answers as it does on its own, and adds the reports of its own. -/
  generation : ∀ n source o, rs[n]? = some (.generate source) → os[n]? = some o →
    ∃ fresh, perform s [] [.generate source] = .ok [fresh] ∧ o.reply = fresh.reply ∧
      fresh.collected = (Request.generate source).recorded s ∧
      o.collected = collectedAfter earlier (os.take n) ++ fresh.collected
  /-- The reports that were handed out or forgotten and those that are left are all that were
  recorded, in order. -/
  conserved : released earlier (rs.zip os) ++ collectedAfter earlier os =
    earlier ++ rs.flatMap (Request.recorded s)
  /-- The exit status tells whether there was an error since the reports were cleared last. -/
  exitStatus_eq_one_iff : ∀ n o, os[n]? = some o → (exitStatus o.collected = 1 ↔
    ∃ r ∈ recordedSince s earlier (rs.take (n + 1)), r.severity = .error)
  /-- The summary tells of the infos and then of the errors that are there. -/
  summary : ∀ o ∈ os, ∀ detail > 0, ∃ infoCounts infoLines errorCounts errorLines,
    DocDecl.summarize detail o.collected = infoLines ++ errorLines ∧
      SumsUp detail "messages" (infosOf o.collected) infoCounts infoLines ∧
      SumsUp detail "errors" (errorsOf o.collected) errorCounts errorLines

/-- How a session fails: at a generation that fails with the same fault on its own, and records
nothing. The requests before it have their outcomes, and whoever goes on does so from these. -/
structure FailsAlone (s : Settings) (earlier : List Report) (rs : List Request)
    (f : GenerationFault) : Prop where
  fails : ∃ before source after os, rs = before ++ .generate source :: after ∧
    perform s earlier before = .ok os ∧ perform s [] [.generate source] = .error f ∧
    (DocDecl.generate s (collectedAfter earlier os).length source).reports = []

section Sessions

variable {s : Settings} {earlier : List Report} {rs : List Request}

theorem exitStatus_eq_one_iff {rs : List Report} :
    exitStatus rs = 1 ↔ ∃ r ∈ rs, r.severity = .error := by
  simp [exitStatus]

theorem failsAlone_of_perform {f : GenerationFault} (h : perform s earlier rs = .error f) :
    FailsAlone s earlier rs f := by
  induction rs generalizing earlier with
  | nil => cases h
  | cons r rs ih =>
    cases hr : r.perform s earlier with
    | error g =>
      rw [perform_cons_of_error hr] at h
      cases h
      obtain ⟨source, rfl, hfresh, hnothing⟩ := perform_eq_error hr
      exact ⟨[], source, rs, [], rfl, rfl, perform_cons_of_error hfresh, hnothing⟩
    | ok o =>
      rw [perform_cons_of_ok hr] at h
      cases hrs : perform s o.collected rs with
      | ok os => simp [hrs, Except.map] at h
      | error g =>
        rw [hrs] at h
        cases h
        obtain ⟨before, source, after, os, rfl, hos, hfresh, hnothing⟩ := (ih hrs).fails
        refine ⟨r :: before, source, after, o :: os, rfl, ?_, hfresh, ?_⟩
        · rw [perform_cons_of_ok hr, hos]
          rfl
        · rwa [collectedAfter_cons]

/-- The requests of a session do not disturb each other, whatever was reported before. -/
theorem isSeparate_perform (s : Settings) (earlier : List Report) (rs : List Request) :
    match perform s earlier rs with
    | .ok os => IsSeparate s earlier rs os
    | .error f => FailsAlone s earlier rs f := by
  cases h : perform s earlier rs with
  | error f => exact failsAlone_of_perform h
  | ok os =>
    refine ⟨length_of_perform h, ?_, released_append_collectedAfter h, ?_, ?_⟩
    · intro n source o hr ho
      obtain ⟨fresh, hfresh, hreply, hcollected⟩ :=
        exists_fresh_of_perform (perform_getElem? h hr ho)
      refine ⟨fresh, ?_, hreply, collected_of_perform hfresh, hcollected⟩
      rw [perform_cons_of_ok hfresh]
      rfl
    · intro n o ho
      rw [exitStatus_eq_one_iff, ← collectedAfter_take earlier ho,
        collectedAfter_eq (perform_take h (n + 1))]
    · intro o _ detail hdetail
      exact sumsUp_summarize hdetail o.collected

/-- An info, and a block without a known tag before and after the reports are handed out. -/
example :
    let source : Text := "/**\n * @todo\n */"
    ((perform {} [] [.report ⟨.info, .nothing, "a", "b"⟩, .generate source, .drain,
        .generate source]).toOption.getD []).map
          (fun o => (o.collected.length, exitStatus o.collected)) =
      [(1, 0), (2, 1), (0, 0), (1, 1)] := by
  decide +kernel

end Sessions

end Session

end DocDecl

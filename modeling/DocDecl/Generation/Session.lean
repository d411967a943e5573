import DocDecl.Generation.Basic
import DocDecl.Report.Summary

/-!
# Sessions

A session takes one request after another. Reports of all of them are collected until they are
forgotten or handed out.

## Main definitions

* `Request`, `Reply` : what is asked of a session, and what it answers.
* `Outcome` : an answer with its log, and the reports that are collected afterwards.
* `Request.perform`, `perform` : the outcomes of one request and of several.

## Main results

* `reports_perform_generate` : a generation adds the reports of its own to the collected ones.
-/

namespace DocDecl

namespace Session

/-- What is asked of a session. -/
inductive Request where
  /-- The declarations of a source. -/
  | generate (source : Text)
  /-- Collects a report. -/
  | report (r : Report)
  /-- Forgets the reports. -/
  | reset
  /-- Hands out the reports and forgets them. -/
  | drain
  /-- The reports: all, the infos and the errors. -/
  | reports
  /-- The summary of the reports. -/
  | summarize (detail : Int)
  /-- Logs the summary of the reports. -/
  | conclude (detail : Int)
  deriving Repr

/-- What a session answers. -/
inductive Reply where
  | done
  | output (t : Text)
  | handedOut (rs : List Report)
  | listed (all infos errors : List Report)
  | lines (ls : List Text)
  deriving Repr

/-- An answer with its log, and the reports that are collected afterwards. -/
structure Outcome where
  /-- The answer. -/
  reply : Reply
  /-- What was logged. -/
  log : List Record := []
  /-- The reports afterwards. -/
  collected : List Report
  deriving Repr

/-- The infos among reports. -/
def infosOf (rs : List Report) : List Report := rs.filter fun r => r.severity = .info

/-- The errors among reports. -/
def errorsOf (rs : List Report) : List Report := rs.filter fun r => r.severity = .error

/-- The log of a conclusion: the lines of the summary. -/
def conclusionLog (detail : Int) (rs : List Report) : List Record :=
  (summarize detail rs).map fun l => ⟨.info, "diagnostics", l⟩

/-- The outcome of a request, given the reports collected before. -/
def Request.perform (s : Settings) (collected : List Report) :
    Request → Except GenerationFault Outcome
  | generate source =>
    let x := DocDecl.generate s collected.length source
    x.value.map fun output => ⟨.output output, recordsOf x.entries, collected ++ x.reports⟩
  | report r => .ok ⟨.done, (Entry.report r).record?.toList, collected ++ [r]⟩
  | reset => .ok ⟨.done, [], []⟩
  | drain => .ok ⟨.handedOut collected, [], []⟩
  | reports => .ok ⟨.listed collected (infosOf collected) (errorsOf collected), [], collected⟩
  | summarize detail => .ok ⟨.lines (DocDecl.summarize detail collected), [], collected⟩
  | conclude detail => .ok ⟨.done, conclusionLog detail collected, collected⟩

/-- The outcomes of several requests, given the reports collected before. -/
def perform (s : Settings) (collected : List Report) :
    List Request → Except GenerationFault (List Outcome)
  | [] => .ok []
  | r :: rs => do
    let o ← r.perform s collected
    return o :: (← perform s o.collected rs)

theorem reports_perform_generate {s : Settings} {collected : List Report} {source : Text}
    {o : Outcome} (h : (Request.generate source).perform s collected = .ok o) :
    o.collected = collected ++ (generateRaw s source).reports := by
  simp only [Request.perform] at h
  cases hv : (DocDecl.generate s collected.length source).value with
  | error e => simp [hv, Except.map] at h
  | ok output =>
    simp only [hv, Except.map, Except.ok.injEq] at h
    rw [← h, reports_generate]

end Session

end DocDecl

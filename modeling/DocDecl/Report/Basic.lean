import DocDecl.Comment.Area
import DocDecl.Text.Quoted

/-!
# Reports and log records

A report tells the user of an oddity in the documentation; a log record tells of a step of the work.
Every error report is logged as well, so the log is read off the reports and the steps, in the order
in which they arose.

## Main definitions

* `Report` : a severity, a category, a message and the subject that it is about.
* `Record` : a level, a channel and a message.
* `Entry` : one or the other.
* `reportsOf`, `recordsOf` : the reports and the log records of a list of entries.

## Main results

* `reportsOf_append`, `recordsOf_append` : both follow the order of the entries.
-/

namespace DocDecl

/-! ### Reports -/

/-- How grave a report is. -/
inductive Severity where
  | info
  | error
  deriving DecidableEq, Repr

/-- The word for a severity. -/
def Severity.word : Severity → Text
  | info => "info"
  | error => "error"

/-- What a report is about. -/
inductive Subject where
  | nothing
  | label (t : Text)
  | area (a : Area)
  deriving DecidableEq, Repr

/-- The name of a subject; a comment area is named by the value of its tag. -/
def Subject.name? : Subject → Option Text
  | nothing => none
  | label t => some t
  | area a => some a.value

/-- An area as a subject, if there is one. -/
def Subject.ofArea? : Option Area → Subject
  | some a => .area a
  | none => .nothing

/-- An oddity in the documentation. -/
structure Report where
  /-- How grave it is. -/
  severity : Severity
  /-- What it is about. -/
  subject : Subject
  /-- The group that it is counted in. -/
  category : Text
  /-- What to tell. -/
  message : Text
  deriving DecidableEq, Repr

/-! ### Log records -/

/-- The level of a log record. -/
inductive Level where
  | debug
  | info
  | error
  deriving DecidableEq, Repr

/-- The word for a level. -/
def Level.word : Level → Text
  | debug => "DEBUG"
  | info => "INFO"
  | error => "ERROR"

/-- The rank of a level. -/
def Level.rank : Level → Nat
  | debug => 0
  | info => 1
  | error => 2

/-- The name of a log channel: that of the program, and below it that of a part. -/
def channelName (part : Text) : Text :=
  if part = [] then "tsdecgen" else ("tsdecgen." : Text) ++ part

/-- The lowest level that is shown, by how much is asked for. -/
def Level.threshold (verbose : Bool) (detail : Int) : Level :=
  if verbose then .debug else if detail ≤ 0 then .error else .info

/-- A step of the work. -/
structure Record where
  /-- How important the record is. -/
  level : Level
  /-- The part of the program that it comes from. -/
  part : Text
  /-- What to tell. -/
  message : Text
  deriving DecidableEq, Repr

/-- A record as a line of the log. -/
def Record.logLine (r : Record) : Text :=
  r.level.word ++ " " ++ channelName r.part ++ ": " ++ r.message

/-- A record as a line for the user. -/
def Record.consoleLine (r : Record) : Text := "[tsdecgen] " ++ r.level.word ++ " " ++ r.message

/-- Whether a record is shown, given the lowest level that is. -/
def Record.isShown (threshold : Level) (r : Record) : Bool := threshold.rank ≤ r.level.rank

/-! ### Entries -/

/-- What is noted while the work goes on. -/
inductive Entry where
  | report (r : Report)
  | step (r : Record)
  deriving DecidableEq, Repr

/-- The report of an entry, if it is one. -/
def Entry.report? : Entry → Option Report
  | report r => some r
  | step _ => none

/-- The log record of an entry; of the reports, only the errors have one. -/
def Entry.record? : Entry → Option Record
  | report r =>
    if r.severity = .error then
      some ⟨.error, "diagnostics", "The " ++ r.category ++ " throws: " ++ r.message⟩
    else none
  | step r => some r

/-- The reports among the entries, in order. -/
def reportsOf (es : List Entry) : List Report := es.filterMap Entry.report?

/-- The log records of the entries, in order. -/
def recordsOf (es : List Entry) : List Record := es.filterMap Entry.record?

@[simp]
theorem reportsOf_append (es fs : List Entry) :
    reportsOf (es ++ fs) = reportsOf es ++ reportsOf fs := by simp [reportsOf]

@[simp]
theorem recordsOf_append (es fs : List Entry) :
    recordsOf (es ++ fs) = recordsOf es ++ recordsOf fs := by simp [recordsOf]

end DocDecl

import DocDecl.Report.Basic

/-!
# The summary of the reports

At the end of a run the reports are summed up, first the infos and then the errors: how many there
are, how many in each category, and the messages one by one. How much of this is told depends on the
level of detail: nothing at zero, the counts at one, the messages from two on, and their subjects at
three.

## Main definitions

* `categoryCounts` : how many reports each category has, in order of first appearance.
* `summarize` : the lines of the summary.
-/

namespace DocDecl

/-- Adds one to the count of a key. A new key comes last. -/
def countOne (key : Text) : List (Text × Nat) → List (Text × Nat)
  | [] => [(key, 1)]
  | (k, n) :: cs => if k = key then (k, n + 1) :: cs else (k, n) :: countOne key cs

/-- How many reports each category has, in order of first appearance. -/
def categoryCounts (rs : List Report) : List (Text × Nat) :=
  rs.foldl (fun cs r => countOne r.category cs) []

/-- The line for one report. -/
def reportLine (detail : Int) (r : Report) : Text :=
  "Check " ++ r.category ++ " with " ++ r.message ++
    if detail = 3 then " " ++ Text.quoted? r.subject.name? else []

/-- The lines for the reports of one kind. -/
def summarizeKind (detail : Int) (kind : Text) (rs : List Report) : List Text :=
  if rs = [] then []
  else
    ("You have " ++ kind ++ " from " ++ Text.ofNat rs.length ++ " objects in groups:") ::
      (categoryCounts rs).map (fun c => "  " ++ c.1 ++ ": " ++ Text.ofNat c.2) ++
      if 1 < detail then rs.map (reportLine detail) else []

/-- The lines of the summary. -/
def summarize (detail : Int) (rs : List Report) : List Text :=
  if detail ≤ 0 then []
  else
    summarizeKind detail "messages" (rs.filter fun r => r.severity = .info) ++
      summarizeKind detail "errors" (rs.filter fun r => r.severity = .error)

/-- The exit status of a run: one if there was an error. -/
def exitStatus (rs : List Report) : Nat := if rs.any fun r => r.severity = .error then 1 else 0

end DocDecl

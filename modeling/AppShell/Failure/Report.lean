/-
AppShell/Failure/Report.lean

Reports of failures: a line of summary and a section of details.
-/
import AppShell.Failure.Basic

namespace AppShell

/-- The details of a report. -/
inductive ReportDetails where
  | api (fields : List (String × String)) (payload : Option String)
  | code (text : String)
deriving DecidableEq

/-- What is shown of a failure. -/
structure Report where
  summary : String
  details : ReportDetails
deriving DecidableEq

namespace Report

/-- The start of a summary for which none is given. -/
def defaultLead : String := "Failed to perform action"

/-- The summary: the lead, and the message behind a colon. -/
def summaryText (failure : Failure) (lead : Option String) : String :=
  let lead := lead.getD defaultLead
  match failure.message? with
  | some message => lead ++ ": " ++ message
  | none => lead

/-- The facts of an error of the application interface. -/
def apiFields (e : ApiError) : List (String × String) :=
  ("Status", toString e.status) :: e.requestId.toList.map fun id => ("Request ID", id)

/-- The section of details. -/
def detailsOf : Failure → ReportDetails
  | .api e => .api (apiFields e) (e.detail?.map Json.pretty)
  | .error d => .code d.toJson.pretty
  | .value text => .code text

/-- The report of a failure under the given start of a summary. -/
def ofFailure (failure : Failure) (lead : Option String) : Report :=
  ⟨summaryText failure lead, detailsOf failure⟩

end Report

end AppShell

import Scan.Duration
import Scan.Report

/-!
# Reports for people

The lines in which reports are shown on a terminal.
-/

namespace Scan

/-- How a run or dry run without a name is shown. -/
def shownName (name : Option String) : String :=
  name.getD "<unnamed>"

/-- A text with blanks in front, to a width. -/
def flushRight (width : Nat) (text : String) : String :=
  String.ofList (List.replicate (width - text.length) ' ') ++ text

/-- The line for an error. -/
def ErrorInfo.line (error : ErrorInfo) : String :=
  error.code.name ++ " – " ++ error.message

namespace SimulationReport

/-- The lines of a report: one for each entry of the trace, then the sum. -/
def lines (report : SimulationReport Float) : List String :=
  ["[SIMULATED] " ++ shownName report.name] ++
    report.steps.map (fun step =>
      "  " ++ flushRight 12 (formatSeconds step.seconds) ++ "  " ++ step.label) ++
    ["  total:  " ++ formatSeconds report.totalSeconds ++ " (" ++
      toString report.totalWork.toNat ++ " work units)"]

end SimulationReport

namespace RunReport

/-- The word for how a run ended. -/
def verdict (report : RunReport) : String :=
  match report.state with
  | .finished => "FINISHED"
  | .aborted => "ABORTED"
  | .failed => "FAILED"
  | _ => "INCOMPLETE"

/-- The lines of a report; a run that stopped early has two more. -/
def lines (report : RunReport) : List String :=
  ["[" ++ report.verdict ++ "] " ++ shownName report.name,
    "  run_id:  " ++ report.runId,
    "  work:    " ++ toString report.workPerformed.toNat ++ "/" ++
      toString report.totalWork.toNat,
    "  elapsed: " ++ formatSeconds (report.elapsedMs.toFloat / 1000)] ++
    match report.stoppedAt with
    | some stopped =>
        ["  stopped at step " ++ toString stopped.step ++ ": " ++ stopped.description,
          "  error:   " ++ stopped.error.line]
    | none => []

end RunReport

end Scan

import ScriptLint.Analysis.Basic
import ScriptLint.Json.Basic

/-! # Reports

What a run prints about the files it analyzed. The text report has a line for each diagnostic and a
summary at the end; the JSON report has an entry for each file. Both keep the order of the files and
that of the diagnostics of a file.
-/

namespace ScriptLint

/-- The formats of the report. -/
inductive Reporter where
  | text
  | json
deriving Repr, DecidableEq, Inhabited

/-- The format of a name. -/
def Reporter.ofName? : String → Option Reporter
  | "text" => some .text
  | "json" => some .json
  | _ => none

/-- The analysis of a file. -/
structure FileReport where
  path : String
  analysis : Analysis
deriving Repr, DecidableEq, Inhabited

/-- The path as reports show it, with slashes only. -/
def FileReport.shownPath (r : FileReport) : String :=
  String.ofList (r.path.toList.map fun c => if c = '\\' then '/' else c)

/-- The numbers of diagnostics of some files. -/
structure Totals where
  errors : Nat
  /-- All that are no errors. -/
  warnings : Nat
deriving Repr, DecidableEq, Inhabited

namespace Totals

/-- The numbers of diagnostics of a list of files. -/
def ofReports (reports : List FileReport) : Totals :=
  let diagnostics := reports.flatMap (·.analysis.diagnostics)
  { errors := diagnostics.countP (·.isError), warnings := diagnostics.countP (!·.isError) }

def count (t : Totals) : Nat := t.errors + t.warnings

/-- The status that a run ends with: that there are errors, only warnings, or nothing. -/
def exitCode (t : Totals) : Nat := if 0 < t.errors then 2 else if 0 < t.warnings then 1 else 0

end Totals

namespace Report

/-- A number of things. -/
def counted (n : Nat) (noun : String) : String :=
  s!"{n} {noun}" ++ if n = 1 then "" else "s"

/-- The line for a diagnostic of a file. -/
def line (path : String) (d : Diagnostic) : String :=
  s!"{path}: line {d.position.line}, col {d.position.column}, {d.message} ({d.code})"

/-- The lines for the diagnostics of a file. -/
def lines (r : FileReport) : List String := r.analysis.diagnostics.map (line r.shownPath)

/-- The summary: an empty line and a line with the numbers, unless there is nothing to report. -/
def summary (t : Totals) : List String :=
  if t.count = 0 then []
  else
    let parts := counted t.errors "error" ++ ", " ++ counted t.warnings "warning"
    ["", counted t.count "problem" ++ " (" ++ parts ++ ")"]

def text (reports : List FileReport) : String :=
  String.join ((reports.flatMap lines ++ summary (.ofReports reports)).map (· ++ "\n"))

/-- The entry of a file in the JSON report. -/
def entry (r : FileReport) : Json := .object (("file", .string r.shownPath) :: r.analysis.members)

def json (reports : List FileReport) : String := (Json.list entry reports).indented ++ "\n"

end Report

/-- The report in a format. -/
def Reporter.render : Reporter → List FileReport → String
  | text => Report.text
  | json => Report.json

end ScriptLint

import ScriptLint.Message.Catalog
import ScriptLint.Position

/-! # Reported problems

What a diagnostic consists of, and how serious it is.
-/

/-! ## Severity

How serious a diagnostic is. The first letter of its code decides.
-/

namespace ScriptLint

/-- The three degrees, from a note to an error. -/
inductive Severity where
  | info
  | warning
  | error
deriving Repr, DecidableEq, Inhabited

namespace Severity

/-- Codes that begin with `E` are errors, those that begin with `I` notes, and all others are
warnings. -/
def ofCode (code : String) : Severity :=
  match code.toList with
  | 'E' :: _ => .error
  | 'I' :: _ => .info
  | _ => .warning

/-- The word a report prints. -/
def label : Severity → String
  | .info => "info"
  | .warning => "warning"
  | .error => "error"

/-- The place in the ascending order of seriousness. -/
def rank : Severity → Nat
  | .info => 0
  | .warning => 1
  | .error => 2

/-- A note is less serious than a warning, and a warning less than an error. -/
def order (a b : Severity) : Ordering := compare a.rank b.rank

end Severity

/-! ## Diagnostics

A reported problem: a code, the arguments of its template, a position, and the function it lies in.
Severity and text follow from these. The terminal diagnostic of an analysis also tells how much of
the source was read.
-/

/-- A reported problem. -/
structure Diagnostic where
  code : String
  arguments : List String
  position : Position
  /-- The name of the enclosing function. -/
  scope : String
  /-- The percentage of the lines that were read, for the terminal diagnostic of an analysis. -/
  scanned? : Option Nat := none
deriving Repr, DecidableEq, Inhabited

namespace Diagnostic

def severity (d : Diagnostic) : Severity := .ofCode d.code

def isError (d : Diagnostic) : Bool := d.severity = .error

def template (d : Diagnostic) : String := Message.template d.code

/-- The text that a reader sees. -/
def message (d : Diagnostic) : String :=
  let text := Message.fill d.template d.arguments
  match d.scanned? with
  | none => text
  | some percent => s!"{text} ({percent}% scanned)."

/-- Whether two diagnostics tell the same of the same place. -/
def repeats (d e : Diagnostic) : Bool :=
  d.code == e.code && d.position.line == e.position.line && d.position.column == e.position.column

end Diagnostic

end ScriptLint

import ScriptLint.Json.Basic
import ScriptLint.Reading.Program
import ScriptLint.Text.Basic

/-! # Analyses of sources

The analysis of a source text and its JSON form.
-/

/-! ## Analyses

The analysis of a source text: what it reports, what it finds out about names, and how it ended. A
fault of the program is a diagnostic and never an error of the analysis.
-/

namespace ScriptLint

/-- How an analysis ended. -/
inductive Ending where
  /-- The whole program was read. -/
  | complete
  /-- Reading stopped early; the last diagnostic tells where. -/
  | halted (reason : Halt)
  /-- The bound on the number of steps was too small. -/
  | outOfFuel
deriving Repr, DecidableEq, Inhabited

namespace Ending

/-- The ending that the outcome of reading stands for. -/
def ofOutcome : Except Reading.Stop Unit → Ending
  | .ok () => .complete
  | .error (.halted reason) => .halted reason
  | .error .outOfFuel => .outOfFuel

/-- Why the analysis stopped early, if it did. -/
def halt? : Ending → Option Halt
  | halted reason => some reason
  | complete | outOfFuel => none

end Ending

/-- The result of an analysis. -/
structure Analysis where
  /-- The diagnostics in the order in which they were reported. -/
  diagnostics : List Diagnostic
  summary : Scope.Summary
  ending : Ending
deriving Repr, DecidableEq, Inhabited

namespace Analysis

def errorCount (a : Analysis) : Nat := a.diagnostics.countP (·.isError)

def hasErrors (a : Analysis) : Bool := a.diagnostics.any (·.isError)

/-- The state in front of the first token of a source. -/
def startState (source : String) (o : Options) (known : KnownGlobals) : Reading.State :=
  { options := o
    session :=
      { tracker := .start known (.ofOptions o) o.module (o.strict = .implied)
        sink := .start o.maxErrors (Text.lineCount source.toList) o.disabled }
    lookahead := Token.next (Cursor.ofSource source)
    size := source.utf8ByteSize }

def ofSource (source : String) (o : Options) (known : KnownGlobals) : Analysis :=
  let reading := Reading.program (Reading.productions (Reading.nestingBound source.utf8ByteSize))
  let (outcome, s) := reading.run.run (startState source o known)
  { diagnostics := s.session.sink.finish
    summary := s.session.tracker.summary
    ending := .ofOutcome outcome }

/-- The analysis of bytes that are no text, which is all there is to report. -/
def ofNoText (o : Options) : Analysis :=
  let sink := Sink.start o.maxErrors 1 o.disabled
  let (outcome, sink) := sink.report "E004" .start [] Scope.mainName
  { diagnostics := sink.finish
    summary := {}
    ending := .ofOutcome (outcome.mapError .halted) }

/-- Analyze the bytes of a file, which should be a text in UTF-8. -/
def ofBytes (bytes : ByteArray) (o : Options) (known : KnownGlobals) : Analysis :=
  match String.fromUTF8? bytes with
  | some source => ofSource source o known
  | none => ofNoText o

end Analysis

/-! ## Writing analyses

The JSON form of what an analysis found. A diagnostic carries its severity, its text and the template
of the text besides its own parts.
-/

def Diagnostic.write (d : Diagnostic) : Json :=
  .object [
    ("code", .string d.code),
    ("severity", .string d.severity.label),
    ("raw", .string d.template),
    ("message", .string d.message),
    ("args", .list .string d.arguments),
    ("line", .natural d.position.line),
    ("column", .natural d.position.column),
    ("offset", .natural d.position.offset),
    ("scope", .string d.scope)]

/-- The reason for an early end as a JSON value. -/
def Halt.write (reason : Halt) : Json := .string reason.name

namespace Scope

def ImpliedGlobal.write (g : ImpliedGlobal) : Json :=
  .object [("name", .string g.name), ("lines", .list .natural g.lines)]

def UnusedBinding.write (u : UnusedBinding) : Json :=
  .object [
    ("name", .string u.name),
    ("kind", .string u.kind.word),
    ("line", .natural u.position.line),
    ("column", .natural u.position.column),
    ("scope", .string u.scope)]

def Summary.write (s : Summary) : Json :=
  .object [
    ("implied_globals", .list ImpliedGlobal.write s.impliedGlobals),
    ("declared_globals", .list .string s.declaredGlobals),
    ("unused", .list UnusedBinding.write s.unused),
    ("exported", .list .string s.exported)]

end Scope

/-- The parts of the analysis as members of a JSON object. -/
def Analysis.members (a : Analysis) : List (String × Json) :=
  [("diagnostics", .list Diagnostic.write a.diagnostics),
    ("summary", a.summary.write),
    ("halted", .optional Halt.write a.ending.halt?)]

end ScriptLint

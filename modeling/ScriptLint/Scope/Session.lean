import ScriptLint.Diagnostic.Sink
import ScriptLint.Scope.Tracker

/-! # Sessions

Scope analysis that reports what it finds. A session is the tracker together with the sink of the
diagnostics, and an action on it may be cut short by the sink; what was done before that stays done.
-/

namespace ScriptLint.Scope

/-- The tracker and the sink that its findings go to. -/
structure Session where
  tracker : Tracker
  sink : Sink
deriving Repr, Inhabited

/-- A step of scope analysis that may report and may be cut short. -/
abbrev Action (α : Type) := ExceptT Halt (StateM Session) α

namespace Action

def tracker : Action Tracker := return (← get).tracker

def update (change : Tracker → Tracker) : Action Unit :=
  modify fun s => { s with tracker := change s.tracker }

/-- Report to the sink, with a code that is none of a terminal diagnostic. -/
def report (code : String) (position : Position) (arguments : List String) (scope : String)
    (_hcode : Halt.IsRegular code := by decide) : Action Unit := do
  let s ← get
  let (outcome, sink) := s.sink.report code position arguments scope
  set { s with sink }
  match outcome with
  | .ok () => pure ()
  | .error halt => throw halt

end Action

end ScriptLint.Scope

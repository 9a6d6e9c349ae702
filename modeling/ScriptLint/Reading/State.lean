import ScriptLint.Grammar.Symbol
import ScriptLint.Scope.Declare
import ScriptLint.Scope.Resolve
import ScriptLint.Token.Scan

/-! # Reading a program

A program is read from left to right, one token ahead, without building a tree: on the way faults
are reported and names are declared and looked up. Reading may stop early, and what was done before
that stays done. The productions of the grammar are written in terms of the few steps of this module
and of `Reading.Flow`; no other code looks into the state.
-/

namespace ScriptLint

namespace Reading

/-- Why reading stops before the end. -/
inductive Stop where
  /-- The analysis has ended, and its terminal diagnostic is recorded. -/
  | halted (reason : Halt)
  /-- The bound on the number of steps was too small. -/
  | outOfFuel
deriving Repr, DecidableEq, Inhabited

/-- The state of reading. -/
structure State where
  options : Options
  session : Scope.Session
  /-- The tokens that were consumed, the last one first. -/
  consumed : List Token := []
  /-- The token that comes next. -/
  lookahead : Token
  /-- The number of nested constructs around the current place. -/
  depth : Nat := 0
  /-- Whether `in` is no operator here, as in the first part of a `for` head. -/
  inExcluded : Bool := false
  /-- The names exported so far. -/
  exports : List String := []
  /-- The length of the source in bytes. -/
  size : Nat
deriving Inhabited

/-- The token that was consumed last; in front of the first one, that one. -/
def State.previous (s : State) : Token := s.consumed.headD s.lookahead

end Reading

/-- A step of reading that gives an answer or stops. -/
abbrev Reading (α : Type) := ExceptT Reading.Stop (StateM Reading.State) α

namespace Reading

/-! ## What is known -/

def token : Reading Token := return (← get).lookahead

def previous : Reading Token := return (← get).previous

def options : Reading Options := return (← get).options

/-- The scopes as they are now. -/
def tracker : Reading Scope.Tracker := return (← get).session.tracker

def isStrict : Reading Bool := return (← tracker).isStrict

def isBefore (edition : Edition) : Reading Bool := return (← options).edition < edition

def atPunctuator (p : String) : Reading Bool := return (← token).isPunctuator p

def atKeyword (word : String) : Reading Bool := return (← token).isKeyword word

/-- Whether the next token is the name `word`, which is no keyword. -/
def atWord (word : String) : Reading Bool := return (← token).isName word

def atEnd : Reading Bool := return (← token).isEnd

/-! ## Reports and scopes -/

/-- Take a step of scope analysis. -/
def inScopes {α : Type} (action : Scope.Action α) : Reading α := do
  let s ← get
  let (outcome, session) := action.run.run s.session
  set { s with session }
  match outcome with
  | .ok a => pure a
  | .error reason => throw (.halted reason)

/-- Change the scopes without a report. -/
def track (change : Scope.Tracker → Scope.Tracker) : Reading Unit :=
  modify fun s => { s with session.tracker := change s.session.tracker }

/-- Change the sink without a report. -/
def adjustSink (change : Sink → Sink) : Reading Unit :=
  modify fun s => { s with session.sink := change s.session.sink }

def adjustOptions (change : Options → Options) : Reading Unit :=
  modify fun s => { s with options := change s.options }

/-- Report a fault in the current function. -/
def report (code : String) (position : Position) (arguments : List String)
    (hcode : Halt.IsRegular code := by decide) : Reading Unit := do
  inScopes (Scope.Action.report code position arguments (← tracker).functionName hcode)

/-- Report a fault of a kind that a token may have too. -/
def reportIssue (issue : LexicalIssue) : Reading Unit :=
  report issue.code issue.position issue.arguments issue.regular

/-- End the analysis with its terminal diagnostic. -/
def halt {α : Type} (reason : Halt) (position : Position) : Reading α := do
  let scope := (← tracker).functionName
  adjustSink (·.terminate reason.code position scope)
  throw (.halted reason)

/-- Report the use of a feature that a later edition introduced. -/
def requireEdition (feature : String) (since : Edition) (position : Position) : Reading Unit := do
  if ← isBefore since then reportIssue (.gated feature since position)

/-- Report the use of a feature of the edition of 2015 that some engines had before. -/
def requireModern (feature : String) (position : Position) : Reading Unit := do
  if !(← options).edition.isModern then
    report "W104" position [feature, toString Edition.es2015.number]

/-! ## Bounds -/

/-- Take a step one level deeper. Too deep a level ends the analysis. -/
def nested {α : Type} (step : Reading α) : Reading α := do
  modify fun s => { s with depth := s.depth + 1 }
  let s ← get
  if s.options.maxDepth < s.depth then halt .tooDeep s.lookahead.position
  else
    let a ← step
    modify fun s => { s with depth := s.depth - 1 }
    pure a

/-- Exclude `in` from the operators, or admit it. -/
def setInExcluded (excluded : Bool) : Reading Unit :=
  modify fun s => { s with inExcluded := excluded }

/-- Take a step inside brackets, where `in` is an operator. -/
def allowingIn {α : Type} (step : Reading α) : Reading α := do
  let saved := (← get).inExcluded
  setInExcluded false
  let a ← step
  setInExcluded saved
  pure a

/-- What a round of a loop decides: to go on with a new state, or to end with an answer. -/
inductive Round (σ α : Type) where
  | again (state : σ)
  | done (answer : α)

/-- Repeat a round until it is done. -/
def iterate {σ α : Type} (round : σ → Reading (Round σ α)) : Nat → σ → Reading α
  | 0, _ => throw .outOfFuel
  | fuel + 1, state => do
    match ← round state with
    | .again state => iterate round fuel state
    | .done answer => pure answer

/-- Repeat a round until it is done. Every round but the last consumes a token, so there are no more
of them than bytes of the source that are left. -/
def repeatFrom {σ α : Type} (state : σ) (round : σ → Reading (Round σ α)) : Reading α := do
  let s ← get
  iterate round (s.size - s.lookahead.position.offset + 4) state

/-- Repeat a round for as long as it says so. -/
def repeatWhile (round : Reading Bool) : Reading Unit :=
  repeatFrom () fun _ => do
    if ← round then pure (.again ()) else pure (.done ())

end Reading

end ScriptLint

import ScriptLint.Diagnostic.Basic
import ScriptLint.Halt
import ScriptLint.Text.NameSet

/-! # The diagnostic sink

Where the diagnostics of an analysis are gathered. A report may be dropped: because its code is
disabled, by the options or from some line on; because its line lies in an ignored region; or
because the same was reported at the same place. An accepted report that reaches the limit adds
the terminal diagnostic, after which nothing is accepted. The terminal diagnostic has a place of its
own, so there is at most one and it comes last. Lines can be ignored as a whole at any time; that
takes effect when the sink is emptied and also drops what was accepted before.
-/

namespace ScriptLint

/-- A code that is switched off or on from a line on. -/
structure Toggle where
  code : String
  line : Nat
  enabled : Bool
deriving Repr, DecidableEq, Inhabited

/-- A range of ignored lines, without end while it is open. -/
structure IgnoredRegion where
  first : Nat
  last? : Option Nat
deriving Repr, DecidableEq, Inhabited

def IgnoredRegion.contains (region : IgnoredRegion) (line : Nat) : Bool :=
  region.first ≤ line && region.last?.all (line ≤ ·)

/-- The state of the sink. -/
structure Sink where
  /-- The accepted diagnostics, without the terminal one. -/
  accepted : Array Diagnostic := #[]
  terminal? : Option Diagnostic := none
  /-- The number of diagnostics that ends the analysis; zero means no limit. -/
  limit : Nat
  totalLines : Nat
  disabled : Text.NameSet
  /-- The toggles, newest first. -/
  toggles : List Toggle := []
  /-- The ignored regions, newest first. -/
  regions : List IgnoredRegion := []
  ignoredLines : List Nat := []
deriving Repr, Inhabited

namespace Sink

/-- An empty sink. -/
def start (limit totalLines : Nat) (disabled : Text.NameSet) : Sink :=
  { limit, totalLines := max totalLines 1, disabled }

def isHalted (s : Sink) : Bool := s.terminal?.isSome

/-- The number of diagnostics, the terminal one included. -/
def count (s : Sink) : Nat := s.accepted.size + s.terminal?.toList.length

/-- All diagnostics in the order in which they were added. -/
def entries (s : Sink) : List Diagnostic := s.accepted.toList ++ s.terminal?.toList

/-- The newest diagnostic. -/
def last? (s : Sink) : Option Diagnostic := s.terminal? <|> s.accepted.back?

def setLimit (limit : Nat) (s : Sink) : Sink := { s with limit }

/-- Switch a code off or on from a line on. -/
def toggle (code : String) (line : Nat) (enabled : Bool) (s : Sink) : Sink :=
  { s with toggles := ⟨code, line, enabled⟩ :: s.toggles }

/-- Ignore what follows from a line on. Inside an open region this changes nothing. -/
def beginIgnore (line : Nat) (s : Sink) : Sink :=
  match s.regions with
  -- Only the newest region can be open.
  | ⟨_, none⟩ :: _ => s
  | regions => { s with regions := ⟨line, none⟩ :: regions }

/-- End the open region at a line; without one this changes nothing. -/
def endIgnore (line : Nat) (s : Sink) : Sink :=
  match s.regions with
  | ⟨first, none⟩ :: regions => { s with regions := ⟨first, some line⟩ :: regions }
  | _ => s

def ignoreLine (line : Nat) (s : Sink) : Sink :=
  { s with ignoredLines := line :: s.ignoredLines }

/-- Whether a report of the code on the line would be dropped. Of the toggles that concern the
line the newest counts; where there is none, the disabled codes do. -/
def suppresses (s : Sink) (code : String) (line : Nat) : Bool :=
  s.regions.any (·.contains line) ||
    match s.toggles.find? fun toggle => toggle.code == code && toggle.line ≤ line with
    | some toggle => !toggle.enabled
    | none => s.disabled.contains code

/-- How much of the source lies before a position, in percent of its lines. -/
def scannedPercent (s : Sink) (position : Position) : Nat :=
  min (position.line * 100 / s.totalLines) 100

/-- Add the terminal diagnostic, past all filters. Only the first one is kept. -/
def terminate (code : String) (position : Position) (scope : String) (s : Sink) : Sink :=
  match s.terminal? with
  | some _ => s
  | none =>
    { s with
      terminal? := some
        { code, arguments := [], position, scope, scanned? := some (s.scannedPercent position) } }

/-- Add a diagnostic unless it is dropped. The one that reaches the limit ends the analysis. -/
def report (code : String) (position : Position) (arguments : List String) (scope : String)
    (s : Sink) : Except Halt Unit × Sink :=
  let d : Diagnostic := { code, arguments, position, scope }
  if s.isHalted || s.suppresses code position.line || s.accepted.any (·.repeats d) then (.ok (), s)
  else
    let s := { s with accepted := s.accepted.push d }
    -- The limit may have been lowered past the number accepted by now.
    if 0 < s.limit ∧ s.limit ≤ s.accepted.size then
      (.error .tooManyErrors, s.terminate Halt.tooManyErrors.code position scope)
    else (.ok (), s)

/-- The diagnostics that are left once the ignored lines are dropped. -/
def finish (s : Sink) : List Diagnostic :=
  s.accepted.toList.filter (fun d => !s.ignoredLines.contains d.position.line) ++
    s.terminal?.toList

end Sink

end ScriptLint

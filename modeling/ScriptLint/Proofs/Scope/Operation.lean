import ScriptLint.Proofs.Scope.Ensures

/-! # Operations and their history

Scope analysis is driven by a sequence of operations. What becomes of a reference is told by a log:
it is recorded with a use, the use may be set anew, and at some time the reference is resolved. The
logged operations are the operations with notes in them, and without the notes they are the
operations again.
-/

namespace ScriptLint.Scope

/-- What happens to a reference. -/
inductive Event where
  | recorded (id : Nat) (access : Access)
  | accessSet (id : Nat) (access : Access)
  /-- The reference is resolved to a binding of a frame, or as a global. `crossed` is whether it is
  known to have left a function by then. -/
  | resolved (id : Nat) (frame? : Option Nat) (crossed : Bool)
deriving Repr, DecidableEq

/-- Whether the event is that the reference is resolved. -/
def Event.resolves (id : Nat) : Event → Bool
  | resolved id' _ _ => id' = id
  | recorded _ _ | accessSet _ _ => false

/-- How a reference uses its variable after a log, whose newest event is the first. -/
def lastAccess? (id : Nat) : List Event → Option Access
  | [] => none
  | .recorded id' access :: log | .accessSet id' access :: log =>
    if id' = id then some access else lastAccess? id log
  | .resolved _ _ _ :: log => lastAccess? id log

/-- An action that keeps a log of its events, the newest first. -/
abbrev Logged (α : Type) := StateT (List Event) Action α

namespace Logged

/-- Enter an event into the log. -/
def note (event : Event) : Logged Unit := modify (event :: ·)

/-- Resolve a reference in a closing frame, or move it on to the frame outside. -/
def resolve (frame id : Nat) : Logged Unit := do
  let t ← Action.tracker
  let r := t.reference id
  match (t.frame frame).find? r.name, (t.frame frame).parent? with
  | some b, _ =>
    note (.resolved id (some frame) r.crossedFunction)
    Action.resolveTo frame b r
  | none, some parent =>
    if (t.frame frame).kind = .function then
      Action.update (·.modifyReference id fun r => { r with crossedFunction := true })
    Action.update (·.modifyFrame parent fun f => { f with pending := id :: f.pending })
  | none, none =>
    note (.resolved id none r.crossedFunction)
    Action.resolveGlobal r

/-- Resolve all references of a closing frame, in the order in which they were recorded. -/
def resolveAll (frame : Nat) : Logged Unit := do
  let t ← Action.tracker
  let pending := (t.frame frame).pending.mergeSort
  Action.update (·.modifyFrame frame fun f => { f with pending := [] })
  pending.forM (resolve frame)

/-- Close the innermost frame. -/
def exitScope : Logged Unit := do
  let t ← Action.tracker
  match t.stack with
  | [] => pure ()
  | id :: stack =>
    Action.update fun t => { t with stack }.modifyFrame id fun f => { f with state := .closing }
    resolveAll id
    Action.update (·.modifyFrame id fun f => { f with state := .closed })
    Action.reportUnused id

/-- Close all frames, the global one last. -/
def finish : Logged Unit := do
  let t ← Action.tracker
  t.stack.forM fun _ => exitScope

/-- The logged action is the action with notes in it. -/
def Erases {α : Type} (logged : Logged α) (action : Action α) : Prop :=
  ∀ log, Prod.fst <$> logged.run log = action

namespace Erases

variable {α β : Type}

/-- Where the action succeeds, the logged action does so in the same way. -/
theorem exists_log {logged : Logged α} {action : Action α} (hlogged : Erases logged action)
    {a : α} {s s' : Session} (hrun : action.run.run s = (.ok a, s')) (log : List Event) :
    ∃ log', (logged.run log).run.run s = (.ok (a, log'), s') := by
  rw [← hlogged log, map_eq_pure_bind, Action.run_bind] at hrun
  rcases h : (logged.run log).run.run s with ⟨reason | ⟨a', log'⟩, s''⟩ <;> rw [h] at hrun
  · cases hrun
  · cases hrun
    exact ⟨log', rfl⟩

theorem lift (action : Action α) : Erases (liftM action) action := by
  intro log
  simp

theorem pure (a : α) : Erases (Pure.pure a) (Pure.pure a) := by
  intro log
  simp

theorem bind {first : Logged α} {next : α → Logged β} {action : Action α} {then' : α → Action β}
    (hfirst : Erases first action) (hnext : ∀ a, Erases (next a) (then' a)) :
    Erases (first >>= next) (action >>= then') := by
  intro log
  simp only [StateT.run_bind, map_bind, hnext _ _]
  rw [← hfirst log]
  simp

theorem note {logged : Logged α} {action : Action α} (hlogged : Erases logged action)
    (event : Event) : Erases (note event >>= fun _ => logged) action :=
  fun log => by simpa [Logged.note] using hlogged (event :: log)

theorem forM {items : List α} {logged : α → Logged PUnit} {step : α → Action PUnit}
    (hstep : ∀ a, Erases (logged a) (step a)) : Erases (items.forM logged) (items.forM step) := by
  induction items with
  | nil => exact .pure _
  | cons a rest ih => exact .bind (hstep a) fun _ => ih

theorem resolve (frame id : Nat) : Erases (resolve frame id) (Action.resolve frame id) := by
  refine .bind (.lift _) fun t => ?_
  dsimp only
  cases (t.frame frame).find? (t.reference id).name with
  | some b => exact .note (.lift _) _
  | none =>
      cases (t.frame frame).parent? with
      | some parent =>
          dsimp only
          split
          · exact .bind (.lift _) fun _ => .lift _
          · exact .lift _
      | none => exact .note (.lift _) _

theorem resolveAll (frame : Nat) : Erases (resolveAll frame) (Action.resolveAll frame) :=
  .bind (.lift _) fun _ => .bind (.lift _) fun _ => .forM (.resolve frame)

theorem exitScope : Erases exitScope Action.exitScope := by
  refine .bind (.lift _) fun t => ?_
  cases t.stack with
  | nil => exact .pure ()
  | cons id stack =>
      exact .bind (.lift _) fun _ => .bind (.resolveAll id) fun _ =>
        .bind (.lift _) fun _ => .lift _

theorem finish : Erases finish Action.finish :=
  .bind (.lift _) fun _ => .forM fun _ => .exitScope

end Erases

end Logged

/-! ## Operations -/

/-- An operation of scope analysis other than the last. -/
inductive Operation where
  | enterScope (kind : FrameKind) (start : Position)
  | enterFunction (facts : FunctionFacts) (start : Position)
  | exitScope
  | declare (name : String) (kind : BindingKind) (position : Position)
  | declareBlockFunction (name : String) (position : Position)
  | declareParameter (name : String) (position : Position) (distinct : Bool)
  | declareFunctionName (name : String) (position : Position)
  | markInitialized (name : String) (offset : Nat)
  | addReference (name : String) (position : Position) (access : Access)
  | setAccess (id : Nat) (access : Access)
  | markExported (name : String)
  | addKnown (name : String) (writable : Bool)
  | removeKnown (name : String)
  | setRules (rules : Rules)
  | setStrict
  | pushLabel (label : Label)
  | popLabel
  | enterLoop
  | exitLoop
  | enterSwitch
  | exitSwitch
  | recordYield
  /-- Whatever else happens to the sink: other reports, and comments about what is dropped. -/
  | changeSink (change : Sink → Sink)

namespace Operation

/-- Perform an operation. -/
def perform : Operation → Action Unit
  | enterScope kind start => Action.update (·.enterScope kind start)
  | enterFunction facts start => Action.update (·.enterFunction facts start)
  | exitScope => Action.exitScope
  | declare name kind position => Action.declare name kind position
  | declareBlockFunction name position => Action.declareBlockFunction name position
  | declareParameter name position distinct => Action.declareParameter name position distinct
  | declareFunctionName name position => Action.update (·.declareFunctionName name position)
  | markInitialized name offset => Action.update (·.markInitialized name offset)
  | addReference name position access => Action.update (·.addReference name position access)
  | setAccess id access => Action.update (·.setAccess id access)
  | markExported name => Action.update (·.markExported name)
  | addKnown name writable => Action.update (·.addKnown name writable)
  | removeKnown name => Action.update (·.removeKnown name)
  | setRules rules => Action.update (·.setRules rules)
  | setStrict => Action.update (·.setStrict)
  | pushLabel label => Action.update (·.pushLabel label)
  | popLabel => Action.update (·.popLabel)
  | enterLoop => Action.update (·.enterLoop)
  | exitLoop => Action.update (·.exitLoop)
  | enterSwitch => Action.update (·.enterSwitch)
  | exitSwitch => Action.update (·.exitSwitch)
  | recordYield => Action.update (·.recordYield)
  | changeSink change => modify fun s => { s with sink := change s.sink }

/-- Perform an operation and log what happens to references. -/
def log : Operation → Logged Unit
  | exitScope => Logged.exitScope
  | addReference name position access => do
    let t ← Action.tracker
    Logged.note (.recorded t.references.size access)
    perform (addReference name position access)
  | setAccess id access => do
    Logged.note (.accessSet id access)
    perform (setAccess id access)
  | operation => operation.perform

/-- Perform operations in turn. -/
def performAll (operations : List Operation) : Action Unit := operations.forM perform

/-- Perform operations in turn and log what happens to references. -/
def logAll (operations : List Operation) : Logged Unit := operations.forM log

/-- The number of open frames after an operation. -/
def depthAfter (depth : Nat) : Operation → Nat
  | enterScope _ _ | enterFunction _ _ => depth + 1
  | exitScope => depth - 1
  | _ => depth

/-- Whether some frame is open after each of the operations, with `depth` frames open before. -/
def keepOpen (depth : Nat) : List Operation → Bool
  | [] => true
  | operation :: operations =>
    0 < operation.depthAfter depth && keepOpen (operation.depthAfter depth) operations

theorem log_erases (operation : Operation) : operation.log.Erases operation.perform := by
  unfold log
  split
  next => exact .exitScope
  next name position access =>
    -- The look at the tracker is there for the note only.
    change Logged.Erases _ (Action.tracker >>= fun _ => (addReference name position access).perform)
    exact .bind (.lift _) fun t => .note (.lift _) _
  next => exact .note (.lift _) _
  next => exact .lift _

theorem logAll_erases (operations : List Operation) :
    (logAll operations).Erases (performAll operations) := .forM log_erases

end Operation

end ScriptLint.Scope

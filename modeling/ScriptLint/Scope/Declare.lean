import ScriptLint.Scope.Session

/-! # Declarations

How a declared name gets its binding. A `var` and the name of a function come to rest in the frame
of the function and may not pass a declaration of the same name in a block on their way; all other
names are bound in the current frame. A name that is bound there already is either merged with the
new declaration or rejected.
-/

namespace ScriptLint.Scope

namespace Tracker

/-- Whether a new binding in a frame redefines a predefined global. -/
def redefinesGlobal (t : Tracker) (name : String) (target : Nat) : Bool :=
  (t.frame target).kind = .global &&
    (t.known.contains name || (StandardGlobal.writable? name t.rules.edition).isSome)

/-- Whether a frame outside the given one binds the name. -/
def isShadowing (t : Tracker) (name : String) (target : Nat) : Bool :=
  (t.path target).tail.any fun id => ((t.frame id).find? name).any (!·.implicit)

end Tracker

namespace Action

/-- The remarks on a new binding: that it redefines a global, or hides an outer one. -/
def checkNew (name : String) (target : Nat) (position : Position) : Action Unit := do
  let t ← tracker
  if t.redefinesGlobal name target then report "W079" position [name] t.functionName
  if t.rules.shadow = .outer && t.isShadowing name target then
    report "W123" position [name] t.functionName

/-- Add a binding to a frame that does not have the name. -/
def bindNew (target : Nat) (binding : Binding) : Action Unit := do
  checkNew binding.name target binding.declaredAt
  update (·.modifyFrame target (·.insert binding))

/-- Reject a declaration, for the name is taken. -/
def reject (code name : String) (position : Position)
    (hcode : Halt.IsRegular code := by decide) : Action Unit := do
  report code position [name] (← tracker).functionName hcode

/-- Where the dead zone of a declared name ends at first: after the name. -/
def afterName (name : String) (position : Position) : Nat := position.offset + name.utf8ByteSize

/-- Declare a `var` or the name of a function in the current function. A second declaration joins
the first; the block that holds a `var` is forgotten once one is directly in the function. -/
def declareHoisted (name : String) (kind : BindingKind) (position : Position) : Action Unit := do
  let t ← tracker
  let target := t.functionId
  -- One of the blocks that the name would pass through declares it.
  if t.innerIds.any fun id => (t.frame id).blocksVar name then reject "E011" name position
  else
    update fun t => t.innerIds.foldl (fun t id => t.modifyFrame id (·.hoist name)) t
    let block? := if t.currentId = target then none else some t.currentId
    match (t.frame target).find? name with
    | none => bindNew target { name, kind, declaredAt := position, block? }
    | some existing =>
      if existing.kind.isLexical || existing.kind = .imported then reject "E011" name position
      else
        let merged := { existing with
          kind := if kind = .function then .function else existing.kind
          block? := if block?.isNone then none else existing.block?
          implicit := false }
        update (·.modifyFrame target (·.modify name fun _ => merged))
        -- The name that a function expression has in its own body is no earlier declaration.
        let repeated := !existing.implicit && (merged.kind = .varName || merged.kind = .function)
        if repeated && t.rules.shadow ≠ .allow then reject "W004" name position

/-- Declare a name in the current frame. The name that a function expression has in its own body
gives way. -/
def declareLexical (name : String) (kind : BindingKind) (position : Position) : Action Unit := do
  let t ← tracker
  let target := t.currentId
  let initializedAt := afterName name position
  match (t.frame target).find? name with
  | some existing =>
    if existing.implicit then
      update (·.modifyFrame target (·.modify name fun b =>
        { b with kind, implicit := false, declaredAt := position, initializedAt }))
    else reject "E011" name position
  | none =>
    if (t.frame target).hoisted.contains name then reject "E011" name position
    else
      bindNew target
        { name, kind, declaredAt := position
          initializedAt := if kind.isLexical then initializedAt else 0 }

/-- Declare the name of a function in its block. Outside strict code it may be repeated. -/
def declareBlockFunction (name : String) (position : Position) : Action Unit := do
  let t ← tracker
  let target := t.currentId
  match (t.frame target).find? name with
  | some existing =>
    if existing.kind ≠ .function || t.isStrict then reject "E011" name position
  | none =>
    if (t.frame target).hoisted.contains name then reject "E011" name position
    else bindNew target { name, kind := .function, declaredAt := position }

/-- Declare a parameter of the current function. A repeated name is an error in a list that must
be free of repetitions, and a warning in others. -/
def declareParameter (name : String) (position : Position) (distinct : Bool) : Action Unit := do
  let t ← tracker
  let target := t.functionId
  let initializedAt := afterName name position
  match (t.frame target).find? name with
  | some existing =>
    if existing.implicit then
      update (·.modifyFrame target (·.modify name fun b =>
        { b with kind := .parameter, implicit := false, declaredAt := position, initializedAt }))
    else if distinct then reject "E011" name position
    else reject "W004" name position
  | none => bindNew target { name, kind := .parameter, declaredAt := position, initializedAt }

def declare (name : String) (kind : BindingKind) (position : Position) : Action Unit :=
  match kind with
  | .varName | .function => declareHoisted name kind position
  | .parameter => declareParameter name position false
  | _ => declareLexical name kind position

end Action

end ScriptLint.Scope

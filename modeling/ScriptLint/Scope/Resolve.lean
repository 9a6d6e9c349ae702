import ScriptLint.Scope.Session

/-! # Resolution

What happens when a frame closes. Only then are all its declarations known, so only then are its
references resolved, in the order in which they were recorded: a name that the frame binds is found,
and any other reference moves on to the frame outside. What the global frame does not bind is a
predefined global or an implied one. Last, the bindings of the frame that were never used are
listed.
-/

namespace ScriptLint.Scope

/-- Whether a reference to a binding lies in its dead zone. -/
def Reference.inDeadZone (r : Reference) (b : Binding) : Bool :=
  b.kind.hasDeadZone && !r.crossedFunction && r.position.offset < b.initializedAt

/-- Whether a reference to a `var` or a function precedes its declaration. -/
def Reference.isEarly (r : Reference) (b : Binding) : Bool :=
  (b.kind = .varName || b.kind = .function) && !r.crossedFunction &&
    r.position.offset < b.declaredAt.offset

/-- What a report says: a code, none of a terminal diagnostic, with the arguments of its message. -/
structure Remark where
  code : String
  arguments : List String
  regular : Halt.IsRegular code := by decide
deriving Repr

/-- The remark on an assignment to a binding, if it deserves one. -/
def Binding.writeRemark? (b : Binding) : Option Remark :=
  match b.kind with
  | .constName | .imported => some { code := "E013", arguments := [b.name] }
  | .function | .className => some { code := "W021", arguments := [b.name, b.kind.word] }
  | .exception => some { code := "W022", arguments := [] }
  | .varName | .letName | .parameter => none

/-- The binding after a reference to it was found. -/
def Binding.touch (b : Binding) (r : Reference) : Binding :=
  { b with
    used := b.used || r.access ≠ .write
    deadZoneUse? := if r.inDeadZone b then b.deadZoneUse? <|> some r.position else b.deadZoneUse? }

/-- The list with a use of a global on a line added. -/
def addImplied (name : String) (line : Nat) : List ImpliedGlobal → List ImpliedGlobal
  | [] => [⟨name, [line]⟩]
  | g :: gs =>
    if g.name == name then
      (if g.lines.contains line then g else { g with lines := g.lines ++ [line] }) :: gs
    else g :: addImplied name line gs

/-- Whether an unused binding is exempt from the remark, where `exported` tells the names that
are. -/
def Binding.isExempt (b : Binding) (exported : String → Bool) : Bool :=
  b.used || b.implicit || b.kind = .exception || exported b.name

/-- The bindings of a frame that are listed as unused. A parameter is listed according to the rule;
where that looks at its place, no later parameter may be used. -/
def unusedBindings (rule : UnusedRule) (exported : String → Bool) : List Binding → List Binding
  | [] => []
  | b :: rest =>
    let listed := !b.isExempt exported &&
      (b.kind ≠ .parameter ||
        match rule with
        | .vars => false
        | .strict => true
        | .off | .lastParam => !rest.any fun later => later.kind = .parameter && later.used)
    if listed then b :: unusedBindings rule exported rest else unusedBindings rule exported rest

namespace Action

/-- The remark on a use that comes too early: in the dead zone, or before the declaration. -/
def remarkEarly (b : Binding) (r : Reference) (scope : String) : Action Unit := do
  let t ← tracker
  if r.inDeadZone b then report "E056" r.position [b.name, b.kind.word] scope
  else if t.rules.latedef && r.isEarly b then report "W003" r.position [b.name] scope

def remarkWrite (b : Binding) (r : Reference) (scope : String) : Action Unit :=
  match b.writeRemark? with
  | some remark =>
    if r.access.writes then report remark.code r.position remark.arguments scope remark.regular
    else pure ()
  | none => pure ()

/-- The remark on a use of a `var` outside the block that declares it. -/
def remarkOutside (b : Binding) (r : Reference) (scope : String) : Action Unit := do
  let t ← tracker
  match b.block? with
  | some block =>
    let limited := b.kind = .varName && !t.rules.funcscope && !r.crossedFunction
    if limited && !t.isWithin r.origin block then report "W038" r.position [b.name] scope
  | none => pure ()

/-- Resolve a reference to a binding of a frame. -/
def resolveTo (frame : Nat) (b : Binding) (r : Reference) : Action Unit := do
  update (·.modifyFrame frame (·.modify b.name (·.touch r)))
  let scope := (← tracker).functionNameOf r.origin
  remarkEarly b r scope
  remarkWrite b r scope
  remarkOutside b r scope

/-- Resolve a reference that no frame binds. -/
def resolveGlobal (r : Reference) : Action Unit := do
  let t ← tracker
  let scope := t.functionNameOf r.origin
  match t.known.writable? r.name <|> StandardGlobal.writable? r.name t.rules.edition with
  | some writable => if r.access.writes && !writable then report "W020" r.position [] scope
  | none =>
    -- What `typeof` asks about need not exist.
    if r.access ≠ .typeOf then
      update fun t => { t with implied := addImplied r.name r.position.line t.implied }
      if t.rules.undef then report "W117" r.position [r.name] scope

/-- Resolve a reference in a closing frame, or move it on to the frame outside. -/
def resolve (frame id : Nat) : Action Unit := do
  let t ← tracker
  let r := t.reference id
  match (t.frame frame).find? r.name, (t.frame frame).parent? with
  | some b, _ => resolveTo frame b r
  | none, some parent =>
    if (t.frame frame).kind = .function then
      update (·.modifyReference id fun r => { r with crossedFunction := true })
    update (·.modifyFrame parent fun f => { f with pending := id :: f.pending })
  | none, none => resolveGlobal r

/-- Resolve all references of a closing frame, in the order in which they were recorded. -/
def resolveAll (frame : Nat) : Action Unit := do
  -- References from inner frames came in when those closed, so they are out of order.
  let pending := ((← tracker).frame frame).pending.mergeSort
  update (·.modifyFrame frame fun f => { f with pending := [] })
  pending.forM (resolve frame)

/-- List the unused bindings of a closed frame. -/
def reportUnused (frame : Nat) : Action Unit := do
  let t ← tracker
  let scope := t.functionNameOf frame
  let found := unusedBindings t.rules.unused t.exported.contains (t.frame frame).bindings
  found.forM fun b => do
    update fun t => { t with unused := t.unused ++ [⟨b.name, b.kind, b.declaredAt, scope⟩] }
    if t.rules.unused ≠ .off then report "W098" b.declaredAt [b.name] scope

/-- Close the innermost frame. -/
def exitScope : Action Unit := do
  match (← tracker).stack with
  | [] => pure ()
  | id :: stack =>
    update fun t => { t with stack }.modifyFrame id fun f => { f with state := .closing }
    resolveAll id
    update (·.modifyFrame id fun f => { f with state := .closed })
    reportUnused id

/-- Close all frames, the global one last. -/
def finish : Action Unit := do
  (← tracker).stack.forM fun _ => exitScope

end Action

end ScriptLint.Scope

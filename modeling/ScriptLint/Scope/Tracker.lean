import ScriptLint.Globals
import ScriptLint.Scope.Basic

/-! # The scope tracker

The state of scope analysis while a program is read: all frames that were ever opened, those that
are open now, and all references. A frame has a greater number than the one around it, so the way
from a frame outwards ends. This module holds the queries and the changes that report nothing.
-/

namespace ScriptLint.Scope

/-- The state of scope analysis. -/
structure Tracker where
  frames : Array Frame
  /-- The open frames, innermost first. -/
  stack : List Nat
  references : Array Reference := #[]
  known : KnownGlobals
  rules : Rules
  /-- The globals implied so far. -/
  implied : List ImpliedGlobal := []
  /-- The names marked as exported, in order. -/
  exported : List String := []
  /-- The unused bindings found so far. -/
  unused : List UnusedBinding := []
deriving Repr, Inhabited

namespace Tracker

def frame (t : Tracker) (id : Nat) : Frame := t.frames.getD id default

def reference (t : Tracker) (id : Nat) : Reference := t.references.getD id default

def modifyFrame (id : Nat) (change : Frame → Frame) (t : Tracker) : Tracker :=
  { t with frames := t.frames.modify id change }

def modifyReference (id : Nat) (change : Reference → Reference) (t : Tracker) : Tracker :=
  { t with references := t.references.modify id change }

/-- Open a frame. -/
def push (frame : Frame) (t : Tracker) : Tracker :=
  { t with frames := t.frames.push frame, stack := t.frames.size :: t.stack }

/-- The tracker at the beginning of a program: the global frame is open and, in a module, the frame
of the module. -/
def start (known : KnownGlobals) (rules : Rules) (module strict : Bool) : Tracker :=
  let t : Tracker := { frames := #[{ kind := .global, strict }], stack := [0], known, rules }
  if module then t.push { kind := .module, parent? := some 0, strict := true } else t

/-! ## Queries -/

/-- The number of the innermost open frame; that of the global one once all are closed. -/
def currentId (t : Tracker) : Nat := t.stack.headD 0

def current (t : Tracker) : Frame := t.frame t.currentId

/-- The frames of a list up to the first one that holds `var` declarations. -/
def upToFunction (t : Tracker) : List Nat → List Nat
  | [] => []
  | id :: outer => if (t.frame id).kind.holdsVars then [id] else id :: t.upToFunction outer

/-- The open frames of the current function, innermost first and the function itself last. -/
def functionIds (t : Tracker) : List Nat := t.upToFunction t.stack

/-- The open frames inside the current function, innermost first. -/
def innerIds (t : Tracker) : List Nat := t.functionIds.dropLast

/-- The number of the innermost frame that holds `var` declarations. -/
def functionId (t : Tracker) : Nat := t.functionIds.getLastD 0

/-- The frame of the current function, or of the program. -/
def functionFrame (t : Tracker) : Frame := t.frame t.functionId

/-- The innermost function that is not an arrow function. -/
def ownerFunction? (t : Tracker) : Option Frame :=
  (t.stack.map t.frame).find? fun f => f.kind = .function && !f.facts.arrow

def inFunction (t : Tracker) : Bool := t.functionFrame.kind = .function

/-- Whether the current place is directly in the program, outside any block. -/
def atTopLevel (t : Tracker) : Bool := t.current.kind = .global || t.current.kind = .module

def isStrict (t : Tracker) : Bool := t.functionIds.any fun id => (t.frame id).strict

def functionName (t : Tracker) : String := t.functionFrame.name

/-- The frames from one outwards. -/
def path (t : Tracker) (id : Nat) : List Nat :=
  match (t.frame id).parent? with
  | none => [id]
  | some parent => if parent < id then id :: t.path parent else [id]
termination_by id

/-- The name of the function around a frame. -/
def functionNameOf (t : Tracker) (id : Nat) : String :=
  match ((t.path id).map t.frame).find? (·.kind.holdsVars) with
  | some f => f.name
  | none => mainName

/-- Whether one frame is another or lies inside it. -/
def isWithin (t : Tracker) (id ancestor : Nat) : Bool := (t.path id).contains ancestor

/-- Whether a name is declared in an open frame. -/
def isDeclared (t : Tracker) (name : String) : Bool :=
  t.stack.any fun id => ((t.frame id).find? name).isSome

/-- The innermost label of a name in the current function. -/
def label? (t : Tracker) (name : String) : Option Label :=
  t.functionFrame.labels.find? (·.name == name)

/-- What was found out about names so far. It is complete once all frames are closed. -/
def summary (t : Tracker) : Summary :=
  { impliedGlobals := t.implied
    declaredGlobals := (t.frame 0).bindings.map (·.name)
    unused := t.unused
    exported := t.exported }

/-! ## Changes that report nothing -/

def setRules (rules : Rules) (t : Tracker) : Tracker := { t with rules }

def addKnown (name : String) (writable : Bool) (t : Tracker) : Tracker :=
  { t with known := t.known.insert name writable }

def removeKnown (name : String) (t : Tracker) : Tracker := { t with known := t.known.erase name }

def markExported (name : String) (t : Tracker) : Tracker :=
  if t.exported.contains name then t else { t with exported := t.exported ++ [name] }

/-- Open a block, a `catch` clause or a class body. The code of a class is strict. -/
def enterScope (kind : FrameKind) (start : Position) (t : Tracker) : Tracker :=
  t.push
    { kind, parent? := some t.currentId, name := t.functionName, start, strict := kind = .classBody }

/-- Open a function. It inherits the strictness of the code around it. -/
def enterFunction (facts : FunctionFacts) (start : Position) (t : Tracker) : Tracker :=
  t.push
    { kind := .function
      parent? := some t.currentId
      name := if facts.name.isEmpty then "(anonymous)" else facts.name
      start
      strict := t.isStrict
      facts }

def modifyFunction (change : Frame → Frame) (t : Tracker) : Tracker :=
  t.modifyFrame t.functionId change

def setStrict (t : Tracker) : Tracker := t.modifyFunction fun f => { f with strict := true }

/-- Put a label on the statement that follows. -/
def pushLabel (label : Label) (t : Tracker) : Tracker :=
  t.modifyFunction fun f => { f with labels := label :: f.labels }

/-- Take the innermost label away. -/
def popLabel (t : Tracker) : Tracker := t.modifyFunction fun f => { f with labels := f.labels.tail }

def enterLoop (t : Tracker) : Tracker :=
  t.modifyFunction fun f =>
    { f with loopDepth := f.loopDepth + 1, breakableDepth := f.breakableDepth + 1 }

def exitLoop (t : Tracker) : Tracker :=
  t.modifyFunction fun f =>
    { f with loopDepth := f.loopDepth - 1, breakableDepth := f.breakableDepth - 1 }

def enterSwitch (t : Tracker) : Tracker :=
  t.modifyFunction fun f => { f with breakableDepth := f.breakableDepth + 1 }

def exitSwitch (t : Tracker) : Tracker :=
  t.modifyFunction fun f => { f with breakableDepth := f.breakableDepth - 1 }

/-- Count a `yield` of the current function. -/
def recordYield (t : Tracker) : Tracker :=
  t.modifyFunction fun f => { f with yields := f.yields + 1 }

/-- Bind the name of a function expression inside its own body, unless it is bound there. -/
def declareFunctionName (name : String) (position : Position) (t : Tracker) : Tracker :=
  t.modifyFunction fun f =>
    if (f.find? name).isSome then f
    else f.insert { name, kind := .function, declaredAt := position, implicit := true }

/-- End the dead zone of a name at an offset. The name is searched from the current frame up to
that of the current function. -/
def markInitialized (name : String) (offset : Nat) (t : Tracker) : Tracker :=
  match t.functionIds.find? fun id => ((t.frame id).find? name).isSome with
  | none => t
  | some id =>
    t.modifyFrame id fun f => f.modify name fun b =>
      if b.kind.hasDeadZone then { b with initializedAt := offset } else b

/-- Record a use of a name in the current frame. Its number is that of the references before it. -/
def addReference (name : String) (position : Position) (access : Access) (t : Tracker) : Tracker :=
  let id := t.references.size
  let origin := t.currentId
  { t with references := t.references.push { name, position, access, origin } }.modifyFrame origin
    fun f => { f with pending := id :: f.pending }

/-- Change how a recorded reference uses its variable. -/
def setAccess (id : Nat) (access : Access) (t : Tracker) : Tracker :=
  t.modifyReference id fun r => { r with access }

end Tracker

end ScriptLint.Scope

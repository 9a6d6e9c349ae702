import ScriptLint.Options.Basic
import ScriptLint.Position

/-! # Scopes

The parts of scope analysis. A frame is a region of a program with names of its own: the whole
program, a function, a block. It holds the bindings declared in it, in order, and the references to
names that are still to be resolved. Frames and references are addressed by number.
-/

namespace ScriptLint.Scope

/-- What opened a frame. -/
inductive FrameKind where
  /-- A script. -/
  | global
  /-- A module. -/
  | module
  /-- A function, with its parameters. -/
  | function
  /-- A block, the head of a loop, or the body of a `switch`. -/
  | block
  /-- A `catch` clause, with its parameter. -/
  | catchClause
  | classBody
deriving Repr, DecidableEq, Inhabited

/-- Whether `var` declarations come to rest in such a frame. -/
def FrameKind.holdsVars : FrameKind → Bool
  | .global | .module | .function => true
  | .block | .catchClause | .classBody => false

/-- How far a frame has come. -/
inductive FrameState where
  /-- Declarations and references are still added. -/
  | opened
  /-- Its references are being resolved. -/
  | closing
  | closed
deriving Repr, DecidableEq, Inhabited

/-- What declared a binding. -/
inductive BindingKind where
  | varName
  | letName
  | constName
  | function
  | parameter
  | className
  /-- The parameter of a `catch` clause. -/
  | exception
  | imported
deriving Repr, DecidableEq, Inhabited

namespace BindingKind

/-- Whether the declaration is one of its block, with a dead zone before it. -/
def isLexical : BindingKind → Bool
  | letName | constName | className => true
  | _ => false

/-- Whether a use may fall into a dead zone of the binding. -/
def hasDeadZone (kind : BindingKind) : Bool := kind.isLexical || kind = parameter

/-- Whether the binding can never be assigned. -/
def isConstant : BindingKind → Bool
  | constName | imported => true
  | _ => false

/-- The word for the kind in messages. -/
def word : BindingKind → String
  | varName => "var"
  | letName => "let"
  | constName => "const"
  | function => "function"
  | parameter => "param"
  | className => "class"
  | exception => "exception"
  | imported => "import"

end BindingKind

/-- How a reference uses its variable. -/
inductive Access where
  | read
  | write
  /-- A compound assignment or an update. -/
  | readWrite
  /-- The operand of `typeof`, which need not exist. -/
  | typeOf
deriving Repr, DecidableEq, Inhabited

/-- Whether the variable is assigned. -/
def Access.writes : Access → Bool
  | write | readWrite => true
  | read | typeOf => false

/-- A declared name. -/
structure Binding where
  name : String
  kind : BindingKind
  declaredAt : Position
  /-- The offset at which the dead zone ends. -/
  initializedAt : Nat := 0
  /-- The first reference inside the dead zone. -/
  deadZoneUse? : Option Position := none
  /-- Whether the value is ever read. -/
  used : Bool := false
  /-- The block that holds the `var` declaration, unless one is directly in the function. -/
  block? : Option Nat := none
  /-- Whether this is the name that a function expression has in its own body. -/
  implicit : Bool := false
deriving Repr, DecidableEq, Inhabited

/-- A use of a name. -/
structure Reference where
  name : String
  position : Position
  access : Access
  /-- The frame in which it stands. -/
  origin : Nat
  /-- Whether the search for the name has left a function. -/
  crossedFunction : Bool := false
deriving Repr, DecidableEq, Inhabited

/-- A statement label. -/
structure Label where
  name : String
  /-- Whether it stands on a loop. -/
  iteration : Bool
  position : Position
deriving Repr, DecidableEq, Inhabited

/-- What is known of a function when it is entered. -/
structure FunctionFacts where
  name : String := ""
  generator : Bool := false
  async : Bool := false
  arrow : Bool := false
  /-- Whether it is a method of an object or a class. -/
  method : Bool := false
  /-- Whether it is the constructor of a class. -/
  constructor : Bool := false
deriving Repr, DecidableEq, Inhabited

/-- The name of top-level code. -/
def mainName : String := "(main)"

/-- A scope. -/
structure Frame where
  kind : FrameKind
  parent? : Option Nat := none
  state : FrameState := .opened
  /-- The name of the enclosing function. -/
  name : String := mainName
  start : Position := .start
  strict : Bool := false
  facts : FunctionFacts := {}
  /-- The number of `yield` expressions in this function. -/
  yields : Nat := 0
  /-- The number of loops around the current place in this function. -/
  loopDepth : Nat := 0
  /-- The number of loops and `switch` statements around it. -/
  breakableDepth : Nat := 0
  /-- The labels around it, innermost first. -/
  labels : List Label := []
  /-- The bindings in the order of their declaration. A name is bound once at most. -/
  bindings : List Binding := []
  /-- The places of the names in the list of bindings. -/
  index : List (String × Nat) := []
  /-- The names of `var` declarations that passed through on their way to the function. -/
  hoisted : List String := []
  /-- The references that are still to be resolved, in no particular order. -/
  pending : List Nat := []
deriving Repr, DecidableEq, Inhabited

namespace Frame

/-- The binding of a name in this frame. -/
def find? (f : Frame) (name : String) : Option Binding :=
  (f.index.lookup name).bind (f.bindings[·]?)

/-- The frame with one more binding. -/
def insert (f : Frame) (binding : Binding) : Frame :=
  { f with
    bindings := f.bindings ++ [binding]
    index := (binding.name, f.bindings.length) :: f.index }

/-- The frame with the binding of a name changed. -/
def modify (f : Frame) (name : String) (change : Binding → Binding) : Frame :=
  match f.index.lookup name with
  | some place => { f with bindings := f.bindings.modify place change }
  | none => f

/-- The frame with a name recorded as passed through. -/
def hoist (f : Frame) (name : String) : Frame :=
  if f.hoisted.contains name then f else { f with hoisted := name :: f.hoisted }

/-- Whether a `var` of the name may not pass through or come to rest here. -/
def blocksVar (f : Frame) (name : String) : Bool :=
  (f.find? name).any fun b => b.kind.isLexical || b.kind = .function

end Frame

/-- The options on which scope analysis depends. -/
structure Rules where
  edition : Edition
  undef : Bool
  unused : UnusedRule
  latedef : Bool
  shadow : ShadowRule
  funcscope : Bool
deriving Repr, DecidableEq, Inhabited

/-- The rules that the options of an analysis give. -/
def Rules.ofOptions (o : Options) : Rules :=
  { edition := o.edition, undef := o.undef, unused := o.unused, latedef := o.latedef,
    shadow := o.shadow, funcscope := o.funcscope }

/-- A global that is used without being declared or predefined. -/
structure ImpliedGlobal where
  name : String
  /-- The lines of its uses, in the order of the first use on each. -/
  lines : List Nat
deriving Repr, DecidableEq, Inhabited

/-- A binding that is never used. -/
structure UnusedBinding where
  name : String
  kind : BindingKind
  position : Position
  /-- The name of the enclosing function. -/
  scope : String
deriving Repr, DecidableEq, Inhabited

/-- What an analysis finds out about names. -/
structure Summary where
  /-- The implied globals in the order of their first use. -/
  impliedGlobals : List ImpliedGlobal := []
  /-- The names declared in the global scope, in order. -/
  declaredGlobals : List String := []
  /-- The unused bindings in the order in which their scopes close. -/
  unused : List UnusedBinding := []
  /-- The names marked as exported. -/
  exported : List String := []
deriving Repr, DecidableEq, Inhabited

end ScriptLint.Scope

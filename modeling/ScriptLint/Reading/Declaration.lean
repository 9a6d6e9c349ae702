import ScriptLint.Reading.Production

/-! # Variable declarations

Lists of declarations after `var`, `let` or `const`, in statements and in the heads of loops.
-/

namespace ScriptLint.Reading

open Scope (BindingKind)

/-- What a list of declarations holds. -/
structure Declarations where
  /-- The names, from left to right. -/
  names : List BoundName := []
  /-- The number of names and patterns as they are written. -/
  count : Nat := 0
  /-- Whether one of them has an initial value. -/
  initialized : Bool := false
deriving Repr, DecidableEq, Inhabited

/-- Whether the word `let` begins a declaration if `next` comes after it. -/
def letDeclares (next : Token) : Bool :=
  match next.lexeme with
  | .identifier _ => true
  | .keyword _ => !(["in", "instanceof"].any next.isKeyword)
  | _ => next.isPunctuator "[" || next.isPunctuator "\x7b"

/-- Report a constant without an initial value. -/
def reportUninitialized (name : String) (position : Position) : Reading Unit :=
  report "E012" position [name]

/-- Report a variable whose initial value is the one it would have without. -/
def reportUndefinedValue (name : String) (position : Position) : Reading Unit :=
  report "W080" position [name]

/-- Report something about the first name of a target, if there is one. -/
def reportFirst (fault : String → Position → Reading Unit) (names : List BoundName) :
    Reading Unit :=
  match names with
  | [] => pure ()
  | first :: _ => fault first.name first.position

/-- Check an initial value: `undefined` needs not be written, and an assignment as the value should
have a declared target. -/
def checkInitializer (kind : BindingKind) (target : BindingTarget) (value : Expression) :
    Reading Unit := do
  if target.plain && kind ≠ .constName && value.isName "undefined" then
    reportFirst reportUndefinedValue target.names
  match value.kind with
  | .assignment (some (name, _)) =>
    if !value.parenthesized && !(← tracker).isDeclared name then
      report "W120" value.position [name]
  | _ => pure ()

/-- The initial value after `=`, where the dead zones of the names end. -/
def initializer (self : Productions) (kind : BindingKind) (target : BindingTarget) :
    Reading Unit := do
  advance
  let value ← self.element
  checkInitializer kind target value
  if kind.isLexical then
    let stop := (← previous).endPosition.offset
    target.names.forM fun bound => track (·.markInitialized bound.name stop)

/-- A name or a pattern of a list with its initial value. A constant has to have one, except in the
head of a loop, where it is looked at later. -/
def declarator (self : Productions) (kind : BindingKind) (inHead : Bool) (ds : Declarations) :
    Reading Declarations := do
  let target ← self.bindingTarget
  declareAll kind target.names
  let initialized ← atPunctuator "="
  if initialized then initializer self kind target
  else if kind = .constName && !inHead then reportFirst reportUninitialized target.names
  pure
    { names := ds.names ++ target.names
      count := ds.count + 1
      initialized := ds.initialized || initialized }

/-- The next name or pattern of a list with the comma after it. -/
def declaratorRound (self : Productions) (kind : BindingKind) (inHead : Bool) (ds : Declarations) :
    Reading (Round Declarations Declarations) := do
  let ds ← declarator self kind inHead ds
  if ← acceptPunctuator "," then pure (.again ds) else pure (.done ds)

/-- A list of declarations of a kind, from its word on. -/
def declarations (self : Productions) (kind : BindingKind) (inHead : Bool) :
    Reading Declarations := do
  if kind ≠ .varName then requireModern kind.word (← token).position
  advance
  repeatFrom {} (declaratorRound self kind inHead)

end ScriptLint.Reading

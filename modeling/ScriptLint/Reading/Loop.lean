import ScriptLint.Reading.Branch
import ScriptLint.Reading.Declaration
import ScriptLint.Reading.Pattern

/-! # Loops

The loops of the language. The head of a `for` loop has a scope of its own, and what follows its
first part decides which of the kinds it is.
-/

namespace ScriptLint.Reading

open Scope (BindingKind)

def loopBody (self : Productions) : Reading Statement := do
  track (·.enterLoop)
  let body ← self.statement false
  track (·.exitLoop)
  pure body

def whileStatement (self : Productions) : Reading Statement := do
  advance
  condition self
  let _ ← loopBody self
  pure { kind := .loop }

def doStatement (self : Productions) : Reading Statement := do
  advance
  let _ ← loopBody self
  expectKeyword "while"
  condition self
  endStatement true
  pure { kind := .loop }

/-! ## `for` loops -/

/-- The first part of the head of a `for` loop. -/
inductive LoopHead where
  | empty
  | declarations (kind : BindingKind) (ds : Declarations)
  | expression (e : Expression)
deriving Repr, Inhabited

/-- The kind of the declaration that comes next, if one does. -/
def declarationKind? : Reading (Option BindingKind) := do
  let t ← token
  if t.isKeyword "var" then pure (some .varName)
  else if t.isKeyword "const" then pure (some .constName)
  else if t.isName "let" then return if letDeclares (← peek) then some .letName else none
  else pure none

/-- Whether a pattern comes next over which a loop runs. -/
def atLoopPattern : Reading Bool := do
  let t ← token
  if t.isPunctuator "[" || t.isPunctuator "\x7b" then
    let after ← tokenAfterGroup
    pure (after.isKeyword "in" || after.isName "of")
  else pure false

/-- Take a step in which `in` is no operator. -/
def excludingIn {α : Type} (step : Reading α) : Reading α := do
  setInExcluded true
  let a ← step
  setInExcluded false
  pure a

/-- The first part of the head of a `for` loop. -/
def loopHead (self : Productions) : Reading LoopHead := do
  if ← atPunctuator ";" then pure .empty
  else
    match ← declarationKind? with
    | some kind => return .declarations kind (← excludingIn (declarations self kind true))
    | none =>
      if ← atLoopPattern then return .expression (← assignmentPatternExpression self)
      else return .expression (← excludingIn self.anyExpression)

/-- The kinds of loops over something. -/
inductive Iteration where
  /-- Over the keys of an object. -/
  | keys
  /-- Over the values of a sequence. -/
  | values
deriving Repr, DecidableEq, Inhabited

/-- The word for the kind. -/
def Iteration.word : Iteration → String
  | .keys => "in"
  | .values => "of"

/-- The kind of iteration that the next token announces. -/
def iteration? : Reading (Option Iteration) := do
  let t ← token
  if t.isName "of" then pure (some .values)
  else if t.isKeyword "in" then pure (some .keys)
  else pure none

/-- Check what a loop declares for the current key or value: one variable without an initial value,
which only old code may give to a `var`. -/
def checkLoopDeclarations (kind : BindingKind) (ds : Declarations) (iteration : Iteration)
    (position : Position) : Reading Unit := do
  let strict ← isStrict
  if ds.count > 1 then report "W133" position [iteration.word, "more than one ForBinding"]
  let tolerated := iteration = .keys && kind = .varName && !strict
  if ds.initialized && !tolerated then
    report "W133" position [iteration.word, "initializer is forbidden"]

/-- Record that a loop assigns to an expression. -/
def loopTarget (target : Expression) : Reading Unit := do
  match target.kind, target.parenthesized with
  | .identifier name reference, false =>
    -- The name was read as an operand before it turned out to be a target.
    track (·.setAccess reference .write)
    if !(← tracker).isDeclared name then report "W088" target.position [name]
  | _, _ => assignmentTarget target .write

/-- The rest of a loop over something, from `in` or `of` on. A loop over keys should begin with a
condition that filters them, if that is asked for. -/
def iterationRest (self : Productions) (iteration : Iteration) (position : Position) : Reading Unit := do
  advance
  match iteration with
  | .values =>
    requireEdition "for of" .es2015 position
    let _ ← self.element
  | .keys =>
    let _ ← self.anyExpression
  expectPunctuator ")"
  let body ← loopBody self
  let filters := body.filtered || body.kind = .conditional
  if iteration = .keys && (← options).forin && !filters then report "W089" position []

/-- The rest of a loop with a condition and a step, from the first semicolon on. -/
def countedRest (self : Productions) : Reading Unit := do
  expectPunctuator ";"
  if !(← atPunctuator ";") then
    let e ← self.anyExpression
    checkCondition e
  expectPunctuator ";"
  if !(← atPunctuator ")") then
    let _ ← self.anyExpression
  expectPunctuator ")"
  let _ ← loopBody self

/-- The rest of a `for` loop after the first part of its head. -/
def forRest (self : Productions) (position : Position) (head : LoopHead) : Reading Unit := do
  match head, ← iteration? with
  | .declarations kind ds, some iteration =>
    checkLoopDeclarations kind ds iteration position
    iterationRest self iteration position
  | .expression target, some iteration =>
    loopTarget target
    iterationRest self iteration position
  | .declarations .constName ds, none =>
    -- Only now is it clear that the head does not give the constant its values.
    if !ds.initialized then reportUninitialized ((ds.names.head?.map (·.name)).getD "") position
    countedRest self
  | _, _ => countedRest self

def forStatement (self : Productions) : Reading Statement := do
  let position := (← token).position
  advance
  let t ← token
  if t.isName "await" && (← inAsync) then
    requireEdition "asynchronous iteration" .es2018 t.position
    advance
  expectPunctuator "("
  track (·.enterScope .block position)
  let head ← loopHead self
  forRest self position head
  inScopes Scope.Action.exitScope
  pure { kind := .loop }

end ScriptLint.Reading

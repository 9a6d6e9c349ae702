import ScriptLint.Reading.Body
import ScriptLint.Reading.Production

/-! # Blocks, branches and jumps

The statements by which control goes one way or another, loops left aside.
-/

/-! ## Blocks and branches

Blocks, and the statements that choose between statements: `if`, `switch`, `try` and `with`.
-/

namespace ScriptLint.Reading

/-- A block in its braces, with a scope of its own. -/
def block (self : Productions) : Reading Statement := do
  let t ← token
  if t.isPunctuator "\x7b" then
    advance
    track (·.enterScope .block t.position)
    let body ← statementList self false
    inScopes Scope.Action.exitScope
    expectPunctuator "\x7d"
    pure body
  else
    expectPunctuator "\x7b"
    pure { kind := .other }

/-- An expression in parentheses after the word of a statement. -/
def subject (self : Productions) : Reading Expression := do
  expectPunctuator "("
  let e ← allowingIn self.anyExpression
  expectPunctuator ")"
  pure e

/-- Report an assignment where a condition is expected. -/
def checkCondition (condition : Expression) : Reading Unit := do
  if condition.isBareAssignment && !(← options).boss then report "W084" condition.position []

def condition (self : Productions) : Reading Unit := do
  let e ← subject self
  checkCondition e

/-- An `if` statement. Control gets past it unless it leaves both branches. -/
def ifStatement (self : Productions) : Reading Statement := do
  advance
  condition self
  let first ← self.statement false
  if ← atKeyword "else" then
    advance
    let second ← self.statement false
    pure { kind := .conditional, exits := first.exits && second.exits }
  else pure { kind := .conditional }

/-- A `with` statement, which strict code may not have. -/
def withStatement (self : Productions) : Reading Statement := do
  let position := (← token).position
  if ← isStrict then report "E010" position []
  else if !(← options).withstmt then report "W085" position []
  advance
  let _ ← subject self
  let _ ← self.statement false
  pure { kind := .other }

/-! ### `switch` -/

/-- How far a clause of a `switch` has got. -/
inductive Clause where
  | none
  /-- No statement has come after the colon. -/
  | empty
  /-- A statement has come, with whether control never gets past it. -/
  | running (exits : Bool)
deriving Repr, DecidableEq, Inhabited

/-- The beginning of a clause. Running into it from the clause before is reported unless a comment
announces it. -/
def clauseHead (self : Productions) (before : Clause) : Reading Unit := do
  let t ← token
  let announced := t.directives.any (·.kind = .fallsThrough)
  if before = .running false && !announced then report "W086" t.position [t.raw]
  advance
  if t.isKeyword "case" then
    let _ ← allowingIn self.anyExpression
  expectPunctuator ":"

/-- A clause head or a statement of a `switch`. -/
def switchRound (self : Productions) (clause : Clause) : Reading (Round Clause Unit) := do
  let t ← token
  if t.isPunctuator "\x7d" || t.isEnd then pure (.done ())
  else if t.isKeyword "case" || t.isKeyword "default" then
    clauseHead self clause
    pure (.again .empty)
  else
    -- A statement in front of all clauses is read like any other.
    if clause = .none then reportInstead "case" t
    let statement ← self.statement true
    let after ← token
    if after.position.offset == t.position.offset && !after.isEnd then advance
    pure (.again (.running statement.exits))

def switchStatement (self : Productions) : Reading Statement := do
  let position := (← token).position
  advance
  let _ ← subject self
  expectPunctuator "\x7b"
  track (·.enterScope .block position)
  track (·.enterSwitch)
  repeatFrom .none (switchRound self)
  track (·.exitSwitch)
  inScopes Scope.Action.exitScope
  expectPunctuator "\x7d"
  pure { kind := .other }

/-! ### `try` -/

/-- A `catch` clause. The scope of its parameter is that of its body. -/
def catchClause (self : Productions) : Reading Unit := do
  let position := (← token).position
  advance
  track (·.enterScope .catchClause position)
  if ← acceptPunctuator "(" then
    let target ← self.bindingTarget
    declareAll .exception target.names
    expectPunctuator ")"
  else requireEdition "optional catch binding" .es2019 position
  expectPunctuator "\x7b"
  let _ ← statementList self false
  inScopes Scope.Action.exitScope
  expectPunctuator "\x7d"

/-- A `try` statement, which needs a `catch` or a `finally` clause. -/
def tryStatement (self : Productions) : Reading Statement := do
  advance
  let _ ← block self
  let caught ← atKeyword "catch"
  if caught then catchClause self
  let finished ← atKeyword "finally"
  if finished then
    advance
    let _ ← block self
  if !caught && !finished then
    reportInstead "catch" (← token)
  pure { kind := .other }

/-! ## Jumps

The statements that leave the place where they stand. What follows one in the same list is never
reached.
-/

/-- The summary of a jump. -/
def Statement.jump : Statement := { kind := .jump, exits := true }

/-- Report a statement that follows a jump in its list. -/
def checkReached (word : String) (inList : Bool) : Reading Unit := do
  let t ← token
  let ended := (← previous).isPunctuator ";"
  let listEnds := t.isPunctuator "\x7d" || t.isEnd ||
    ["case", "default", "function"].any t.isKeyword
  if inList && ended && !listEnds then report "W027" t.position [t.display, word]

def endJump (word : String) (inList : Bool) : Reading Statement := do
  semicolon
  checkReached word inList
  pure .jump

def checkLabel (word name : String) (position : Position) : Reading Unit := do
  match (← tracker).label? name with
  | none => report "W090" position [name]
  | some label =>
    if !label.iteration && word == "continue" then report "W052" position [word]

/-- Check a jump without a label, which needs a loop around it, or a `switch` for `break`. -/
def checkSurroundings (word : String) (position : Position) : Reading Unit := do
  let f := (← tracker).functionFrame
  let depth := if word == "break" then f.breakableDepth else f.loopDepth
  if depth == 0 then report "W052" position [word]

def breakStatement (word : String) (inList : Bool) : Reading Statement := do
  let position := (← token).position
  advance
  let t ← token
  if t.isIdentifier && !t.flags.newlineBefore then
    advance
    checkLabel word t.name position
  else checkSurroundings word position
  endJump word inList

def returnStatement (self : Productions) (inList : Bool) : Reading Statement := do
  advance
  let t ← token
  let ends := t.isPunctuator ";" || t.isPunctuator "\x7d" || t.isEnd
  if !ends && !t.flags.newlineBefore then
    let value ← self.anyExpression
    if value.isBareAssignment then report "W093" value.position []
  endJump "return" inList

def throwStatement (self : Productions) (inList : Bool) : Reading Statement := do
  let position := (← token).position
  advance
  if (← token).flags.newlineBefore then report "E022" position ["throw"]
  let _ ← self.anyExpression
  endJump "throw" inList

end ScriptLint.Reading

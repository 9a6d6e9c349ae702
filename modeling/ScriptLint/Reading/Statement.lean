import ScriptLint.Reading.Branch
import ScriptLint.Reading.Loop
import ScriptLint.Reading.Module

/-! # Statements

A statement is told by its first tokens: a label, one of the words that begin a declaration only in
some places, or what the operator table knows. Everything else is an expression. Some declarations
are allowed only in lists of statements, and not as the body of an `if`, a loop or a label.
-/

namespace ScriptLint.Reading

/-- Report a declaration that stands where only other statements may. -/
def checkInList (word : String) (inList : Bool) : Reading Unit := do
  if !inList then report "E048" (← token).position [word]

def variableStatement (self : Productions) (kind : Scope.BindingKind) : Reading Statement := do
  let _ ← declarations self kind false
  semicolon
  pure { kind := .declaration }

def functionStatement (self : Productions) (async inList : Bool) : Reading Statement := do
  if !inList then reportMisplacedFunction (← token).position
  let _ ← functionDeclaration self async false
  pure { kind := .declaration }

/-- Report an expression that does nothing as a statement, or that builds an object for nothing. -/
def checkEffect (e : Expression) : Reading Unit := do
  if !(← options).expr then
    if e.kind = .construction && !e.parenthesized then report "W031" e.position []
    else if !e.hasEffect then report "W030" e.position []

/-- An expression as a statement. What begins no expression and is not passed over is left to the
list around it. -/
def expressionStatement (self : Productions) : Reading Statement := do
  let start := (← token).position.offset
  let e ← self.anyExpression
  let stop := (← token).position.offset
  if e.kind = .invalid && stop == start then pure { kind := .other }
  else
    if e.kind ≠ .invalid then checkEffect e
    semicolon
    pure { kind := .expression }

/-- A statement with a label, which should be a loop, a `switch` or a block. -/
def labelledStatement (self : Productions) : Reading Statement := do
  let label ← token
  if ← isReserved label.name then reportReserved label.name label.position
  advance
  advance
  let t ← token
  let iteration := ["for", "while", "do"].any t.isKeyword
  if !(iteration || t.isKeyword "switch" || t.isPunctuator "\x7b") then
    report "W028" label.position [label.name, t.display]
  track (·.pushLabel { name := label.name, iteration, position := label.position })
  let body ← self.statement false
  track (·.popLabel)
  pure body

def debuggerStatement : Reading Statement := do
  if !(← options).debug then report "W087" (← token).position ["debugger"]
  advance
  semicolon
  pure { kind := .other }

/-- A semicolon by itself. -/
def emptyStatement (inList : Bool) : Reading Statement := do
  if inList then report "W032" (← token).position []
  advance
  pure { kind := .empty }

/-- A statement that begins with `import`, which may be an expression. -/
def importStatement (self : Productions) : Reading Statement := do
  let next ← peek
  if next.isPunctuator "(" || next.isPunctuator "." then expressionStatement self
  else
    importDeclaration
    pure { kind := .declaration }

def statementOf (self : Productions) (inList : Bool) : StatementForm → Reading Statement
  | .varWord => variableStatement self .varName
  | .constWord => do
    checkInList "Const" inList
    variableStatement self .constName
  | .functionWord => functionStatement self false inList
  | .classWord => do
    checkInList "Class" inList
    let _ ← readClass self true false
    pure { kind := .declaration }
  | .ifWord => ifStatement self
  | .forWord => forStatement self
  | .whileWord => whileStatement self
  | .doWord => doStatement self
  | .switchWord => switchStatement self
  | .breakWord => breakStatement "break" inList
  | .continueWord => breakStatement "continue" inList
  | .returnWord => returnStatement self inList
  | .throwWord => throwStatement self inList
  | .tryWord => tryStatement self
  | .withWord => withStatement self
  | .debuggerWord => debuggerStatement
  | .block => block self
  | .empty => emptyStatement inList
  | .importWord => importStatement self
  | .exportWord => do
    exportDeclaration self
    pure { kind := .declaration }

/-- What a statement begins with. -/
inductive StatementStart where
  | label
  | letDeclaration
  | asyncFunction
  | form (form : StatementForm)
  | expression
deriving Repr, DecidableEq, Inhabited

def statementStart : Reading StatementStart := do
  let t ← token
  let next ← peek
  let unescaped (word : String) : Bool := t.isName word && !t.flags.escaped
  if t.isIdentifier && next.isPunctuator ":" then pure .label
  else if unescaped "let" && letDeclares next then pure .letDeclaration
  else if unescaped "async" && next.isKeyword "function" && !next.flags.newlineBefore then
    pure .asyncFunction
  else
    match (Symbol.ofToken t).statement? with
    | some form => pure (.form form)
    | none => pure .expression

def readStatement (self : Productions) (inList : Bool) : Reading Statement :=
  nested do
    match ← statementStart with
    | .label => labelledStatement self
    | .letDeclaration =>
      checkInList "Let" inList
      variableStatement self .letName
    | .asyncFunction => functionStatement self true inList
    | .form form => statementOf self inList form
    | .expression => expressionStatement self

end ScriptLint.Reading

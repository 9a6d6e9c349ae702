import ScriptLint.Reading.Class
import ScriptLint.Reading.Construction
import ScriptLint.Reading.Function
import ScriptLint.Reading.Object

/-! # Names and operands

What may stand where an operand is expected, names among it.
-/

/-! ## Names where an operand is expected

A name may be an operand by itself, or the beginning of an arrow function. In their places, `async`,
`yield` and `await` begin more than that.
-/

namespace ScriptLint.Reading

/-- What a name begins. -/
inductive NameRole where
  | plain
  | arrow (async : Bool)
  | asyncFunction
  | yield
  | await
deriving Repr, DecidableEq, Inhabited

/-- What the word `async` begins, if it is no plain name. -/
def asyncRole? : Reading (Option NameRole) := do
  let next ← peek
  let arrowBefore (after : Token) : Option NameRole :=
    if after.isPunctuator "=>" then some (.arrow true) else none
  if next.flags.newlineBefore then pure none
  else if next.isKeyword "function" then pure (some .asyncFunction)
  else if next.isIdentifier then return arrowBefore (← peekSecond)
  else if next.isPunctuator "(" then return arrowBefore (← tokenAfterNextGroup)
  else pure none

/-- What one of the words begins that are names only in some places. An escape keeps it a name. -/
def wordRole? (t : Token) : Reading (Option NameRole) := do
  if t.flags.escaped then pure none
  else
    match t.name with
    | "async" => asyncRole?
    | "yield" => return if ← inGenerator then some .yield else none
    | "await" => return if ← inAsync then some .await else none
    | _ => pure none

/-- What the name that comes next begins. -/
def nameRole : Reading NameRole := do
  match ← wordRole? (← token) with
  | some role => pure role
  | none => return if (← peek).isPunctuator "=>" then .arrow false else .plain

/-- A name that stands for a variable. -/
def variableName : Reading Expression := do
  let t ← token
  if ← isReserved t.name then reportReserved t.name t.position
  advance
  let reference ← addReference t.name t.position .read
  pure { kind := .identifier t.name reference, position := t.position }

def atOperand : Reading Bool := return (Symbol.ofToken (← token)).operand?.isSome

/-- A `yield` with its operand, which may be missing. -/
def yieldExpression (self : Productions) : Reading Expression := do
  let position := (← token).position
  advance
  track (·.recordYield)
  if !(← token).flags.newlineBefore then
    if ← acceptPunctuator "*" then
      let _ ← self.element
    else
      -- A slash here is no division, for there may be no operand before it.
      rescanRegexp
      if ← atOperand then
        let _ ← self.element
  pure { kind := .yield, position }

def awaitExpression (self : Productions) : Reading Expression := do
  let position := (← token).position
  advance
  let _ ← self.expression Symbol.unaryPower
  pure { kind := .await, position }

/-- The operand that a name begins. -/
def nameExpression (self : Productions) : Reading Expression := do
  match ← nameRole with
  | .plain => variableName
  | .arrow async => arrowFunction self async
  | .asyncFunction => functionExpression self true
  | .yield => yieldExpression self
  | .await => awaitExpression self

/-! ## Operands

What may stand where an operand is expected: literals, names, brackets of all kinds, functions and
classes, and operators in front of an operand of their own. The operator table tells by the next
token which one it is.
-/

/-- The next element of an array literal, or the comma after a missing one. Tells whether the list
goes on. -/
def arrayElement (self : Productions) : Reading Bool := do
  let t ← token
  if t.isPunctuator "]" then pure false
  else if t.isPunctuator "," then
    let o ← options
    if !o.elision then
      if o.edition = .es3 then reportExtraComma t.position else report "W128" t.position []
    advance
    pure true
  else
    spread
    let _ ← self.element
    let comma := (← token).position
    if ← acceptPunctuator "," then
      if (← atPunctuator "]") && (← options).edition = .es3 then reportExtraComma comma
      pure true
    else pure false

def arrayLiteral (self : Productions) : Reading Expression := do
  let position := (← token).position
  advance
  allowingIn (repeatWhile (arrayElement self))
  expectPunctuator "]"
  pure { kind := .array, position }

/-- What a bracket opens: a pattern if an assignment follows the group, else a literal. -/
def patternOr (self : Productions) (otherwise : Reading Expression) : Reading Expression := do
  if (← tokenAfterGroup).isPunctuator "=" then assignmentPatternExpression self else otherwise

/-- An expression in its parentheses. -/
def parenthesizedExpression (self : Productions) : Reading Expression := do
  advance
  let e ← allowingIn self.anyExpression
  expectPunctuator ")"
  pure { e with parenthesized := true }

/-- An expression in parentheses, or the parameters of an arrow function. -/
def parenthesis (self : Productions) : Reading Expression := do
  if (← tokenAfterGroup).isPunctuator "=>" then arrowFunction self false
  else parenthesizedExpression self

/-! ### Operators in front -/

/-- An operator in front of its operand. -/
def unaryExpression (self : Productions) : Reading Expression := do
  let t ← token
  advance
  let operand ← self.expression Symbol.unaryPower
  match t.raw, operand.kind with
  | "delete", .identifier _ _ => report "W051" t.position []
  | "typeof", .identifier _ reference => track (·.setAccess reference .typeOf)
  | _, _ => pure ()
  pure { kind := if t.raw == "delete" then .delete else .unary, position := t.position }

/-- Record that `++` or `--` changes an operand. -/
def updateOperand (operand : Expression) : Reading Unit := do
  match operand.kind with
  | .identifier _ reference => track (·.setAccess reference .readWrite)
  | .member _ => pure ()
  | _ => report "W017" operand.position []

/-- `++` or `--` in front of its operand. -/
def updateExpression (self : Productions) : Reading Expression := do
  let position := (← token).position
  advance
  let operand ← self.expression Symbol.unaryPower
  updateOperand operand
  pure { kind := .update, position }

/-! ### Single tokens -/

def thisWord : Reading Expression := do
  let position := (← token).position
  advance
  pure { kind := .thisWord, position }

/-- The name of a private member, which is an operand only in front of `in`. -/
def privateName : Reading Expression := do
  let position := (← token).position
  advance
  let next ← token
  if !next.isKeyword "in" then reportUnexpected next.display position
  pure { kind := .privateName, position }

/-- What begins no operand. It is passed over unless it may end or begin something around it. -/
def missingOperand : Reading Expression := do
  let t ← token
  if t.isEnd then earlyEnd
  else
    reportUnexpected t.display t.position
    let closes := [")", "]", "\x7d", ";"].any t.isPunctuator
    if !closes && (Symbol.ofToken t).statement?.isNone then advance
    pure { kind := .invalid, position := t.position }

/-! ### All operands -/

def operandOf (self : Productions) : OperandForm → Reading Expression
  | .identifier => nameExpression self
  | .literal => literal
  | .template => templateLiteral self
  | .regexp => regexpLiteral
  | .privateName => privateName
  | .thisWord => thisWord
  | .superWord => superWord
  | .unary => unaryExpression self
  | .update => updateExpression self
  | .parenthesis => parenthesis self
  | .array => patternOr self (arrayLiteral self)
  | .object => patternOr self (objectLiteral self)
  | .functionWord => do
    if (← peek).isPunctuator "." then functionSent else functionExpression self false
  | .classWord => do
    let position := (← token).position
    let _ ← readClass self false true
    pure { kind := .classBody, position }
  | .newWord => newExpression self
  | .importWord => importExpression self

def readOperand (self : Productions) : Reading Expression := do
  rescanRegexp
  match (Symbol.ofToken (← token)).operand? with
  | some form => operandOf self form
  | none => missingOperand

end ScriptLint.Reading

import ScriptLint.Reading.Operand

/-! # Operators

What follows an operand: operators with their second operand, access and calls. An expression is an
operand with operators after it for as long as they bind more strongly than what stands before it.
-/

namespace ScriptLint.Reading

/-! ## Binary operators -/

/-- The operators that compare two values. -/
def comparisons : List String := ["==", "!=", "===", "!==", "<", ">", "<=", ">="]

/-- The strict form of an operator that tests for equality with conversions. -/
def strictEquality? : String → Option String
  | "==" => some "==="
  | "!=" => some "!=="
  | _ => none

/-- Check a comparison. `NaN` differs from everything, itself included. -/
def checkComparison (operator : Token) (left right : Expression) : Reading Unit := do
  if left.isName "NaN" || right.isName "NaN" then report "W019" operator.position []
  if (← options).eqeqeq then
    (strictEquality? operator.raw).forM fun wanted =>
      report "W116" operator.position [wanted, operator.raw]

/-- Check the right operand of `instanceof`, which has to be something that constructs. -/
def checkInstanceOf (right : Expression) : Reading Unit := do
  if right.kind = .function then report "W139" right.position []
  else if right.isPlainValue && !right.parenthesized then report "E060" right.position []

/-- A binary operator with its right operand. -/
def binaryOperation (self : Productions) (power : Nat) (left : Expression) : Reading Unit := do
  let operator ← token
  advance
  let right ← self.expression power
  if comparisons.contains operator.raw then checkComparison operator left right
  else if operator.raw == "instanceof" then checkInstanceOf right

/-! ## Assignment -/

/-- An assignment operator with its right operand. Gives the variable that is assigned, if the
target is one. -/
def assignmentOperation (self : Productions) (left : Expression) :
    Reading (Option (String × Nat)) := do
  let access : Scope.Access := if ← atPunctuator "=" then .write else .readWrite
  advance
  assignmentTarget left access
  let _ ← self.expression (Symbol.assignPower - 1)
  pure left.plainName?

/-! ## Access and calls -/

/-- A member or a call after `?.`. -/
def optionalAccess (self : Productions) : Reading Unit := do
  advance
  if ← acceptPunctuator "(" then
    let _ ← arguments self
  else if ← acceptPunctuator "[" then
    let _ ← allowingIn self.anyExpression
    expectPunctuator "]"
  else
    let _ ← propertyAfterDot

/-- The functions that take a program as a string. -/
def stringEvaluators : List String := ["setTimeout", "setInterval", "execScript"]

/-- Report a call that runs text as code. -/
def checkCall (callee : Expression) (first? : Option Expression) : Reading Unit := do
  let checkEvaluator (name : String) : Reading Unit := do
    let givenString := first?.any fun e => e.kind matches .string _
    if stringEvaluators.contains name && givenString then report "W066" callee.position []
  if !(← options).evil then
    match callee.kind with
    | .identifier "eval" _ => report "W061" callee.position []
    | .identifier "Function" _ => reportFunctionFunction callee.position
    | .identifier name _ => checkEvaluator name
    | .member (some name) => checkEvaluator name
    | _ => pure ()

def callOperation (self : Productions) (callee : Expression) : Reading Unit := do
  advance
  let first? ← arguments self
  checkCall callee first?

/-! ## All operators -/

/-- How messages name the feature that an operator belongs to. -/
def operatorFeature (id : String) : String :=
  match id with
  | "**" | "**=" => "Exponentiation operator"
  | "?." => "Optional chaining"
  | "??" => "Nullish Coalescing"
  | "&&=" | "||=" | "??=" => "Logical assignment"
  | _ => "operator"

/-- The rest of an operation after its left operand. `power` is what the right operand is read
with. Gives what the whole turns out to be. -/
def operatorOf (self : Productions) (power : Nat) (left : Expression) :
    OperatorForm → Reading ExpressionKind
  | .binary => do
    binaryOperation self power left
    pure .binary
  | .logical | .nullish => do
    advance
    let _ ← self.expression power
    pure .logical
  | .exponent => do
    advance
    let _ ← self.expression power
    pure .binary
  | .assign => return .assignment (← assignmentOperation self left)
  | .conditional => do
    advance
    let _ ← allowingIn self.element
    expectPunctuator ":"
    let _ ← self.element
    pure .conditional
  | .comma => do
    advance
    return .sequence (← self.expression power).hasEffect
  | .dot => do
    advance
    return .member (← propertyAfterDot)
  | .optionalChain => do
    optionalAccess self
    pure .optionalChain
  | .index => do
    advance
    index self
    pure (.member none)
  | .call => do
    callOperation self left
    pure .call
  | .update => do
    updateOperand left
    advance
    pure .update
  | .taggedTemplate => do
    let _ ← templateLiteral self
    pure .call

/-- The operator that comes next and continues an operand, if it binds more strongly than `power`
and the place admits it. -/
def nextOperator? (power : Nat) : Reading (Option (Symbol × OperatorForm)) := do
  let t ← token
  let symbol := Symbol.ofToken t
  let excluded := (← get).inExcluded && t.isKeyword "in"
  match symbol.operator? with
  | none => pure none
  | some form =>
    -- An update on the next line has its operand after it.
    if excluded || symbol.power ≤ power || (form = .update && t.flags.newlineBefore) then pure none
    else pure (some (symbol, form))

/-- Read the operator that comes next with all that belongs to it. -/
def operation (self : Productions) (symbol : Symbol) (form : OperatorForm) (left : Expression) :
    Reading Expression := do
  let position := (← token).position
  symbol.since?.forM fun since => requireEdition (operatorFeature symbol.id) since position
  -- To the right of one that associates that way, the same operator may come again.
  let power := if symbol.associativity = .right then symbol.power - 1 else symbol.power
  return { kind := ← operatorOf self power left form, position := left.position }

/-- Read the next operator after a left operand, if one continues it. -/
def operatorRound (self : Productions) (power : Nat) (left : Expression) :
    Reading (Round Expression Expression) := do
  match ← nextOperator? power with
  | none => pure (.done left)
  | some (symbol, form) => return .again (← operation self symbol form left)

/-- An expression whose operators bind more strongly than `power`. -/
def readExpression (self : Productions) (power : Nat) : Reading Expression :=
  nested do
    let first ← readOperand self
    repeatFrom first (operatorRound self power)

end ScriptLint.Reading

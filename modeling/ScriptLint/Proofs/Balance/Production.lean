import ScriptLint.Proofs.Balance.Step

/-! # Balanced functions and expressions

The parts of functions, classes and expressions are balanced if the productions they are written
over are, whatever is open around them.
-/

set_option synthInstance.maxSize 4096

namespace ScriptLint.Reading

variable {bs : List Bracket}

/-- A table whose productions leave what is open around them as it was. -/
class Productions.Balances (table : Productions) : Prop where
  expression (bs : List Bracket) (power : Nat) : Reading.Balances bs (table.expression power) bs
  operand (bs : List Bracket) : Reading.Balances bs table.operand bs
  statement (bs : List Bracket) (inList : Bool) : Reading.Balances bs (table.statement inList) bs
  bindingTarget (bs : List Bracket) : Reading.Balances bs table.bindingTarget bs
  assignmentPattern (bs : List Bracket) : Reading.Balances bs table.assignmentPattern bs

attribute [instance] Productions.Balances.expression Productions.Balances.operand
  Productions.Balances.statement Productions.Balances.bindingTarget
  Productions.Balances.assignmentPattern

namespace Balances

variable (self : Productions) [hself : self.Balances]

instance : Balances bs self.anyExpression bs := hself.expression bs 0

instance : Balances bs self.element bs := hself.expression bs Symbol.commaPower

/-! ## Access and arguments -/

instance : Balances bs propertyAfterDot bs := by
  unfold propertyAfterDot
  refine .bind inferInstance fun t => ?_
  split <;> infer_instance

instance (index : Expression) : Balances bs (checkIndex index) bs := by
  unfold checkIndex
  split <;> infer_instance

instance : Balances bs (index self) bs := by
  unfold index
  infer_instance

instance : Balances bs spread bs := by
  unfold spread
  infer_instance

instance (first? : Option Expression) : Balances bs (argument self first?) bs := by
  unfold argument
  infer_instance

instance (first? : Option Expression) (comma : Position) :
    Balances bs (argumentComma first? comma) bs := by
  unfold argumentComma
  infer_instance

instance : Balances bs (arguments self) bs := by
  unfold arguments
  infer_instance

/-! ## Literals -/

instance : Balances bs literal bs := by
  unfold literal
  infer_instance

instance (position : Position) (seen : List Char) (flag : Char) :
    Balances bs (checkRegexpFlag position seen flag) bs := by
  unfold checkRegexpFlag
  split <;> infer_instance

instance (position : Position) (seen flags : List Char) :
    Balances bs (checkRegexpFlags position seen flags) bs := by
  induction flags generalizing seen with
  | nil => exact inferInstanceAs (Balances bs (Pure.pure ()) bs)
  | cons flag flags ih =>
      unfold checkRegexpFlags
      infer_instance

instance : Balances bs regexpLiteral bs := by
  unfold regexpLiteral
  refine .bind inferInstance fun t => .bind inferInstance fun _ => ?_
  dsimp only
  split <;> infer_instance

instance : Balances bs (substitution self) bs := by
  unfold substitution
  infer_instance

instance : Balances bs (templateLiteral self) bs := by
  unfold templateLiteral
  infer_instance

/-! ## Meta properties and construction -/

instance (position : Position) : Balances bs (newTarget position) bs := by
  unfold newTarget
  infer_instance

instance : Balances bs (calleeAccess self) bs := by
  unfold calleeAccess
  refine .bind inferInstance fun t => ?_
  split <;> infer_instance

instance (position : Position) : Balances bs (reportFunctionFunction position) bs := by
  unfold reportFunctionFunction
  infer_instance

instance (callee : Expression) : Balances bs (checkConstructor callee) bs := by
  unfold checkConstructor
  split <;> infer_instance

instance : Balances bs (newExpression self) bs := by
  unfold newExpression
  infer_instance

instance : Balances bs (importExpression self) bs := by
  unfold importExpression
  infer_instance

instance : Balances bs functionSent bs := by
  unfold functionSent
  infer_instance

instance : Balances bs superWord bs := by
  unfold superWord
  infer_instance

/-! ## Patterns -/

instance : Balances bs (patternDefault self) bs := by
  unfold patternDefault
  infer_instance

instance : Balances bs (computedKey self) bs := by
  unfold computedKey
  infer_instance

instance (s : PatternScan) : Balances bs (arrayBindingElement self s) bs := by
  unfold arrayBindingElement
  infer_instance

instance : Balances bs (arrayBinding self) bs := by
  unfold arrayBinding
  infer_instance

instance : Balances bs (objectBindingProperty self) bs := by
  unfold objectBindingProperty
  infer_instance

instance (s : PatternScan) : Balances bs (objectBindingElement self s) bs := by
  unfold objectBindingElement
  refine .bind inferInstance fun names? => ?_
  split <;> infer_instance

instance : Balances bs (objectBinding self) bs := by
  unfold objectBinding
  infer_instance

instance : Balances bs (readBindingTarget self) bs := by
  unfold readBindingTarget
  infer_instance

instance : Balances bs (assignmentElement self) bs := by
  unfold assignmentElement
  infer_instance

instance : Balances bs (assignmentProperty self) bs := by
  unfold assignmentProperty
  infer_instance

instance (inArray : Bool) (s : PatternScan) : Balances bs (assignmentPart self inArray s) bs := by
  unfold assignmentPart
  infer_instance

instance : Balances bs (readAssignmentPattern self) bs := by
  unfold readAssignmentPattern
  infer_instance

instance : Balances bs (assignmentPatternExpression self) bs := by
  unfold assignmentPatternExpression
  infer_instance

/-! ## What functions begin with -/

instance (rest : Bool) : Balances bs (parameterDefault self rest) bs := by
  unfold parameterDefault
  infer_instance

instance (ps : Parameters) : Balances bs (parameter self ps) bs := by
  unfold parameter
  infer_instance

instance (ps : Parameters) (comma : Position) : Balances bs (parameterComma ps comma) bs := by
  unfold parameterComma
  infer_instance

instance : Balances bs (parameters self) bs := by
  unfold parameters
  infer_instance

instance : Balances bs (arrowParameters self) bs := by
  unfold arrowParameters
  infer_instance

instance : Balances bs generatorStar bs := by
  unfold generatorStar
  infer_instance

instance (async : Bool) (position : Position) : Balances bs (functionWords async position) bs := by
  unfold functionWords
  infer_instance

/-! ## Properties -/

instance : Balances bs modifierWord bs := by
  unfold modifierWord
  refine .bind inferInstance fun t => ?_
  split <;> infer_instance

instance : Balances bs modifiers bs := by
  unfold modifiers
  infer_instance

instance : Balances bs (propertyKey self) bs := by
  unfold propertyKey
  refine .bind inferInstance fun t => ?_
  split <;> infer_instance

instance (anonymous : Bool) : Balances bs (className anonymous) bs := by
  unfold className
  infer_instance

/-! ## Statement lists -/

instance (top : Bool) (scan : ListScan) : Balances bs (listRound self top scan) bs := by
  unfold listRound
  infer_instance

instance (top : Bool) : Balances bs (statementList self top) bs := by
  unfold statementList
  infer_instance

instance (simpleParameters? : Option Bool) (position : Position) :
    Balances bs (applyStrictDirective simpleParameters? position) bs := by
  unfold applyStrictDirective
  infer_instance

instance (simpleParameters? : Option Bool) :
    Balances bs (directiveRound simpleParameters?) bs := by
  unfold directiveRound
  refine .bind inferInstance fun t => ?_
  split <;> infer_instance

instance (simpleParameters? : Option Bool) : Balances bs (directives simpleParameters?) bs := by
  unfold directives
  infer_instance

/-! ## Functions -/

instance (ps : Parameters) (method : Bool) : Balances bs (declareParameters ps method) bs := by
  unfold declareParameters
  infer_instance

instance (simple : Bool) : Balances bs (functionBody self simple) bs := by
  unfold functionBody
  infer_instance

instance (facts : Scope.FunctionFacts) (position : Position) (ownName? : Option BoundName) :
    Balances bs (functionRest self facts position ownName?) bs := by
  unfold functionRest
  infer_instance

instance (position : Position) : Balances bs (reportMisplacedFunction position) bs := by
  unfold reportMisplacedFunction
  infer_instance

instance (bound : BoundName) (position : Position) :
    Balances bs (declareFunction bound position) bs := by
  unfold declareFunction
  infer_instance

instance (async anonymous : Bool) : Balances bs (functionDeclaration self async anonymous) bs := by
  unfold functionDeclaration
  infer_instance

instance (async : Bool) : Balances bs (arrowFunction self async) bs := by
  unfold arrowFunction
  infer_instance

instance (position : Position) : Balances bs (staticBlock self position) bs := by
  unfold staticBlock
  infer_instance

instance (key? : Option String) (position : Position) :
    Balances bs (fieldValue self key? position) bs := by
  unfold fieldValue
  infer_instance

instance (async : Bool) : Balances bs (functionExpression self async) bs := by
  unfold functionExpression
  infer_instance

instance (key? : Option String) (ms : Modifiers) (constructor : Bool) :
    Balances bs (method self key? ms constructor) bs := by
  unfold method
  refine .bind inferInstance fun t => .bind inferInstance fun ps => ?_
  dsimp only
  split <;> infer_instance

instance (isStatic : Bool) (position : Position) :
    Balances bs (methodOrField self isStatic position) bs := by
  unfold methodOrField
  infer_instance

instance : Balances bs (classMember self) bs := by
  unfold classMember
  infer_instance

instance : Balances bs (classRound self) bs := by
  unfold classRound
  infer_instance

/-! ## Classes -/

instance (bound? : Option BoundName) : Balances bs (declareClass bound?) bs := by
  unfold declareClass
  infer_instance

instance (bound? : Option BoundName) : Balances bs (classRest self bound?) bs := by
  unfold classRest
  infer_instance

instance (declaration anonymous : Bool) :
    Balances bs (readClass self declaration anonymous) bs := by
  unfold readClass
  infer_instance

/-! ## Names -/

instance : Balances bs asyncRole? bs := by
  unfold asyncRole?
  infer_instance

instance (t : Token) : Balances bs (wordRole? t) bs := by
  unfold wordRole?
  split
  · infer_instance
  · split <;> infer_instance

instance : Balances bs nameRole bs := by
  unfold nameRole
  refine .bind inferInstance fun t => .bind inferInstance fun role? => ?_
  split <;> infer_instance

instance : Balances bs variableName bs := by
  unfold variableName
  infer_instance

instance : Balances bs atOperand bs := by
  unfold atOperand
  infer_instance

instance : Balances bs (yieldExpression self) bs := by
  unfold yieldExpression
  infer_instance

instance : Balances bs (awaitExpression self) bs := by
  unfold awaitExpression
  infer_instance

instance : Balances bs (nameExpression self) bs := by
  unfold nameExpression
  refine .bind inferInstance fun role => ?_
  cases role <;> infer_instance

/-! ## Object literals -/

instance (keys : KeyTable) (key : String) (use : KeyUse) (position : Position) :
    Balances bs (recordKey keys key use position) bs := by
  unfold recordKey
  dsimp only
  split
  · infer_instance
  · split <;> infer_instance

instance (first : Token) (m : Modifiers) (key? : Option String) :
    Balances bs (propertyValue self first m key?) bs := by
  unfold propertyValue
  generalize (if first.isIdentifier && !m.generator && !m.async then key? else none) = shown?
  cases shown? <;> infer_instance

instance (keys : KeyTable) : Balances bs (objectProperty self keys) bs := by
  unfold objectProperty
  refine .bind inferInstance fun first => ?_
  split
  · infer_instance
  · split
    · infer_instance
    · refine .bind inferInstance fun m => .bind inferInstance fun key? => ?_
      cases key? <;> infer_instance

instance (keys : KeyTable) (comma : Position) : Balances bs (propertyComma keys comma) bs := by
  unfold propertyComma
  infer_instance

instance : Balances bs (objectLiteral self) bs := by
  unfold objectLiteral
  infer_instance

/-! ## Operands -/

instance : Balances bs (arrayElement self) bs := by
  unfold arrayElement
  infer_instance

instance : Balances bs (arrayLiteral self) bs := by
  unfold arrayLiteral
  infer_instance

instance (otherwise : Reading Expression) [Balances bs otherwise bs] :
    Balances bs (patternOr self otherwise) bs := by
  unfold patternOr
  infer_instance

instance : Balances bs (parenthesizedExpression self) bs := by
  unfold parenthesizedExpression
  infer_instance

instance : Balances bs (parenthesis self) bs := by
  unfold parenthesis
  infer_instance

instance : Balances bs (unaryExpression self) bs := by
  unfold unaryExpression
  refine .bind inferInstance fun t => .bind inferInstance fun _ => ?_
  refine .bind inferInstance fun operand => ?_
  dsimp only
  split <;> infer_instance

instance (operand : Expression) : Balances bs (updateOperand operand) bs := by
  unfold updateOperand
  split <;> infer_instance

instance : Balances bs (updateExpression self) bs := by
  unfold updateExpression
  infer_instance

instance : Balances bs thisWord bs := by
  unfold thisWord
  infer_instance

instance : Balances bs privateName bs := by
  unfold privateName
  infer_instance

instance : Balances bs missingOperand bs := by
  unfold missingOperand
  infer_instance

instance (form : OperandForm) : Balances bs (operandOf self form) bs := by
  cases form <;> dsimp only [operandOf] <;> infer_instance

instance : Balances bs (readOperand self) bs := by
  unfold readOperand
  refine .bind inferInstance fun _ => .bind inferInstance fun t => ?_
  split <;> infer_instance

/-! ## Operators -/

instance (operator : Token) (left right : Expression) :
    Balances bs (checkComparison operator left right) bs := by
  unfold checkComparison
  infer_instance

instance (right : Expression) : Balances bs (checkInstanceOf right) bs := by
  unfold checkInstanceOf
  infer_instance

instance (power : Nat) (left : Expression) : Balances bs (binaryOperation self power left) bs := by
  unfold binaryOperation
  infer_instance

instance (left : Expression) : Balances bs (assignmentOperation self left) bs := by
  unfold assignmentOperation
  infer_instance

instance : Balances bs (optionalAccess self) bs := by
  unfold optionalAccess
  infer_instance

instance (callee : Expression) (first? : Option Expression) :
    Balances bs (checkCall callee first?) bs := by
  unfold checkCall
  refine .bind inferInstance fun o => ?_
  dsimp only
  split
  · split <;> infer_instance
  · infer_instance

instance (callee : Expression) : Balances bs (callOperation self callee) bs := by
  unfold callOperation
  infer_instance

instance (power : Nat) (left : Expression) (form : OperatorForm) :
    Balances bs (operatorOf self power left form) bs := by
  cases form <;> dsimp only [operatorOf] <;> infer_instance

instance (symbol : Symbol) (form : OperatorForm) (left : Expression) :
    Balances bs (operation self symbol form left) bs := by
  unfold operation
  infer_instance

instance (power : Nat) : Balances bs (nextOperator? power) bs := by
  unfold nextOperator?
  refine .bind inferInstance fun t => .bind inferInstance fun s => ?_
  dsimp only
  split
  · infer_instance
  · split <;> infer_instance

instance (power : Nat) (left : Expression) :
    Balances bs (operatorRound self power left) bs := by
  unfold operatorRound
  refine .bind inferInstance fun next? => ?_
  split <;> infer_instance

instance (power : Nat) : Balances bs (readExpression self power) bs := by
  unfold readExpression
  infer_instance

end Balances

end ScriptLint.Reading

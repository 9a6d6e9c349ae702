import ScriptLint.Proofs.Reading.Program

/-! # Grammar in layers

Whatever is written over one table of productions does the same over another that stands in for it.
-/

set_option synthInstance.maxSize 4096

namespace ScriptLint.Reading

namespace Refines

variable {k : Nat} (self self' : Productions) [self.Steady 0] [hself : self.Refines k self']

/-! ## Access and arguments -/

instance : Refines k (index self) (index self') := by
  unfold index
  infer_instance

instance (first? : Option Expression) :
    Refines k (argument self first?) (argument self' first?) := by
  unfold argument
  infer_instance

instance : Refines k (arguments self) (arguments self') := by
  unfold arguments
  infer_instance

/-! ## Patterns -/

instance : Refines k (patternDefault self) (patternDefault self') := by
  unfold patternDefault
  infer_instance

instance : Refines k (computedKey self) (computedKey self') := by
  unfold computedKey
  infer_instance

instance (s : PatternScan) :
    Refines k (arrayBindingElement self s) (arrayBindingElement self' s) := by
  unfold arrayBindingElement
  infer_instance

instance : Refines k (arrayBinding self) (arrayBinding self') := by
  unfold arrayBinding
  infer_instance

instance : Refines k (objectBindingProperty self) (objectBindingProperty self') := by
  unfold objectBindingProperty
  infer_instance

instance (s : PatternScan) :
    Refines k (objectBindingElement self s) (objectBindingElement self' s) := by
  unfold objectBindingElement
  refine .bind inferInstance inferInstance fun names? => ?_
  cases names? <;> infer_instance

instance : Refines k (objectBinding self) (objectBinding self') := by
  unfold objectBinding
  infer_instance

instance : Refines k (readBindingTarget self) (readBindingTarget self') := by
  unfold readBindingTarget
  infer_instance

instance : Refines k (assignmentElement self) (assignmentElement self') := by
  unfold assignmentElement
  infer_instance

instance : Refines k (assignmentProperty self) (assignmentProperty self') := by
  unfold assignmentProperty
  infer_instance

instance (inArray : Bool) (s : PatternScan) :
    Refines k (assignmentPart self inArray s) (assignmentPart self' inArray s) := by
  unfold assignmentPart
  infer_instance

instance : Refines k (readAssignmentPattern self) (readAssignmentPattern self') := by
  unfold readAssignmentPattern
  infer_instance

instance : Refines k (assignmentPatternExpression self) (assignmentPatternExpression self') := by
  unfold assignmentPatternExpression
  infer_instance

/-! ## Functions -/

instance (top : Bool) (scan : ListScan) :
    Refines k (listRound self top scan) (listRound self' top scan) := by
  unfold listRound
  infer_instance

instance (top : Bool) : Refines k (statementList self top) (statementList self' top) := by
  unfold statementList
  infer_instance

instance (rest : Bool) : Refines k (parameterDefault self rest) (parameterDefault self' rest) := by
  unfold parameterDefault
  infer_instance

instance (ps : Parameters) : Refines k (parameter self ps) (parameter self' ps) := by
  unfold parameter
  infer_instance

instance : Refines k (parameters self) (parameters self') := by
  unfold parameters
  infer_instance

instance (simple : Bool) : Refines k (functionBody self simple) (functionBody self' simple) := by
  unfold functionBody
  infer_instance

instance (facts : Scope.FunctionFacts) (position : Position) (ownName? : Option BoundName) :
    Refines k (functionRest self facts position ownName?)
      (functionRest self' facts position ownName?) := by
  unfold functionRest
  infer_instance

instance (async anonymous : Bool) :
    Refines k (functionDeclaration self async anonymous)
      (functionDeclaration self' async anonymous) := by
  unfold functionDeclaration
  infer_instance

instance (async : Bool) :
    Refines k (functionExpression self async) (functionExpression self' async) := by
  unfold functionExpression
  infer_instance

instance : Refines k (arrowParameters self) (arrowParameters self') := by
  unfold arrowParameters
  infer_instance

instance (async : Bool) : Refines k (arrowFunction self async) (arrowFunction self' async) := by
  unfold arrowFunction
  refine .bind inferInstance inferInstance fun t => .bind inferInstance inferInstance fun _ => ?_
  cases async <;> infer_instance

/-! ## Properties and classes -/

instance : Refines k (propertyKey self) (propertyKey self') := by
  unfold propertyKey
  refine .bind inferInstance inferInstance fun t => ?_
  cases t.lexeme <;> infer_instance

instance (key? : Option String) (m : Modifiers) (constructor : Bool) :
    Refines k (method self key? m constructor) (method self' key? m constructor) := by
  unfold method
  infer_instance

instance (position : Position) :
    Refines k (staticBlock self position) (staticBlock self' position) := by
  unfold staticBlock
  infer_instance

instance (key? : Option String) (position : Position) :
    Refines k (fieldValue self key? position) (fieldValue self' key? position) := by
  unfold fieldValue
  infer_instance

instance (isStatic : Bool) (position : Position) :
    Refines k (methodOrField self isStatic position) (methodOrField self' isStatic position) := by
  unfold methodOrField
  infer_instance

instance : Refines k (classMember self) (classMember self') := by
  unfold classMember
  infer_instance

instance : Refines k (classRound self) (classRound self') := by
  unfold classRound
  infer_instance

instance (bound? : Option BoundName) :
    Refines k (classRest self bound?) (classRest self' bound?) := by
  unfold classRest
  infer_instance

instance (declaration anonymous : Bool) :
    Refines k (readClass self declaration anonymous) (readClass self' declaration anonymous) := by
  unfold readClass
  infer_instance

instance (first : Token) (m : Modifiers) (key? : Option String) :
    Refines k (propertyValue self first m key?) (propertyValue self' first m key?) := by
  unfold propertyValue
  infer_instance

instance (keys : KeyTable) : Refines k (objectProperty self keys) (objectProperty self' keys) := by
  unfold objectProperty
  infer_instance

instance : Refines k (objectLiteral self) (objectLiteral self') := by
  unfold objectLiteral
  infer_instance

/-! ## Operands -/

instance : Refines k (substitution self) (substitution self') := by
  unfold substitution
  infer_instance

instance : Refines k (templateLiteral self) (templateLiteral self') := by
  unfold templateLiteral
  infer_instance

instance : Refines k (yieldExpression self) (yieldExpression self') := by
  unfold yieldExpression
  infer_instance

instance : Refines k (awaitExpression self) (awaitExpression self') := by
  unfold awaitExpression
  infer_instance

instance : Refines k (nameExpression self) (nameExpression self') := by
  unfold nameExpression
  refine .bind inferInstance inferInstance fun role => ?_
  cases role <;> infer_instance

instance : Refines k (calleeAccess self) (calleeAccess self') := by
  unfold calleeAccess
  refine .bind inferInstance inferInstance fun t => ?_
  split <;> infer_instance

instance : Refines k (newExpression self) (newExpression self') := by
  unfold newExpression
  infer_instance

instance : Refines k (importExpression self) (importExpression self') := by
  unfold importExpression
  infer_instance

instance : Refines k (arrayElement self) (arrayElement self') := by
  unfold arrayElement
  infer_instance

instance : Refines k (arrayLiteral self) (arrayLiteral self') := by
  unfold arrayLiteral
  infer_instance

instance {otherwise otherwise' : Reading Expression} [Refines k otherwise otherwise'] :
    Refines k (patternOr self otherwise) (patternOr self' otherwise') := by
  unfold patternOr
  infer_instance

instance : Refines k (parenthesizedExpression self) (parenthesizedExpression self') := by
  unfold parenthesizedExpression
  infer_instance

instance : Refines k (parenthesis self) (parenthesis self') := by
  unfold parenthesis
  infer_instance

instance : Refines k (unaryExpression self) (unaryExpression self') := by
  unfold unaryExpression
  infer_instance

instance : Refines k (updateExpression self) (updateExpression self') := by
  unfold updateExpression
  infer_instance

instance (form : OperandForm) : Refines k (operandOf self form) (operandOf self' form) := by
  cases form <;> unfold operandOf <;> dsimp only <;> infer_instance

instance : Refines k (readOperand self) (readOperand self') := by
  unfold readOperand
  refine .bind inferInstance inferInstance fun _ => .bind inferInstance inferInstance fun t => ?_
  cases (Symbol.ofToken t).operand? <;> infer_instance

/-! ## Operators -/

instance (power : Nat) (left : Expression) :
    Refines k (binaryOperation self power left) (binaryOperation self' power left) := by
  unfold binaryOperation
  infer_instance

instance (left : Expression) :
    Refines k (assignmentOperation self left) (assignmentOperation self' left) := by
  unfold assignmentOperation
  infer_instance

instance : Refines k (optionalAccess self) (optionalAccess self') := by
  unfold optionalAccess
  infer_instance

instance (callee : Expression) :
    Refines k (callOperation self callee) (callOperation self' callee) := by
  unfold callOperation
  infer_instance

instance (power : Nat) (left : Expression) (form : OperatorForm) :
    Refines k (operatorOf self power left form) (operatorOf self' power left form) := by
  cases form <;> unfold operatorOf <;> dsimp only <;> infer_instance

instance (symbol : Symbol) (form : OperatorForm) (left : Expression) :
    Refines k (operation self symbol form left) (operation self' symbol form left) := by
  unfold operation
  infer_instance

instance (power : Nat) (left : Expression) :
    Refines k (operatorRound self power left) (operatorRound self' power left) := by
  unfold operatorRound
  refine .bind inferInstance inferInstance fun operator? => ?_
  split <;> infer_instance

/-! ## Statements -/

instance : Refines k (block self) (block self') := by
  unfold block
  infer_instance

instance : Refines k (subject self) (subject self') := by
  unfold subject
  infer_instance

instance : Refines k (condition self) (condition self') := by
  unfold condition
  infer_instance

instance : Refines k (ifStatement self) (ifStatement self') := by
  unfold ifStatement
  infer_instance

instance : Refines k (withStatement self) (withStatement self') := by
  unfold withStatement
  infer_instance

instance (before : Clause) : Refines k (clauseHead self before) (clauseHead self' before) := by
  unfold clauseHead
  infer_instance

instance (clause : Clause) : Refines k (switchRound self clause) (switchRound self' clause) := by
  unfold switchRound
  infer_instance

instance : Refines k (switchStatement self) (switchStatement self') := by
  unfold switchStatement
  infer_instance

instance : Refines k (catchClause self) (catchClause self') := by
  unfold catchClause
  infer_instance

instance : Refines k (tryStatement self) (tryStatement self') := by
  unfold tryStatement
  infer_instance

instance (kind : Scope.BindingKind) (target : BindingTarget) :
    Refines k (initializer self kind target) (initializer self' kind target) := by
  unfold initializer
  infer_instance

instance (kind : Scope.BindingKind) (inHead : Bool) (ds : Declarations) :
    Refines k (declarator self kind inHead ds) (declarator self' kind inHead ds) := by
  unfold declarator
  infer_instance

instance (kind : Scope.BindingKind) (inHead : Bool) (ds : Declarations) :
    Refines k (declaratorRound self kind inHead ds) (declaratorRound self' kind inHead ds) := by
  unfold declaratorRound
  infer_instance

instance (kind : Scope.BindingKind) (inHead : Bool) :
    Refines k (declarations self kind inHead) (declarations self' kind inHead) := by
  unfold declarations
  infer_instance

instance (inList : Bool) :
    Refines k (returnStatement self inList) (returnStatement self' inList) := by
  unfold returnStatement
  infer_instance

instance (inList : Bool) :
    Refines k (throwStatement self inList) (throwStatement self' inList) := by
  unfold throwStatement
  infer_instance

instance : Refines k (loopBody self) (loopBody self') := by
  unfold loopBody
  infer_instance

instance : Refines k (whileStatement self) (whileStatement self') := by
  unfold whileStatement
  infer_instance

instance : Refines k (doStatement self) (doStatement self') := by
  unfold doStatement
  infer_instance

instance : Refines k (loopHead self) (loopHead self') := by
  unfold loopHead
  refine .bind inferInstance inferInstance fun empty => ?_
  split
  · infer_instance
  · refine .bind inferInstance inferInstance fun kind? => ?_
    cases kind? <;> infer_instance

instance (iteration : Iteration) (position : Position) :
    Refines k (iterationRest self iteration position) (iterationRest self' iteration position) := by
  cases iteration <;> unfold iterationRest <;> dsimp only <;> infer_instance

instance : Refines k (countedRest self) (countedRest self') := by
  unfold countedRest
  infer_instance

instance (position : Position) (head : LoopHead) :
    Refines k (forRest self position head) (forRest self' position head) := by
  unfold forRest
  refine .bind inferInstance inferInstance fun iteration? => ?_
  split <;> infer_instance

instance : Refines k (forStatement self) (forStatement self') := by
  unfold forStatement
  infer_instance

instance (position : Position) :
    Refines k (exportDefault self position) (exportDefault self' position) := by
  unfold exportDefault
  infer_instance

instance (kind : Scope.BindingKind) :
    Refines k (exportedVariables self kind) (exportedVariables self' kind) := by
  unfold exportedVariables
  infer_instance

instance : Refines k (exportedDeclaration self) (exportedDeclaration self') := by
  unfold exportedDeclaration
  infer_instance

instance : Refines k (exportDeclaration self) (exportDeclaration self') := by
  unfold exportDeclaration
  infer_instance

instance (kind : Scope.BindingKind) :
    Refines k (variableStatement self kind) (variableStatement self' kind) := by
  unfold variableStatement
  infer_instance

instance (async inList : Bool) :
    Refines k (functionStatement self async inList) (functionStatement self' async inList) := by
  unfold functionStatement
  infer_instance

instance : Refines k (expressionStatement self) (expressionStatement self') := by
  unfold expressionStatement
  infer_instance

instance : Refines k (labelledStatement self) (labelledStatement self') := by
  unfold labelledStatement
  infer_instance

instance : Refines k (importStatement self) (importStatement self') := by
  unfold importStatement
  infer_instance

instance (inList : Bool) (form : StatementForm) :
    Refines k (statementOf self inList form) (statementOf self' inList form) := by
  cases form <;> unfold statementOf <;> dsimp only <;> infer_instance

/-! ## Productions and programs -/

instance (power : Nat) :
    Refines (k + 1) (readExpression self power) (readExpression self' power) := by
  unfold readExpression
  exact .nested_succ inferInstance

instance (inList : Bool) :
    Refines (k + 1) (readStatement self inList) (readStatement self' inList) := by
  unfold readStatement
  refine .nested_succ (.bind inferInstance (.refl _) fun start => ?_)
  cases start <;> dsimp only <;> infer_instance

instance : Refines k (program self) (program self') := by
  unfold program
  infer_instance

end Refines

/-! ## Productions in layers -/

theorem Productions.Refines.zero (table table' : Productions) : table.Refines 0 table' :=
  ⟨fun _ => .zero _ _, .zero _ _, fun _ => .zero _ _, .zero _ _, .zero _ _⟩

/-- Layers stand in for the productions of any depth up to the one of patterns. -/
theorem productions_refines {patterns fuel : Nat} (hfuel : fuel ≤ patterns) (layers : Nat) :
    (productions fuel).Refines layers (layered patterns layers) := by
  suffices h : ∀ p, fuel ≤ p → ∀ layers,
      (productions fuel).Refines (layers + 1) ((layered patterns layers).around.withPatterns p) by
    cases layers with
    | zero => exact .zero _ _
    | succ layers => exact h patterns hfuel layers
  induction fuel with
  | zero =>
      intro p _ layers
      constructor <;> intros <;> exact .outOfFuel _
  | succ fuel ih =>
      have hinner := ih (Nat.le_of_succ_le hfuel)
      intro p hp layers
      have := productions_stepwise fuel
      have hlayers : (productions fuel).Refines layers (layered patterns layers) := by
        cases layers with
        | zero => exact .zero _ _
        | succ layers => exact hinner patterns (Nat.le_of_succ_le hfuel) layers
      obtain ⟨p, rfl⟩ := Nat.exists_eq_succ_of_ne_zero (Nat.ne_of_gt (Nat.zero_lt_of_lt hp))
      have hpatterns := hinner p (Nat.le_of_succ_le_succ hp) layers
      refine ⟨fun power => ?_, ?_, fun inList => ?_, ?_, ?_⟩
      · rw [productions_expression, withPatterns_expression, around_expression]
        infer_instance
      · rw [productions_operand, withPatterns_operand, around_operand]
        change Refines layers _ _
        infer_instance
      · rw [productions_statement, withPatterns_statement, around_statement]
        infer_instance
      · rw [productions_bindingTarget, withPatterns_bindingTarget]
        infer_instance
      · rw [productions_assignmentPattern, withPatterns_assignmentPattern]
        infer_instance

end ScriptLint.Reading

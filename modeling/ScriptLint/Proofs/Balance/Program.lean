import ScriptLint.Proofs.Balance.Production
import ScriptLint.Proofs.Reading.Program

/-! # Balanced statements and programs

Statements, imports and exports are balanced as well, so all productions are, however deeply they
nest.
-/

set_option synthInstance.maxSize 4096

namespace ScriptLint.Reading

variable {bs : List Bracket}

namespace Balances

/-! ## Names in modules -/

instance : Balances bs moduleName bs := by
  unfold moduleName
  infer_instance

instance (name : String) (position : Position) : Balances bs (addExport name position) bs := by
  have hlisted : Balances bs (modify fun s : State => { s with exports := name :: s.exports }) bs :=
    quiet fun _ => ⟨rfl, rfl⟩
  unfold addExport
  infer_instance

instance (name : String) : Balances bs (exportVariable name) bs := by
  unfold exportVariable
  infer_instance

instance : Balances bs moduleWord? bs := by
  unfold moduleWord?
  infer_instance

/-! ## Initializers -/

instance (name : String) (position : Position) :
    Balances bs (reportUninitialized name position) bs := by
  unfold reportUninitialized
  infer_instance

instance (name : String) (position : Position) :
    Balances bs (reportUndefinedValue name position) bs := by
  unfold reportUndefinedValue
  infer_instance

instance (fault : String → Position → Reading Unit)
    [∀ name position, Balances bs (fault name position) bs] (names : List BoundName) :
    Balances bs (reportFirst fault names) bs := by
  unfold reportFirst
  split <;> infer_instance

instance (kind : Scope.BindingKind) (target : BindingTarget) (value : Expression) :
    Balances bs (checkInitializer kind target value) bs := by
  unfold checkInitializer
  split <;> infer_instance

variable (self : Productions) [hself : self.Balances]

/-! ## Blocks and branches -/

instance : Balances bs (block self) bs := by
  unfold block
  infer_instance

instance : Balances bs (subject self) bs := by
  unfold subject
  infer_instance

instance (condition : Expression) : Balances bs (checkCondition condition) bs := by
  unfold checkCondition
  infer_instance

instance : Balances bs (condition self) bs := by
  unfold condition
  infer_instance

instance : Balances bs (ifStatement self) bs := by
  unfold ifStatement
  infer_instance

instance : Balances bs (withStatement self) bs := by
  unfold withStatement
  infer_instance

instance (before : Clause) : Balances bs (clauseHead self before) bs := by
  unfold clauseHead
  infer_instance

instance (clause : Clause) : Balances bs (switchRound self clause) bs := by
  unfold switchRound
  infer_instance

instance : Balances bs (switchStatement self) bs := by
  unfold switchStatement
  infer_instance

instance : Balances bs (catchClause self) bs := by
  unfold catchClause
  infer_instance

instance : Balances bs (tryStatement self) bs := by
  unfold tryStatement
  infer_instance

/-! ## Variable declarations -/

instance (kind : Scope.BindingKind) (target : BindingTarget) :
    Balances bs (initializer self kind target) bs := by
  unfold initializer
  infer_instance

instance (kind : Scope.BindingKind) (inHead : Bool) (ds : Declarations) :
    Balances bs (declarator self kind inHead ds) bs := by
  unfold declarator
  infer_instance

instance (kind : Scope.BindingKind) (inHead : Bool) (ds : Declarations) :
    Balances bs (declaratorRound self kind inHead ds) bs := by
  unfold declaratorRound
  infer_instance

instance (kind : Scope.BindingKind) (inHead : Bool) :
    Balances bs (declarations self kind inHead) bs := by
  unfold declarations
  infer_instance

/-! ## Jumps -/

instance (word : String) (inList : Bool) : Balances bs (checkReached word inList) bs := by
  unfold checkReached
  infer_instance

instance (word : String) (inList : Bool) : Balances bs (endJump word inList) bs := by
  unfold endJump
  infer_instance

instance (word name : String) (position : Position) :
    Balances bs (checkLabel word name position) bs := by
  unfold checkLabel
  refine .bind inferInstance fun t => ?_
  split <;> infer_instance

instance (word : String) (position : Position) :
    Balances bs (checkSurroundings word position) bs := by
  unfold checkSurroundings
  infer_instance

instance (word : String) (inList : Bool) : Balances bs (breakStatement word inList) bs := by
  unfold breakStatement
  infer_instance

instance (inList : Bool) : Balances bs (returnStatement self inList) bs := by
  unfold returnStatement
  infer_instance

instance (inList : Bool) : Balances bs (throwStatement self inList) bs := by
  unfold throwStatement
  infer_instance

/-! ## Loops -/

instance : Balances bs (loopBody self) bs := by
  unfold loopBody
  infer_instance

instance : Balances bs (whileStatement self) bs := by
  unfold whileStatement
  infer_instance

instance : Balances bs (doStatement self) bs := by
  unfold doStatement
  infer_instance

instance : Balances bs declarationKind? bs := by
  unfold declarationKind?
  infer_instance

instance : Balances bs atLoopPattern bs := by
  unfold atLoopPattern
  infer_instance

instance : Balances bs (loopHead self) bs := by
  unfold loopHead
  refine .bind inferInstance fun empty => ?_
  split
  · infer_instance
  · refine .bind inferInstance fun kind? => ?_
    split <;> infer_instance

instance : Balances bs iteration? bs := by
  unfold iteration?
  infer_instance

instance (kind : Scope.BindingKind) (ds : Declarations) (iteration : Iteration)
    (position : Position) : Balances bs (checkLoopDeclarations kind ds iteration position) bs := by
  unfold checkLoopDeclarations
  infer_instance

instance (target : Expression) : Balances bs (loopTarget target) bs := by
  unfold loopTarget
  split <;> infer_instance

instance (iteration : Iteration) (position : Position) :
    Balances bs (iterationRest self iteration position) bs := by
  unfold iterationRest
  split <;> infer_instance

instance : Balances bs (countedRest self) bs := by
  unfold countedRest
  infer_instance

instance (position : Position) (head : LoopHead) :
    Balances bs (forRest self position head) bs := by
  unfold forRest
  refine .bind inferInstance fun iteration? => ?_
  split <;> infer_instance

instance : Balances bs (forStatement self) bs := by
  unfold forStatement
  infer_instance

/-! ## Imports and exports -/

instance (word feature : String) : Balances bs (moduleItem word feature) bs := by
  unfold moduleItem
  infer_instance

instance : Balances bs fromModule bs := by
  unfold fromModule
  infer_instance

instance : Balances bs importBinding bs := by
  unfold importBinding
  infer_instance

instance (state : Unit) : Balances bs (importItem state) bs := by
  unfold importItem
  refine .bind inferInstance fun word? => ?_
  split <;> infer_instance

instance : Balances bs importClause bs := by
  unfold importClause
  infer_instance

instance : Balances bs importDeclaration bs := by
  unfold importDeclaration
  infer_instance

instance (items : List ExportItem) : Balances bs (exportItem items) bs := by
  unfold exportItem
  refine .bind inferInstance fun word? => ?_
  split <;> infer_instance

instance : Balances bs exportNames bs := by
  unfold exportNames
  infer_instance

instance : Balances bs exportAll bs := by
  unfold exportAll
  infer_instance

instance : Balances bs atAsyncFunction bs := by
  unfold atAsyncFunction
  infer_instance

instance (position : Position) : Balances bs (exportDefault self position) bs := by
  unfold exportDefault
  infer_instance

instance (kind : Scope.BindingKind) : Balances bs (exportedVariables self kind) bs := by
  unfold exportedVariables
  infer_instance

instance : Balances bs (exportedDeclaration self) bs := by
  unfold exportedDeclaration
  infer_instance

instance : Balances bs (exportDeclaration self) bs := by
  unfold exportDeclaration
  infer_instance

/-! ## Statements -/

instance (word : String) (inList : Bool) : Balances bs (checkInList word inList) bs := by
  unfold checkInList
  infer_instance

instance (kind : Scope.BindingKind) : Balances bs (variableStatement self kind) bs := by
  unfold variableStatement
  infer_instance

instance (async inList : Bool) : Balances bs (functionStatement self async inList) bs := by
  unfold functionStatement
  infer_instance

instance (e : Expression) : Balances bs (checkEffect e) bs := by
  unfold checkEffect
  infer_instance

instance : Balances bs (expressionStatement self) bs := by
  unfold expressionStatement
  infer_instance

instance : Balances bs (labelledStatement self) bs := by
  unfold labelledStatement
  infer_instance

instance : Balances bs debuggerStatement bs := by
  unfold debuggerStatement
  infer_instance

instance (inList : Bool) : Balances bs (emptyStatement inList) bs := by
  unfold emptyStatement
  infer_instance

instance : Balances bs (importStatement self) bs := by
  unfold importStatement
  infer_instance

instance (inList : Bool) (form : StatementForm) :
    Balances bs (statementOf self inList form) bs := by
  cases form <;> unfold statementOf <;> infer_instance

instance : Balances bs statementStart bs := by
  unfold statementStart
  refine .bind inferInstance fun t => .bind inferInstance fun next => ?_
  cases (Symbol.ofToken t).statement? <;> infer_instance

instance (inList : Bool) : Balances bs (readStatement self inList) bs := by
  unfold readStatement
  refine .nested (.bind inferInstance fun start => ?_)
  split <;> infer_instance

end Balances

end ScriptLint.Reading

/-! ## Whole productions -/

namespace ScriptLint.Reading

open Scope (Tracker)

/-- The productions of the grammar, over a table for those through which it is recursive. -/
inductive ParseFunction (self : Productions) : {α : Type} → Reading α → Prop
  -- Expressions
  | expression (power : Nat) : ParseFunction self (readExpression self power)
  | operand : ParseFunction self (readOperand self)
  | operandOf (form : OperandForm) : ParseFunction self (operandOf self form)
  | missingOperand : ParseFunction self missingOperand
  | name : ParseFunction self (nameExpression self)
  | yieldExpression : ParseFunction self (yieldExpression self)
  | awaitExpression : ParseFunction self (awaitExpression self)
  | literal : ParseFunction self literal
  | regexp : ParseFunction self regexpLiteral
  | template : ParseFunction self (templateLiteral self)
  | arrayLiteral : ParseFunction self (arrayLiteral self)
  | objectLiteral : ParseFunction self (objectLiteral self)
  | parenthesis : ParseFunction self (parenthesis self)
  | unary : ParseFunction self (unaryExpression self)
  | update : ParseFunction self (updateExpression self)
  | newExpression : ParseFunction self (newExpression self)
  | importExpression : ParseFunction self (importExpression self)
  | superWord : ParseFunction self superWord
  | functionSent : ParseFunction self functionSent
  | operation (symbol : Symbol) (form : OperatorForm) (left : Expression) :
      ParseFunction self (operation self symbol form left)
  | binary (power : Nat) (left : Expression) : ParseFunction self (binaryOperation self power left)
  | assignment (left : Expression) : ParseFunction self (assignmentOperation self left)
  | dot : ParseFunction self propertyAfterDot
  | optionalAccess : ParseFunction self (optionalAccess self)
  | index : ParseFunction self (index self)
  | call (callee : Expression) : ParseFunction self (callOperation self callee)
  | arguments : ParseFunction self (arguments self)
  -- Functions
  | functionDeclaration (async anonymous : Bool) :
      ParseFunction self (functionDeclaration self async anonymous)
  | functionExpression (async : Bool) : ParseFunction self (functionExpression self async)
  | functionRest (facts : Scope.FunctionFacts) (position : Position) (ownName? : Option BoundName) :
      ParseFunction self (functionRest self facts position ownName?)
  | parameters : ParseFunction self (parameters self)
  | declareParameters (ps : Parameters) (method : Bool) :
      ParseFunction self (declareParameters ps method)
  | functionBody (simple : Bool) : ParseFunction self (functionBody self simple)
  | arrowFunction (async : Bool) : ParseFunction self (arrowFunction self async)
  | method (key? : Option String) (m : Modifiers) (constructor : Bool) :
      ParseFunction self (method self key? m constructor)
  -- Properties and classes
  | modifiers : ParseFunction self modifiers
  | propertyKey : ParseFunction self (propertyKey self)
  | objectProperty (keys : KeyTable) : ParseFunction self (objectProperty self keys)
  | readClass (declaration anonymous : Bool) :
      ParseFunction self (readClass self declaration anonymous)
  | classRest (bound? : Option BoundName) : ParseFunction self (classRest self bound?)
  | classMember : ParseFunction self (classMember self)
  | staticBlock (position : Position) : ParseFunction self (staticBlock self position)
  -- Patterns
  | bindingTarget : ParseFunction self (readBindingTarget self)
  | arrayBinding : ParseFunction self (arrayBinding self)
  | objectBinding : ParseFunction self (objectBinding self)
  | patternDefault : ParseFunction self (patternDefault self)
  | computedKey : ParseFunction self (computedKey self)
  | assignmentPattern : ParseFunction self (readAssignmentPattern self)
  | assignmentPatternExpression : ParseFunction self (assignmentPatternExpression self)
  | assignmentProperty : ParseFunction self (assignmentProperty self)
  | assignmentElement : ParseFunction self (assignmentElement self)
  -- Statements
  | statement (inList : Bool) : ParseFunction self (readStatement self inList)
  | statementOf (inList : Bool) (form : StatementForm) :
      ParseFunction self (statementOf self inList form)
  | statementList (top : Bool) : ParseFunction self (statementList self top)
  | directives (simpleParameters? : Option Bool) :
      ParseFunction self (directives simpleParameters?)
  | expressionStatement : ParseFunction self (expressionStatement self)
  | labelledStatement : ParseFunction self (labelledStatement self)
  | block : ParseFunction self (block self)
  | variables (kind : Scope.BindingKind) : ParseFunction self (variableStatement self kind)
  | declarations (kind : Scope.BindingKind) (inHead : Bool) :
      ParseFunction self (declarations self kind inHead)
  | functionStatement (async inList : Bool) :
      ParseFunction self (functionStatement self async inList)
  | condition : ParseFunction self (condition self)
  | ifStatement : ParseFunction self (ifStatement self)
  | loopBody : ParseFunction self (loopBody self)
  | whileStatement : ParseFunction self (whileStatement self)
  | doStatement : ParseFunction self (doStatement self)
  | forStatement : ParseFunction self (forStatement self)
  | forRest (position : Position) (head : LoopHead) :
      ParseFunction self (forRest self position head)
  | iteration (iteration : Iteration) (position : Position) :
      ParseFunction self (iterationRest self iteration position)
  | switchStatement : ParseFunction self (switchStatement self)
  | breakStatement (word : String) (inList : Bool) : ParseFunction self (breakStatement word inList)
  | returnStatement (inList : Bool) : ParseFunction self (returnStatement self inList)
  | throwStatement (inList : Bool) : ParseFunction self (throwStatement self inList)
  | tryStatement : ParseFunction self (tryStatement self)
  | catchClause : ParseFunction self (catchClause self)
  | withStatement : ParseFunction self (withStatement self)
  -- Imports and exports
  | importDeclaration : ParseFunction self importDeclaration
  | importBinding : ParseFunction self importBinding
  | moduleName : ParseFunction self moduleName
  | exportDeclaration : ParseFunction self (exportDeclaration self)

theorem ParseFunction.balances {self : Productions} [self.Balances] {α : Type} {step : Reading α}
    (hstep : ParseFunction self step) (bs : List Bracket) : Balances bs step bs := by
  cases hstep <;> infer_instance

theorem productions_balance (fuel : Nat) : (productions fuel).Balances := by
  induction fuel with
  | zero => refine ⟨?_, ?_, ?_, ?_, ?_⟩ <;> intros <;> exact .quiet fun _ => ⟨rfl, rfl⟩
  | succ fuel ih =>
      refine ⟨fun bs power => ?_, fun bs => ?_, fun bs inList => ?_, fun bs => ?_, fun bs => ?_⟩
      · rw [productions_expression]
        infer_instance
      · rw [productions_operand]
        infer_instance
      · rw [productions_statement]
        infer_instance
      · rw [productions_bindingTarget]
        infer_instance
      · rw [productions_assignmentPattern]
        infer_instance

instance (fuel : Nat) : (productions fuel).Balances := productions_balance fuel

/-! ## Balance -/

/-- In the second state, the same frames are open as in the first one, as deep, and at the current
function there are the same labels and as many loops. -/
structure State.Balanced (s s' : State) : Prop where
  stack : s'.session.tracker.stack = s.session.tracker.stack
  depth : s'.depth = s.depth
  functionId : s'.session.tracker.functionId = s.session.tracker.functionId
  labels : s'.session.tracker.functionFrame.labels = s.session.tracker.functionFrame.labels
  loopDepth : s'.session.tracker.functionFrame.loopDepth = s.session.tracker.functionFrame.loopDepth
  breakableDepth : s'.session.tracker.functionFrame.breakableDepth =
    s.session.tracker.functionFrame.breakableDepth

theorem State.Balanced.of_holds {s s' : State} (hdepth : s'.depth = s.depth)
    (h : s.session.tracker.Holds [] s'.session.tracker) : s.Balanced s' := by
  obtain ⟨hstack, hframes⟩ := h.closed
  have hstation : s'.session.tracker.functionFrame.station.setStrict =
      s.session.tracker.functionFrame.station.setStrict := by
    rw [Tracker.functionFrame, h.functionId_eq]
    exact hframes _ (s.session.tracker.functionId_mem_stack h.nonempty)
  exact ⟨hstack, hdepth, h.functionId_eq, congrArg Scope.Station.labels hstation,
    congrArg Scope.Station.loopDepth hstation, congrArg Scope.Station.breakableDepth hstation⟩

/-- All of a program but that its frames are closed in the end. -/
def content (self : Productions) : Reading Statement := do
  acceptLookahead
  directives none
  statementList self true

theorem program_eq (self : Productions) :
    program self = content self >>= fun _ => inScopes Scope.Action.finish := by
  simp [program, content]

instance {bs : List Bracket} (self : Productions) [self.Balances] :
    Balances bs (content self) bs := by
  unfold content
  infer_instance

/-- What is open where a balanced step ends, however it ends. -/
theorem Balances.outcome {bs : List Bracket} {α : Type} {step : Reading α} {base : Tracker}
    {s : State} (hstep : Balances bs step bs) (hs : base.Holds bs s.session.tracker) :
    ∃ bs, base.Holds bs (step.run.run s).2.session.tracker := by
  have houtcome := (hstep.plays hs).2
  rcases hrun : step.run.run s with ⟨stop | a, s'⟩ <;> rw [hrun] at houtcome
  · exact houtcome
  · exact ⟨bs, houtcome.1⟩

theorem startState_outermost (source : String) (o : Options) (known : KnownGlobals) :
    (Analysis.startState source o known).session.tracker.stack.getLast? = some 0 := by
  change (Tracker.start known _ o.module _).stack.getLast? = some 0
  unfold Tracker.start
  cases o.module <;> rfl

theorem startState_stack_ne_nil (source : String) (o : Options) (known : KnownGlobals) :
    (Analysis.startState source o known).session.tracker.stack ≠ [] := by
  intro hnil
  have hlast := startState_outermost source o known
  rw [hnil] at hlast
  cases hlast

theorem startState_stacked (source : String) (o : Options) (known : KnownGlobals) :
    (Analysis.startState source o known).session.tracker.Stacked := Tracker.Stacked.start ..

/-- What opens a program is open as long as all that was open with it. -/
theorem getLast?_of_suffix {outer ids : List Nat} {id : Nat} (hlast : outer.getLast? = some id)
    (hsuffix : outer <:+ ids) : ids.getLast? = some id := by
  obtain ⟨inner, rfl⟩ := hsuffix
  rw [List.getLast?_append, hlast]
  rfl

/-- A production that goes through leaves what is open as it found it. Until then, and also if it
is cut short, the frames that were open stay open, and each operation on the scopes finds what it
relies on. So the frame of a program is open until all of the program is read. -/
theorem parsing_is_balanced (fuel : Nat) :
    (∀ {α : Type} {step : Reading α}, ParseFunction (productions fuel) step →
      ∀ s : State, s.session.tracker.Stacked → s.session.tracker.stack ≠ [] →
        (∀ a s', step.run.run s = (.ok a, s') → s.Balanced s') ∧
        Performed s.session.tracker step s ∧
        (step.run.run s).2.session.tracker.Stacked ∧
        s.session.tracker.stack <:+ (step.run.run s).2.session.tracker.stack) ∧
    program (productions fuel) =
      (content (productions fuel) >>= fun _ => inScopes Scope.Action.finish) ∧
    ∀ source o known, let s := Analysis.startState source o known
      (∃ log, Logs (content (productions fuel)) s log ∧ ∀ entry ∈ log,
        entry.1.Stacked ∧ entry.1.stack.getLast? = some 0 ∧ entry.2.Finds entry.1) ∧
      ((content (productions fuel)).run.run s).2.session.tracker.stack.getLast? = some 0 := by
  refine ⟨fun hstep s hs hopen => ?_, program_eq _, fun source o known => ?_⟩
  · have hbalances := hstep.balances []
    have hholds := Tracker.Holds.refl hs hopen
    obtain ⟨hperformed, houtcome⟩ := hbalances.plays hholds
    obtain ⟨bs, hend⟩ := hbalances.outcome hholds
    refine ⟨fun a s' hrun => ?_, hperformed, hend.stacked, hend.outer⟩
    rw [hrun] at houtcome
    exact .of_holds houtcome.2 houtcome.1
  · have hbalances : Balances [] (content (productions fuel)) [] := inferInstance
    have hlast := startState_outermost source o known
    have hholds := Tracker.Holds.refl (startState_stacked source o known)
      (startState_stack_ne_nil source o known)
    obtain ⟨⟨log, hlog, hmet⟩, -⟩ := hbalances.plays hholds
    obtain ⟨bs, hend⟩ := hbalances.outcome hholds
    refine ⟨⟨log, hlog, fun entry hmem => ?_⟩, getLast?_of_suffix hlast hend.outer⟩
    obtain ⟨hstacked, houter, hfinds⟩ := hmet entry hmem
    exact ⟨hstacked, getLast?_of_suffix hlast houter, hfinds⟩

/-- A loop that lacks a parenthesis is read to its end, and leaves no label and no loop behind. -/
theorem parsing_is_balanced_broken_loop :
    let s := Analysis.startState "a: while (b { let c; continue a; }" { edition := .es2015 } {}
    let step := readStatement (productions 16) true
    s.session.tracker.Stacked ∧ s.session.tracker.stack ≠ [] ∧
      (step.run.run s).1.isOk ∧ s.Balanced (step.run.run s).2 := by
  intro s step
  have hstacked : s.session.tracker.Stacked := startState_stacked ..
  have hopen : s.session.tracker.stack ≠ [] := startState_stack_ne_nil _ _ _
  have hread : (step.run.run s).1.isOk := by decide +kernel
  refine ⟨hstacked, hopen, hread, ?_⟩
  obtain ⟨hbalanced, -⟩ := (parsing_is_balanced 16).1 (.statement true) s hstacked hopen
  rcases hrun : step.run.run s with ⟨stop | a, s'⟩
  · rw [hrun] at hread
    cases hread
  · exact hbalanced a s' hrun

end ScriptLint.Reading

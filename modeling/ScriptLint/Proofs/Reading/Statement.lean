import ScriptLint.Proofs.Reading.Expression

/-! # The steps of statements

Every statement is put together from the steps of reading, and so is every program.
-/

set_option synthInstance.maxSize 4096

namespace ScriptLint.Reading

variable {n m : Nat} {s : State} {sure : Prop}

namespace Steady

variable (self : Productions) [hself : self.Steady m]

/-! ## Blocks and branches -/

instance [Reach n m] : Steady n (block self) := by
  unfold block
  infer_instance

instance : Steady m (subject self) := by
  unfold subject
  infer_instance

instance (condition : Expression) : Steady n (checkCondition condition) := by
  unfold checkCondition
  infer_instance

instance : Steady m (condition self) := by
  unfold condition
  infer_instance

instance [Reach n m] : Steady n (ifStatement self) := by
  unfold ifStatement
  infer_instance

instance [Reach n m] : Steady n (withStatement self) := by
  unfold withStatement
  infer_instance

instance (before : Clause) : Consumes m (clauseHead self before) := by
  unfold clauseHead
  infer_instance

instance (clause : Clause) : Advances m (switchRound self clause) where
  stepwise := by
    have := hself.mono (Nat.zero_le m)
    exact .of_steady (n := 0) (by unfold switchRound; infer_instance)
  meets {s sure} hs hn := by
    refine .token ?_
    split
    · exact .ends (.refl hs)
    next hends =>
      have hend : s.lookahead.isEnd = false := by
        cases h : s.lookahead.isEnd <;> simp [h] at hends ⊢
      split
      next =>
        have hconsumes : Consumes m (do
          clauseHead self clause
          pure (.again .empty : Round Clause Unit)) := inferInstance
        exact hconsumes.moves (.refl hs) hn (hs.left_pos hend)
      next =>
        have hstatement (session : Scope.Session) :=
          moves_of_statement self true (s := { s with session }) hs hn hend fun statement =>
            (.again (.running statement.exits) : Round Clause Unit)
        dsimp only
        split
        next =>
          -- The report leaves the place where it is.
          have hreport : Meets sure (reportInstead "case" s.lookahead) s
              fun _ s' => ∃ session, s' = { s with session } :=
            .report fun session => ⟨session, rfl⟩
          refine hreport.bind ?_
          rintro _ _ ⟨session, rfl⟩
          have hreaches : s.Reaches { s with session } := .of_same hs rfl rfl rfl rfl
          exact (hstatement session).mono fun _ _ h => ⟨hreaches.trans h.reaches, h.left_lt⟩
        next => exact hstatement s.session

instance [Reach n m] : Steady n (switchStatement self) := by
  unfold switchStatement
  infer_instance

instance : Steady m (catchClause self) := by
  unfold catchClause
  infer_instance

instance [Reach n m] : Steady n (tryStatement self) := by
  unfold tryStatement
  infer_instance

/-! ## Variable declarations -/

instance (name : String) (position : Position) : Steady n (reportUninitialized name position) := by
  unfold reportUninitialized
  infer_instance

instance (name : String) (position : Position) : Steady n (reportUndefinedValue name position) := by
  unfold reportUndefinedValue
  infer_instance

instance (fault : String → Position → Reading Unit)
    [∀ name position, Steady n (fault name position)] (names : List BoundName) :
    Steady n (reportFirst fault names) := by
  unfold reportFirst
  split <;> infer_instance

instance (kind : Scope.BindingKind) (target : BindingTarget) (value : Expression) :
    Steady n (checkInitializer kind target value) := by
  unfold checkInitializer
  split <;> infer_instance

instance (kind : Scope.BindingKind) (target : BindingTarget) :
    Steady m (initializer self kind target) := by
  unfold initializer
  infer_instance

instance (kind : Scope.BindingKind) (inHead : Bool) (ds : Declarations) :
    Steady m (declarator self kind inHead ds) := by
  unfold declarator
  infer_instance

instance (kind : Scope.BindingKind) (inHead : Bool) (ds : Declarations) :
    Advances m (declaratorRound self kind inHead ds) :=
  .after inferInstance fun _ => .test inferInstance (.pure _) .ends

instance [Reach n m] (kind : Scope.BindingKind) (inHead : Bool) :
    Steady n (declarations self kind inHead) := by
  unfold declarations
  infer_instance

/-! ## Jumps -/

instance (word : String) (inList : Bool) : Steady n (checkReached word inList) := by
  unfold checkReached
  infer_instance

instance (word : String) (inList : Bool) : Steady n (endJump word inList) := by
  unfold endJump
  infer_instance

instance (word name : String) (position : Position) : Steady n (checkLabel word name position) := by
  unfold checkLabel
  refine .bind inferInstance fun t => ?_
  split <;> infer_instance

instance (word : String) (position : Position) : Steady n (checkSurroundings word position) := by
  unfold checkSurroundings
  infer_instance

instance (word : String) (inList : Bool) : Steady n (breakStatement word inList) := by
  unfold breakStatement
  infer_instance

instance [Reach n m] (inList : Bool) : Steady n (returnStatement self inList) := by
  unfold returnStatement
  infer_instance

instance [Reach n m] (inList : Bool) : Steady n (throwStatement self inList) := by
  unfold throwStatement
  infer_instance

/-! ## Loops -/

instance : Steady m (loopBody self) := by
  unfold loopBody
  infer_instance

instance [Reach n m] : Steady n (whileStatement self) := by
  unfold whileStatement
  infer_instance

instance [Reach n m] : Steady n (doStatement self) := by
  unfold doStatement
  infer_instance

instance : Steady n declarationKind? := by
  unfold declarationKind?
  infer_instance

instance : Steady n atLoopPattern := by
  unfold atLoopPattern
  infer_instance

instance {α : Type} {step : Reading α} [hstep : Steady n step] : Steady n (excludingIn step) := by
  refine .of_runUnder hstep ?_ (.excludingIn step) fun s => ⟨_, _, run_excludingIn step s⟩
  exact .bind (setInExcluded_stepwise true) fun _ => .bind hstep.stepwise fun a =>
    .bind (setInExcluded_stepwise false) fun _ => .pure a

instance : Steady m (loopHead self) := by
  unfold loopHead
  refine .bind inferInstance fun empty => ?_
  split
  · infer_instance
  · refine .bind inferInstance fun kind? => ?_
    split <;> infer_instance

instance : Steady n iteration? := by
  unfold iteration?
  infer_instance

instance (kind : Scope.BindingKind) (ds : Declarations) (iteration : Iteration)
    (position : Position) : Steady n (checkLoopDeclarations kind ds iteration position) := by
  unfold checkLoopDeclarations
  infer_instance

instance (target : Expression) : Steady n (loopTarget target) := by
  unfold loopTarget
  split <;> infer_instance

instance (iteration : Iteration) (position : Position) :
    Steady m (iterationRest self iteration position) := by
  unfold iterationRest
  split <;> infer_instance

instance : Steady m (countedRest self) := by
  unfold countedRest
  infer_instance

instance (position : Position) (head : LoopHead) : Steady m (forRest self position head) := by
  unfold forRest
  refine .bind inferInstance fun iteration? => ?_
  split <;> infer_instance

instance [Reach n m] : Steady n (forStatement self) := by
  unfold forStatement
  infer_instance

/-! ## Imports and exports -/

instance (word feature : String) : Steady n (moduleItem word feature) := by
  unfold moduleItem
  infer_instance

instance : Steady n moduleName := by
  unfold moduleName
  infer_instance

instance : Steady n fromModule := by
  unfold fromModule
  infer_instance

instance : Steady n moduleWord? := by
  unfold moduleWord?
  infer_instance

instance : Steady n importBinding := by
  unfold importBinding
  infer_instance

instance (state : Unit) : Steady n (importItem state) := by
  unfold importItem
  refine .bind inferInstance fun word? => ?_
  split <;> infer_instance

instance : Steady n importClause := by
  unfold importClause
  infer_instance

instance : Steady n importDeclaration := by
  unfold importDeclaration
  infer_instance

instance (name : String) (position : Position) : Steady n (addExport name position) := by
  refine .observe (fun _ _ => rfl) fun s => ?_
  split
  · infer_instance
  · exact .change (fun _ h => ⟨h.maxErrors, rfl⟩) (fun _ => rfl) fun _ => rfl

instance (name : String) : Steady n (exportVariable name) := by
  unfold exportVariable
  infer_instance

instance (items : List ExportItem) : Steady n (exportItem items) := by
  unfold exportItem
  refine .bind inferInstance fun word? => ?_
  split <;> infer_instance

instance : Steady n exportNames := by
  unfold exportNames
  infer_instance

instance : Steady n exportAll := by
  unfold exportAll
  infer_instance

instance : Steady n atAsyncFunction := by
  unfold atAsyncFunction
  infer_instance

instance (position : Position) : Steady m (exportDefault self position) := by
  unfold exportDefault
  infer_instance

instance (kind : Scope.BindingKind) : Steady m (exportedVariables self kind) := by
  unfold exportedVariables
  infer_instance

instance : Steady m (exportedDeclaration self) := by
  unfold exportedDeclaration
  infer_instance

instance [Reach n m] : Steady n (exportDeclaration self) := by
  unfold exportDeclaration
  infer_instance

/-! ## Statements -/

instance (word : String) (inList : Bool) : Steady n (checkInList word inList) := by
  unfold checkInList
  infer_instance

instance [Reach n m] (kind : Scope.BindingKind) : Steady n (variableStatement self kind) := by
  unfold variableStatement
  infer_instance

instance [Reach n m] (async inList : Bool) : Steady n (functionStatement self async inList) := by
  unfold functionStatement
  infer_instance

instance (e : Expression) : Steady n (checkEffect e) := by
  unfold checkEffect
  infer_instance

instance [Steady n (self.expression 0)] : Steady n (expressionStatement self) := by
  unfold expressionStatement
  infer_instance

instance [Reach n m] : Steady n (labelledStatement self) := by
  unfold labelledStatement
  infer_instance

instance : Steady n debuggerStatement := by
  unfold debuggerStatement
  infer_instance

instance (inList : Bool) : Steady n (emptyStatement inList) := by
  unfold emptyStatement
  infer_instance

instance [Reach n m] [Steady n (self.expression 0)] : Steady n (importStatement self) := by
  unfold importStatement
  infer_instance

instance [Reach n m] [Steady n (self.expression 0)] (inList : Bool) (form : StatementForm) :
    Steady n (statementOf self inList form) := by
  cases form <;> unfold statementOf <;> infer_instance

instance : Steady n statementStart := by
  unfold statementStart
  refine .bind inferInstance fun t => .bind inferInstance fun next => ?_
  cases (Symbol.ofToken t).statement? <;> infer_instance

instance [Reach n m] [Steady n (self.expression 0)] (inList : Bool) :
    Steady n (readStatement self inList) := by
  unfold readStatement
  refine .nested (.bind inferInstance fun start => ?_)
  split <;> infer_instance

end Steady

end ScriptLint.Reading

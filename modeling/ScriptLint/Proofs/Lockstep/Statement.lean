import ScriptLint.Proofs.Lockstep.Expression
import ScriptLint.Proofs.Reading.Program

/-! # Statements in lockstep

Statements are in lockstep if the productions they are written over are, and so is the table of all
productions, to any depth.
-/

set_option synthInstance.maxSize 65536

namespace ScriptLint.Reading.Lockstep

variable {p : Pairing} [hp : p.Lawful] (self : Productions) [hself : self.Lockstep p]

/-! ## Branches -/

instance : Lockstep p (block self) := by
  unfold block
  infer_instance

instance : Lockstep p (subject self) := by
  unfold subject
  infer_instance

instance (e : Expression) [hposition : Behind p.start e] : Lockstep p (checkCondition e) := by
  have hcode : "W084" ∈ Flag.boss.codes := by decide
  exact .noteUnless .boss rfl (n := ⟨"W084", e.position, [], by decide⟩) hcode hposition.behind
    e.isBareAssignment fun _ => rfl

instance : Lockstep p (condition self) := by
  unfold condition
  infer_instance

instance : Lockstep p (ifStatement self) := by
  unfold ifStatement
  infer_instance

instance : Lockstep p (withStatement self) := by
  unfold withStatement
  refine .bind inferInstance fun first => .bind inferInstance fun strict => ?_
  have hcode : "W085" ∈ Flag.withstmt.codes := by decide
  dsimp only
  split
  · infer_instance
  · refine .askThen ?_ fun _ => inferInstance
    exact .noteUnless .withstmt rfl (n := ⟨"W085", first.1.position, [], by decide⟩) hcode
      first.2.start.passes true fun _ => rfl

instance (before : Clause) : Lockstep p (clauseHead self before) := by
  unfold clauseHead
  infer_instance

instance (clause : Clause) : Lockstep p (switchRound self clause) := by
  unfold switchRound
  infer_instance

instance : Lockstep p (switchStatement self) := by
  unfold switchStatement
  infer_instance

instance : Lockstep p (catchClause self) := by
  unfold catchClause
  infer_instance

instance : Lockstep p (tryStatement self) := by
  unfold tryStatement
  infer_instance

/-! ## Declarations -/

instance (name : String) (position : Position) [Behind p.start position] :
    Lockstep p (reportUninitialized name position) := by
  unfold reportUninitialized
  infer_instance

instance (name : String) (position : Position) [Behind p.start position] :
    Lockstep p (reportUndefinedValue name position) := by
  unfold reportUndefinedValue
  infer_instance

omit hp in
instance (fault : String → Position → Reading Unit) (names : List BoundName)
    [hnames : Behind p.start names]
    [hfault : ∀ name (position : Places Position p.start), Lockstep p (fault name position.1)] :
    Lockstep p (reportFirst fault names) := by
  cases names with
  | nil => exact .pure ()
  | cons first rest => exact hfault first.name ⟨first.position, hnames.behind first List.mem_cons_self⟩

/-- A report about a name that is not declared, if it is asked for. -/
theorem checkDeclared (asked : Bool) (name : String) {n : Notice} (hcode : n.code ∈ plainCodes)
    (hposition : p.start.Passes n.position) :
    Lockstep p (tracker >>= fun t => if asked && !t.isDeclared name then
      Reading.report n.code n.position n.arguments n.regular else pure ()) := by
  cases asked with
  | false => exact .congr (fun _ => rfl) (.pure ())
  | true => exact .undeclared name hcode hposition fun _ => rfl

instance (kind : Scope.BindingKind) (target : BindingTarget) [Behind p.start target]
    (value : Expression) [hvalue : Behind p.start value] :
    Lockstep p (checkInitializer kind target value) := by
  unfold checkInitializer
  refine .iteThen inferInstance fun _ => ?_
  split
  next name _ _ =>
    exact .checkDeclared (!value.parenthesized) name
      (n := ⟨"W120", value.position, [name], by decide⟩) Scope.Listed.mem hvalue.behind
  next => infer_instance

instance (kind : Scope.BindingKind) (target : BindingTarget) [Behind p.start target] :
    Lockstep p (initializer self kind target) := by
  unfold initializer
  infer_instance

instance (kind : Scope.BindingKind) (inHead : Bool) (ds : Declarations) [Behind p.start ds] :
    Lockstep p (declarator self kind inHead ds) := by
  unfold declarator
  infer_instance

instance (kind : Scope.BindingKind) (inHead : Bool) (ds : Declarations) [Behind p.start ds] :
    Lockstep p (declaratorRound self kind inHead ds) := by
  unfold declaratorRound
  infer_instance

instance (kind : Scope.BindingKind) (inHead : Bool) :
    Lockstep p (declarations self kind inHead) := by
  unfold declarations
  infer_instance

/-! ## Jumps -/

instance (word : String) (inList : Bool) : Lockstep p (checkReached word inList) := by
  unfold checkReached
  infer_instance

instance (word : String) (inList : Bool) : Lockstep p (endJump word inList) := by
  unfold endJump
  infer_instance

instance (word name : String) (position : Position) [Behind p.start position] :
    Lockstep p (checkLabel word name position) := by
  unfold checkLabel
  refine .look (fun h => by rw [h.label?]) fun t => ?_
  split <;> infer_instance

instance (word : String) (position : Position) [Behind p.start position] :
    Lockstep p (checkSurroundings word position) := by
  unfold checkSurroundings
  refine .look (fun h => ?_) fun t => inferInstance
  dsimp only
  rw [Scope.Frame.field_eq h.functionFrame Scope.Frame.breakableDepth,
    Scope.Frame.field_eq h.functionFrame Scope.Frame.loopDepth]

instance (word : String) (inList : Bool) : Lockstep p (breakStatement word inList) := by
  unfold breakStatement
  infer_instance

instance (inList : Bool) : Lockstep p (returnStatement self inList) := by
  unfold returnStatement
  infer_instance

instance (inList : Bool) : Lockstep p (throwStatement self inList) := by
  unfold throwStatement
  infer_instance

/-! ## Loops -/

instance : Lockstep p (loopBody self) := by
  unfold loopBody
  infer_instance

instance : Lockstep p (whileStatement self) := by
  unfold whileStatement
  infer_instance

instance : Lockstep p (doStatement self) := by
  unfold doStatement
  infer_instance

instance : Lockstep p declarationKind? := by
  unfold declarationKind?
  infer_instance

instance : Lockstep p atLoopPattern := by
  unfold atLoopPattern
  infer_instance

instance : Lockstep p (loopHead self) := by
  unfold loopHead
  refine .bind inferInstance fun empty => ?_
  split
  · infer_instance
  · refine .bind inferInstance fun kind? => ?_
    split <;> infer_instance

instance : Lockstep p iteration? := by
  unfold iteration?
  infer_instance

instance (kind : Scope.BindingKind) (ds : Declarations) (iteration : Iteration) (position : Position)
    [Behind p.start position] : Lockstep p (checkLoopDeclarations kind ds iteration position) := by
  unfold checkLoopDeclarations
  infer_instance

instance (target : Expression) [htarget : Behind p.start target] :
    Lockstep p (loopTarget target) := by
  unfold loopTarget
  split
  next name _ _ _ =>
    refine .bind inferInstance fun _ => ?_
    exact .undeclared name (n := ⟨"W088", target.position, [name], by decide⟩) Scope.Listed.mem
      htarget.behind fun _ => rfl
  next => infer_instance

instance (iteration : Iteration) (position : Position) [hposition : Behind p.start position] :
    Lockstep p (iterationRest self iteration position) := by
  have hcode : "W089" ∈ Flag.forin.codes := by decide
  have hnote (iteration : Iteration) (filters : Bool) : Lockstep p (options >>= fun o =>
      if decide (iteration = .keys) && o.forin && !filters then
        Reading.report "W089" position [] else pure ()) :=
    .noteIf .forin rfl (n := ⟨"W089", position, [], by decide⟩) hcode hposition.behind
      (decide (iteration = .keys) && !filters) fun _ => Bool.and_right_comm _ _ _
  unfold iterationRest
  cases iteration <;> infer_instance

instance : Lockstep p (countedRest self) := by
  unfold countedRest
  infer_instance

instance (position : Position) [Behind p.start position] (head : LoopHead)
    [hhead : Behind p.start head] : Lockstep p (forRest self position head) := by
  unfold forRest
  refine .bind inferInstance fun iteration? => ?_
  rcases iteration? with ⟨_ | iteration, hiteration⟩ <;> rcases head with _ | ⟨kind, ds⟩ | e
  · dsimp only
    infer_instance
  · have : Behind p.start ds := ⟨hhead.behind⟩
    cases kind <;> dsimp only <;> infer_instance
  · dsimp only
    infer_instance
  · dsimp only
    infer_instance
  · have : Behind p.start ds := ⟨hhead.behind⟩
    dsimp only
    infer_instance
  · have : Behind p.start e := ⟨hhead.behind⟩
    dsimp only
    infer_instance

instance : Lockstep p (forStatement self) := by
  unfold forStatement
  infer_instance

/-! ## Modules -/

instance (word feature : String) : Lockstep p (moduleItem word feature) := by
  unfold moduleItem
  refine .bind inferInstance fun t => .look (fun h => by rw [h.atTopLevel]) fun _ => inferInstance

instance : Lockstep p moduleName := by
  unfold moduleName
  infer_instance

instance : Lockstep p fromModule := by
  unfold fromModule
  infer_instance

instance : Lockstep p moduleWord? := by
  unfold moduleWord?
  infer_instance

instance : Lockstep p importBinding := by
  unfold importBinding
  infer_instance

instance (u : Unit) : Lockstep p (importItem u) := by
  unfold importItem
  refine .bind inferInstance fun word? => ?_
  split <;> infer_instance

instance : Lockstep p importClause := by
  unfold importClause
  infer_instance

instance : Lockstep p importDeclaration := by
  unfold importDeclaration
  infer_instance

instance (name : String) (position : Position) [Behind p.start position] :
    Lockstep p (addExport name position) := by
  have henter : Lockstep p (modify fun s => { s with exports := name :: s.exports }) :=
    .of_same (fun _ => rfl) (fun _ => rfl) (fun _ _ => trivial) fun h =>
      ⟨rfl, h.options, h.session, ⟨h.within.lookahead, h.within.consumed⟩, h.consumed, h.lookahead,
        h.depth, h.inExcluded, congrArg (name :: ·) h.exports, h.size⟩
  exact .observe (fun h => by rw [h.exports]) fun _ _ => inferInstance

instance (name : String) : Lockstep p (exportVariable name) := by
  unfold exportVariable
  infer_instance

instance (items : List ExportItem) [Behind p.start items] : Lockstep p (exportItem items) := by
  unfold exportItem
  refine .bind inferInstance fun word? => ?_
  rcases word? with ⟨_ | t, ht⟩
  · dsimp only
    infer_instance
  · have : Behind p.start t := ⟨ht t rfl⟩
    dsimp only
    infer_instance

instance : Lockstep p exportNames := by
  unfold exportNames
  infer_instance

instance : Lockstep p exportAll := by
  unfold exportAll
  infer_instance

instance : Lockstep p atAsyncFunction := by
  unfold atAsyncFunction
  infer_instance

instance (position : Position) [Behind p.start position] :
    Lockstep p (exportDefault self position) := by
  unfold exportDefault
  infer_instance

instance (kind : Scope.BindingKind) : Lockstep p (exportedVariables self kind) := by
  unfold exportedVariables
  infer_instance

instance : Lockstep p (exportedDeclaration self) := by
  unfold exportedDeclaration
  infer_instance

instance : Lockstep p (exportDeclaration self) := by
  unfold exportDeclaration
  infer_instance

/-! ## Statements -/

instance (word : String) (inList : Bool) : Lockstep p (checkInList word inList) := by
  unfold checkInList
  infer_instance

instance (kind : Scope.BindingKind) : Lockstep p (variableStatement self kind) := by
  unfold variableStatement
  infer_instance

instance (async inList : Bool) : Lockstep p (functionStatement self async inList) := by
  unfold functionStatement
  infer_instance

instance (e : Expression) [hposition : Behind p.start e] : Lockstep p (checkEffect e) := by
  have htells (code : String) (hcode : code ∈ Flag.expr.codes) (hregular : Halt.IsRegular code) :
      AtMostTells (fun n => n.code ∈ Flag.expr.codes ∧ p.start.Passes n.position)
        (Reading.report code e.position [] hregular) :=
    .report ⟨code, e.position, [], hregular⟩ ⟨hcode, hposition.behind⟩
  exact .unlessSet .expr rfl (.ite (htells "W031" (by decide) (by decide))
    (.ite (htells "W030" (by decide) (by decide)) .nothing))

instance : Lockstep p (expressionStatement self) := by
  unfold expressionStatement
  infer_instance

instance : Lockstep p (labelledStatement self) := by
  unfold labelledStatement
  refine .bind inferInstance fun label => ?_
  exact .reserved label.1.name label.1.position false fun _ => inferInstance

instance : Lockstep p debuggerStatement := by
  have hcode : "W087" ∈ Flag.debug.codes := by decide
  let rest : Reading Statement := do
    advance
    semicolon
    pure { kind := .other }
  have hnote (t : Places Token p.start) : Lockstep p (options >>= fun o => if !o.debug then
      Reading.report "W087" t.1.position ["debugger"] >>= fun _ => rest else rest) := by
    refine .askThen ?_ fun _ => inferInstance
    exact .noteUnless .debug rfl (n := ⟨"W087", t.1.position, ["debugger"], by decide⟩) hcode
      t.2.start.passes true fun _ => rfl
  -- The next token is looked at only for the report.
  have hfirst : Lockstep p (Reading.token >>= fun t => options >>= fun o => if !o.debug then
      Reading.report "W087" t.position ["debugger"] >>= fun _ => rest else rest) :=
    .bind inferInstance hnote
  refine .congr (fun s => ?_) hfirst
  change (if !s.options.debug then _ else _ : Reading Statement).run.run s =
    (if !s.options.debug then _ else _ : Reading Statement).run.run s
  split <;> rfl

instance (inList : Bool) : Lockstep p (emptyStatement inList) := by
  unfold emptyStatement
  infer_instance

instance : Lockstep p (importStatement self) := by
  unfold importStatement
  infer_instance

instance (inList : Bool) (form : StatementForm) : Lockstep p (statementOf self inList form) := by
  cases form <;> unfold statementOf <;> dsimp only <;> infer_instance

instance : Lockstep p statementStart := by
  unfold statementStart
  refine .bind inferInstance fun t => .bind inferInstance fun next => ?_
  dsimp only
  split
  · infer_instance
  split
  · infer_instance
  split
  · infer_instance
  split <;> infer_instance

instance (inList : Bool) : Lockstep p (readStatement self inList) := by
  have hstart : Lockstep p (statementStart >>= fun start => match start with
      | .label => labelledStatement self
      | .letDeclaration => do
        checkInList "Let" inList
        variableStatement self .letName
      | .asyncFunction => functionStatement self true inList
      | .form form => statementOf self inList form
      | .expression => expressionStatement self) := by
    refine .bind inferInstance fun start => ?_
    split <;> infer_instance
  exact .nested

/-! ## Programs -/

omit hself in
theorem productions (fuel : Nat) : (productions fuel).Lockstep p := by
  induction fuel with
  | zero => constructor <;> intros <;> exact .outOfFuel
  | succ fuel ih =>
      refine ⟨fun power => ?_, ?_, fun inList => ?_, ?_, ?_⟩
      · rw [productions_expression]
        infer_instance
      · rw [productions_operand]
        infer_instance
      · rw [productions_statement]
        infer_instance
      · rw [productions_bindingTarget]
        infer_instance
      · rw [productions_assignmentPattern]
        infer_instance

instance program : Lockstep p (program self) := by
  unfold Reading.program
  infer_instance

end ScriptLint.Reading.Lockstep

import ScriptLint.Proofs.Nesting.Step

/-! # What takes a token

A statement or an expression that is read without a report takes a token: where none can be taken,
that is reported. So the list around a statement has no need to give up a token.
-/

set_option synthInstance.maxSize 4096

namespace ScriptLint.Reading

variable {α β : Type}

/-- A step that consumes a token unless something is reported. -/
class Takes (step : Reading α) : Prop where
  steady : Steady 0 step
  leads {s : State} (hs : s.Ready) : Leads step s fun _ s' =>
    s'.session.sink.Quiet → s.left = 0 ∨ s'.left < s.left

/-- A steady step goes on. -/
theorem Steady.leads {step : Reading α} (hstep : Steady 0 step) {s : State} (hs : s.Ready) :
    Leads step s fun _ s' => s.Reaches s' := by
  intro a s' hrun
  have houtcome := (hstep.meets hs (False.elim : False → _)).outcome
  rw [hrun] at houtcome
  exact houtcome

/-- A step that consumes a token does so unless the end comes next. -/
theorem Consumes.leads {step : Reading α} (hstep : Consumes 0 step) {s : State} (hs : s.Ready) :
    Leads step s fun _ s' => s.Passes s' := by
  intro a s' hrun
  have houtcome := (hstep.meets hs (False.elim : False → _)).outcome
  rw [hrun] at houtcome
  exact houtcome

/-- A round of a loop goes on, and it takes a token if there is to be another one. -/
theorem Advances.leads [GoesOn α] {round : Reading α} (hround : Advances 0 round) {s : State}
    (hs : s.Ready) : Leads round s s.Moves := by
  intro a s' hrun
  have houtcome := (hround.meets hs (False.elim : False → _)).outcome
  rw [hrun] at houtcome
  exact houtcome

namespace Takes

theorem of_consumes {step : Reading α} (hstep : Consumes 0 step) : Takes step where
  steady := hstep.steady
  leads hs a s' hrun _ := (hstep.leads hs a s' hrun).taken

theorem of_speaks {step : Reading α} (hsteady : Steady 0 step) (hstep : Speaks step) :
    Takes step := ⟨hsteady, fun {s} _ a s' hrun hquiet => absurd hquiet (hstep.loud s a s' hrun)⟩

protected theorem bind {first : Reading α} {next : α → Reading β} (hfirst : Takes first)
    (hnext : ∀ a, Steady 0 (next a)) : Takes (first >>= next) where
  steady := .bind hfirst.steady hnext
  leads {s} hs := .bind fun a s' hrun b s'' hrun' hquiet => by
    have hreaches := hfirst.steady.leads hs a s' hrun
    have hrest := (hnext a).leads hreaches.ready b s'' hrun'
    have hquiet' : s'.session.sink.Quiet := by
      refine (hnext a).stepwise.quiet ?_
      rwa [hrun']
    have htaken := hfirst.leads hs a s' hrun hquiet'
    have hle := hrest.left
    omega

protected theorem after {first : Reading α} {next : α → Reading β} (hfirst : Steady 0 first)
    (hnext : ∀ a, Takes (next a)) : Takes (first >>= next) where
  steady := .bind hfirst fun a => (hnext a).steady
  leads {s} hs := .bind fun a s' hrun b s'' hrun' hquiet => by
    have hreaches := hfirst.leads hs a s' hrun
    have hrest := (hnext a).steady.leads hreaches.ready b s'' hrun'
    have htaken := (hnext a).leads hreaches.ready b s'' hrun' hquiet
    have hle := hreaches.left
    have hle' := hrest.left
    omega

/-- Looking at the options takes nothing. -/
instance {next : Options → Reading β} [hsteady : Steady 0 (options >>= next)]
    [hnext : ∀ o, Takes (next o)] : Takes (options >>= next) where
  steady := hsteady
  leads {s} hs := .bind fun o s' hrun => by
    obtain ⟨-, rfl⟩ := Prod.mk.inj ((rfl : options.run.run s = _).symm.trans hrun)
    exact (hnext o).leads hs

instance (priority := low) {step : Reading α} [hstep : Consumes 0 step] : Takes step :=
  .of_consumes hstep

instance (priority := low) {step : Reading α} [hsteady : Steady 0 step] [hstep : Speaks step] :
    Takes step := .of_speaks hsteady hstep

instance {first : Reading α} {next : α → Reading β} [hfirst : Takes first]
    [hnext : ∀ a, Steady 0 (next a)] : Takes (first >>= next) := .bind hfirst hnext

instance {first : Reading α} {next : α → Reading β} [hfirst : Steady 0 first]
    [hnext : ∀ a, Takes (next a)] : Takes (first >>= next) := .after hfirst hnext

instance {c : Prop} [Decidable c] {first second : Reading α} [hfirst : Takes first]
    [hsecond : Takes second] : Takes (if c then first else second) := by
  split <;> infer_instance

/-- What happens to the depth has nothing to do with what is taken. -/
instance {step : Reading α} [hstep : Takes step] : Takes (nested step) where
  steady := .nested hstep.steady
  leads {s} hs := by
    have hdeeper : State.Ready { s with depth := s.depth + 1 } := hs
    have hhalt (position : Position) : Speaks (halt .tooDeep position : Reading α) := inferInstance
    refine .bind ?_
    rintro _ _ ⟨⟩
    refine .bind ?_
    rintro _ _ ⟨⟩
    refine .ite (fun _ a s' hrun hquiet => ?_) fun _ => .bind fun a s' hrun => .bind ?_
    · exact absurd hquiet ((hhalt _).loud _ a s' hrun)
    · rintro _ _ ⟨⟩
      exact .pure (hstep.leads hdeeper a s' hrun)

/-! ## Expressions -/

instance (p : String) : Takes (expectPunctuator p) := by
  unfold expectPunctuator
  infer_instance

end Takes

/-- A table of productions that take a token each. -/
class Productions.Takes (table : Productions) : Prop where
  expression (power : Nat) : Reading.Takes (table.expression power)
  statement (inList : Bool) : Reading.Takes (table.statement inList)
  assignmentPattern : Reading.Takes table.assignmentPattern

attribute [instance] Productions.Takes.expression Productions.Takes.statement
  Productions.Takes.assignmentPattern

namespace Takes

variable (self : Productions) [self.Steady 0] [hself : self.Takes]

instance : Takes self.anyExpression := hself.expression 0

instance (async : Bool) : Takes (arrowFunction self async) := by
  unfold arrowFunction
  infer_instance

instance : Takes (nameExpression self) := by
  unfold nameExpression
  refine .after inferInstance fun role => ?_
  cases role with
  | plain => exact .of_consumes (by unfold variableName; infer_instance)
  | arrow async => infer_instance
  | asyncFunction => exact .of_consumes (by unfold functionExpression; infer_instance)
  | yield => exact .of_consumes (by unfold yieldExpression; infer_instance)
  | await => exact .of_consumes (by unfold awaitExpression; infer_instance)

instance : Takes (parenthesis self) := by
  have : Consumes 0 (parenthesizedExpression self) := by
    unfold parenthesizedExpression
    infer_instance
  unfold parenthesis
  infer_instance

instance : Takes (assignmentPatternExpression self) := by
  unfold assignmentPatternExpression
  infer_instance

instance {otherwise : Reading Expression} [Takes otherwise] : Takes (patternOr self otherwise) := by
  unfold patternOr
  infer_instance

instance (form : OperandForm) : Takes (operandOf self form) := by
  have harray : Consumes 0 (arrayLiteral self) := by
    unfold arrayLiteral
    infer_instance
  have hobject : Consumes 0 (objectLiteral self) := by
    unfold objectLiteral
    infer_instance
  cases form <;> dsimp only [operandOf]
  case identifier | parenthesis | array | object | template => infer_instance
  case literal => exact .of_consumes (by unfold literal; infer_instance)
  case regexp =>
    unfold regexpLiteral
    refine .after inferInstance fun t => .bind (inferInstance : Takes advance) fun _ => ?_
    dsimp only
    split <;> infer_instance
  case privateName => exact .of_consumes (by unfold privateName; infer_instance)
  case thisWord => exact .of_consumes (by unfold thisWord; infer_instance)
  case superWord => exact .of_consumes (by unfold superWord; infer_instance)
  case unary =>
    unfold unaryExpression
    refine .after inferInstance fun t => .bind (inferInstance : Takes advance) fun _ => ?_
    refine .bind inferInstance fun operand => ?_
    dsimp only
    split <;> infer_instance
  case update => exact .of_consumes (by unfold updateExpression; infer_instance)
  case functionWord =>
    have hsent : Consumes 0 functionSent := by unfold functionSent; infer_instance
    have hfunction : Consumes 0 (functionExpression self false) := by
      unfold functionExpression
      infer_instance
    infer_instance
  case classWord =>
    have hclass : Consumes 0 (readClass self false true) := by unfold readClass; infer_instance
    infer_instance
  case newWord => exact .of_consumes (by unfold newExpression; infer_instance)
  case importWord => exact .of_consumes (by unfold importExpression; infer_instance)

instance : Takes missingOperand := by
  unfold missingOperand
  infer_instance

instance : Takes (readOperand self) := by
  unfold readOperand
  refine .after inferInstance fun _ => .after inferInstance fun t => ?_
  split <;> infer_instance

instance (power : Nat) : Takes (readExpression self power) := by
  unfold readExpression
  infer_instance

instance : Takes (readAssignmentPattern self) := .of_consumes <| by
  unfold readAssignmentPattern
  infer_instance

/-! ## Statements -/

instance (kind : Scope.BindingKind) : Takes (variableStatement self kind) := .of_consumes <| by
  unfold variableStatement declarations
  infer_instance

instance (async inList : Bool) : Takes (functionStatement self async inList) := .of_consumes <| by
  unfold functionStatement functionDeclaration
  infer_instance

instance : Takes (expressionStatement self) := by
  unfold expressionStatement
  infer_instance

instance : Takes (labelledStatement self) := .of_consumes <| by
  unfold labelledStatement
  infer_instance

instance : Takes (importStatement self) := by
  have himport : Consumes 0 importDeclaration := by
    unfold importDeclaration
    infer_instance
  unfold importStatement
  infer_instance

instance : Takes (block self) := by
  unfold block
  infer_instance

instance (inList : Bool) (form : StatementForm) : Takes (statementOf self inList form) := by
  have hclass : Consumes 0 (readClass self true false) := by unfold readClass; infer_instance
  have hexport : Consumes 0 (exportDeclaration self) := by unfold exportDeclaration; infer_instance
  cases form <;> dsimp only [statementOf]
  case ifWord => exact .of_consumes (by unfold ifStatement; infer_instance)
  case forWord => exact .of_consumes (by unfold forStatement; infer_instance)
  case whileWord => exact .of_consumes (by unfold whileStatement; infer_instance)
  case doWord => exact .of_consumes (by unfold doStatement; infer_instance)
  case switchWord => exact .of_consumes (by unfold switchStatement; infer_instance)
  case breakWord => exact .of_consumes (by unfold breakStatement; infer_instance)
  case continueWord => exact .of_consumes (by unfold breakStatement; infer_instance)
  case returnWord => exact .of_consumes (by unfold returnStatement; infer_instance)
  case throwWord => exact .of_consumes (by unfold throwStatement; infer_instance)
  case tryWord => exact .of_consumes (by unfold tryStatement; infer_instance)
  case withWord => unfold withStatement; infer_instance
  case debuggerWord => unfold debuggerStatement; infer_instance
  case empty => exact .of_consumes (by unfold emptyStatement; infer_instance)
  all_goals infer_instance

instance (inList : Bool) : Takes (readStatement self inList) := by
  have hstart : Takes (do
    match ← statementStart with
    | .label => labelledStatement self
    | .letDeclaration =>
      checkInList "Let" inList
      variableStatement self .letName
    | .asyncFunction => functionStatement self true inList
    | .form form => statementOf self inList form
    | .expression => expressionStatement self) := by
    refine .after inferInstance fun start => ?_
    cases start <;> dsimp only <;> infer_instance
  unfold readStatement
  infer_instance

end Takes

end ScriptLint.Reading

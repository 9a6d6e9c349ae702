import ScriptLint.Proofs.Analysis.Told
import ScriptLint.Proofs.Invariant.Expression
import ScriptLint.Proofs.Reading.Program

/-! # Invariants of statements and programs

The last productions that uphold lawful invariants, and what follows for whole programs.
-/

/-! ## Statements

Statements uphold a lawful invariant if the productions they are written over do. Every scope, loop,
`switch` and label that a statement opens is closed at its end.
-/

set_option synthInstance.maxSize 4096

namespace ScriptLint.Reading

variable {I : Invariant} {bs : List Bracket} {s : State}

namespace Upholds

section Modules

variable [hI : I.Basic]

instance : Upholds I bs moduleName bs := by
  unfold moduleName
  infer_instance

instance (name : String) (position : Position) : Upholds I bs (addExport name position) bs where
  leads {s} hs := by
    have hreport : Upholds I bs (report "E069" position [name]) bs := inferInstance
    refine .bind ?_
    rintro _ _ ⟨⟩
    refine .ite (fun _ => hreport.leads hs) fun _ => ?_
    rintro _ _ ⟨⟩
    exact hI.adjust _ _ _ hs

instance (name : String) : Upholds I bs (exportVariable name) bs := by
  unfold exportVariable
  infer_instance

/-- What names something stays the next token. -/
theorem moduleWord?_leads (hs : I bs s) :
    Leads moduleWord? s fun t? s' => I bs s' ∧
      ∀ t ∈ t?, s' = s ∧ t = s.lookahead ∧ t.isEnd = false := by
  have hnoName : Upholds I bs (do reportNoName s.lookahead; pure (none : Option Token)) bs :=
    inferInstance
  have hnone : Leads (do reportNoName s.lookahead; pure (none : Option Token)) s
      fun t? _ => t? = none := .after fun _ _ => .pure rfl
  refine .bind ?_
  rintro _ _ ⟨⟩
  refine .ite (fun hword => .pure ⟨hs, ?_⟩) fun _ => ?_
  · rintro t ⟨⟩
    refine ⟨rfl, rfl, ?_⟩
    cases hend : s.lookahead.isEnd with
    | false => rfl
    | true => simp [Token.isPropertyName, isString, Token.lexeme_of_isEnd hend] at hword
  · refine ((hnoName.leads hs).and hnone).mono fun t? s' h => ⟨h.1, ?_⟩
    simp [h.2]

end Modules

section Initializers

variable [hI : I.Scanning]

instance (name : String) (position : Position) :
    Upholds I bs (reportUninitialized name position) bs := by
  unfold reportUninitialized
  infer_instance

instance (name : String) (position : Position) :
    Upholds I bs (reportUndefinedValue name position) bs := by
  unfold reportUndefinedValue
  infer_instance

instance (fault : String → Position → Reading Unit)
    [∀ name position, Upholds I bs (fault name position) bs] (names : List BoundName) :
    Upholds I bs (reportFirst fault names) bs := by
  unfold reportFirst
  split <;> infer_instance

instance (kind : Scope.BindingKind) (target : BindingTarget) (value : Expression) :
    Upholds I bs (checkInitializer kind target value) bs := by
  unfold checkInitializer
  split <;> infer_instance

end Initializers

variable [hI : I.Lawful] (self : Productions) [hself : self.Upholds I]

/-! ## Blocks and branches -/

instance : Upholds I bs (block self) bs := by
  unfold block
  infer_instance

instance : Upholds I bs (subject self) bs := by
  unfold subject
  infer_instance

instance (condition : Expression) : Upholds I bs (checkCondition condition) bs := by
  unfold checkCondition
  infer_instance

instance : Upholds I bs (condition self) bs := by
  unfold condition
  infer_instance

instance : Upholds I bs (ifStatement self) bs := by
  unfold ifStatement
  infer_instance

instance : Upholds I bs (withStatement self) bs := by
  unfold withStatement
  infer_instance

instance (before : Clause) : Upholds I bs (clauseHead self before) bs := by
  unfold clauseHead
  infer_instance

instance (clause : Clause) : Upholds I bs (switchRound self clause) bs := by
  unfold switchRound
  infer_instance

instance : Upholds I bs (switchStatement self) bs := by
  unfold switchStatement
  infer_instance

instance : Upholds I bs (catchClause self) bs := by
  unfold catchClause
  infer_instance

instance : Upholds I bs (tryStatement self) bs := by
  unfold tryStatement
  infer_instance

/-! ## Variable declarations -/

instance (kind : Scope.BindingKind) (target : BindingTarget) :
    Upholds I bs (initializer self kind target) bs := by
  unfold initializer
  infer_instance

instance (kind : Scope.BindingKind) (inHead : Bool) (ds : Declarations) :
    Upholds I bs (declarator self kind inHead ds) bs := by
  unfold declarator
  infer_instance

instance (kind : Scope.BindingKind) (inHead : Bool) (ds : Declarations) :
    Upholds I bs (declaratorRound self kind inHead ds) bs := by
  unfold declaratorRound
  infer_instance

instance (kind : Scope.BindingKind) (inHead : Bool) :
    Upholds I bs (declarations self kind inHead) bs := by
  unfold declarations
  infer_instance

/-! ## Jumps -/

instance (word : String) (inList : Bool) : Upholds I bs (checkReached word inList) bs := by
  unfold checkReached
  infer_instance

instance (word : String) (inList : Bool) : Upholds I bs (endJump word inList) bs := by
  unfold endJump
  infer_instance

instance (word name : String) (position : Position) :
    Upholds I bs (checkLabel word name position) bs := by
  unfold checkLabel
  refine .bind inferInstance fun t => ?_
  split <;> infer_instance

instance (word : String) (position : Position) :
    Upholds I bs (checkSurroundings word position) bs := by
  unfold checkSurroundings
  infer_instance

instance (word : String) (inList : Bool) : Upholds I bs (breakStatement word inList) bs := by
  unfold breakStatement
  infer_instance

instance (inList : Bool) : Upholds I bs (returnStatement self inList) bs := by
  unfold returnStatement
  infer_instance

instance (inList : Bool) : Upholds I bs (throwStatement self inList) bs := by
  unfold throwStatement
  infer_instance

/-! ## Loops -/

instance : Upholds I bs (loopBody self) bs := by
  unfold loopBody
  infer_instance

instance : Upholds I bs (whileStatement self) bs := by
  unfold whileStatement
  infer_instance

instance : Upholds I bs (doStatement self) bs := by
  unfold doStatement
  infer_instance

instance : Upholds I bs declarationKind? bs := by
  unfold declarationKind?
  infer_instance

instance : Upholds I bs atLoopPattern bs := by
  unfold atLoopPattern
  infer_instance

instance : Upholds I bs (loopHead self) bs := by
  unfold loopHead
  refine .bind inferInstance fun empty => ?_
  split
  · infer_instance
  · refine .bind inferInstance fun kind? => ?_
    split <;> infer_instance

instance : Upholds I bs iteration? bs := by
  unfold iteration?
  infer_instance

instance (kind : Scope.BindingKind) (ds : Declarations) (iteration : Iteration)
    (position : Position) : Upholds I bs (checkLoopDeclarations kind ds iteration position) bs := by
  unfold checkLoopDeclarations
  infer_instance

instance (target : Expression) : Upholds I bs (loopTarget target) bs := by
  unfold loopTarget
  split <;> infer_instance

instance (iteration : Iteration) (position : Position) :
    Upholds I bs (iterationRest self iteration position) bs := by
  unfold iterationRest
  split <;> infer_instance

instance : Upholds I bs (countedRest self) bs := by
  unfold countedRest
  infer_instance

instance (position : Position) (head : LoopHead) :
    Upholds I bs (forRest self position head) bs := by
  unfold forRest
  refine .bind inferInstance fun iteration? => ?_
  split <;> infer_instance

instance : Upholds I bs (forStatement self) bs := by
  unfold forStatement
  infer_instance

/-! ## Imports and exports -/

instance (word feature : String) : Upholds I bs (moduleItem word feature) bs := by
  unfold moduleItem
  infer_instance

instance : Upholds I bs fromModule bs := by
  unfold fromModule
  infer_instance

instance : Upholds I bs moduleWord? bs := by
  unfold moduleWord?
  infer_instance

instance : Upholds I bs importBinding bs := by
  unfold importBinding
  infer_instance

instance (state : Unit) : Upholds I bs (importItem state) bs := by
  unfold importItem
  refine .bind inferInstance fun word? => ?_
  split <;> infer_instance

instance : Upholds I bs importClause bs := by
  unfold importClause
  infer_instance

instance : Upholds I bs importDeclaration bs := by
  unfold importDeclaration
  infer_instance

/-- The names of an export wait for what is behind them. -/
theorem exportItem_leads (items : List ExportItem) (hs : I bs s)
    (hitems : InOrder (items.map (·.position)) bs s) :
    Leads (exportItem items) s fun r s' =>
      I bs s' ∧ InOrder (r.state.map (·.position)) bs s' := by
  let J : Invariant := fun bs s => I bs s ∧ InOrder (items.map ExportItem.position) bs s
  have hword := moduleWord?_leads (I := J) ⟨hs, hitems⟩
  refine .bind fun t? s₁ hrun => ?_
  obtain ⟨hs₁, ht⟩ := hword t? s₁ hrun
  cases t? with
  | none => exact .pure hs₁
  | some t =>
      obtain ⟨rfl, rfl, hend⟩ := ht t rfl
      refine .bind fun _ s₂ hrun => ?_
      have hs₂ : I bs s₂ := hI.advance hs _ s₂ hrun
      have hitems₂ := (hitems.behind_offers hend).of_advance _ s₂ hrun
      let J : Invariant := fun bs s => I bs s ∧
        InOrder (items.map (·.position) ++ [s₁.lookahead.position]) bs s
      have hword : Upholds J bs (atWord "as") bs := inferInstance
      have hadvance : Upholds J bs advance bs := inferInstance
      have hlast (name : String) {s₃ : State} (hs₃ : J bs s₃) : I bs s₃ ∧
          InOrder ((items ++ [ExportItem.mk s₁.lookahead.display s₁.lookahead.position name]).map
            (·.position)) bs s₃ := by
        rw [List.map_append]
        exact hs₃
      refine .bind fun asWord s₃ hrun => ?_
      have hs₃ := hword.leads ⟨hs₂, hitems₂⟩ _ s₃ hrun
      refine .ite (fun _ => .bind fun _ s₄ hrun => .bind ?_) fun _ => .pure (hlast _ hs₃)
      rintro _ _ ⟨⟩
      have hs₄ := hadvance.leads hs₃ _ s₄ hrun
      exact .bind fun _ s₅ hrun' => .pure (hlast _ (hadvance.leads hs₄ _ s₅ hrun'))

/-- The items of an export are recorded one after the other. -/
theorem exportItems_leads (passedOn : Bool) (items : List ExportItem) (hs : I bs s)
    (hitems : InOrder (items.map (·.position)) bs s) :
    Leads (items.forM fun item => do
      if !passedOn then
        exportVariable item.variableName
        let _ ← addReference item.variableName item.position .read
      addExport item.exportedName item.position) s fun _ s' => I bs s' := by
  induction items generalizing s with
  | nil => exact .pure hs
  | cons item items ih =>
      let J : Invariant := fun bs s => I bs s ∧
        InOrder (item.position :: items.map ExportItem.position) bs s
      have hmark : Upholds J bs (exportVariable item.variableName) bs := inferInstance
      have hexport {s : State} (hs : I bs s) (hitems : InOrder (items.map (·.position)) bs s) :
          Leads (addExport item.exportedName item.position) s fun _ s' =>
            I bs s' ∧ InOrder (items.map (·.position)) bs s' := by
        have hadd : Upholds (fun bs s => I bs s ∧ InOrder (items.map ExportItem.position) bs s) bs
          (addExport item.exportedName item.position) bs := inferInstance
        exact hadd.leads ⟨hs, hitems⟩
      refine .bind fun _ s₁ hrun => ?_
      suffices hs₁ : I bs s₁ ∧ InOrder (items.map (·.position)) bs s₁ from ih hs₁.1 hs₁.2
      refine Leads.ite (fun _ => .bind fun _ s₂ hrun => .bind fun _ s₃ hrun' => ?_)
        (fun _ => hexport hs (hitems.of_sublist (List.sublist_cons_self ..))) _ s₁ hrun
      obtain ⟨hs₂, hitems₂⟩ := hmark.leads ⟨hs, hitems⟩ _ s₂ hrun
      have hfirst := hitems₂.of_sublist (List.singleton_sublist.mpr List.mem_cons_self)
      exact hexport (hI.record _ _ hs₂ hfirst _ s₃ hrun') (hitems₂.record _ _ _ s₃ hrun')

/-- The items are read first, and recorded together once it is clear whose names they are. -/
instance : Upholds I bs exportNames bs where
  leads {s} hs := by
    have hadvance : Upholds I bs advance bs := inferInstance
    have hsemicolon : Upholds I bs semicolon bs := inferInstance
    have hlist {s : State} (hs : I bs s) :
        Leads (commaList "\x7d" [] exportItem noTrailingCheck) s fun items s =>
          I bs s ∧ InOrder (items.map (·.position)) bs s := by
      refine commaList_leads (fun items s _ hs => ?_) (fun items s hs => ?_) ⟨hs, hI.inOrder hs⟩
      · exact .bind fun _ s' hrun =>
          .pure (((hI.advance hs.1).and hs.2.behind.of_advance) _ s' hrun)
      · exact exportItem_leads items hs.1 hs.2
    refine .bind fun _ s₁ hrun => .bind fun items s₂ hrun' => ?_
    have hs₂ := hlist (hadvance.leads hs _ s₁ hrun) items s₂ hrun'
    let J : Invariant := fun bs s => I bs s ∧ InOrder (items.map ExportItem.position) bs s
    have hclose : Upholds J bs (expectPunctuator "\x7d") bs := inferInstance
    have hahead : Upholds J bs advance bs := inferInstance
    have hmodule : Upholds J bs moduleName bs := inferInstance
    have hitems (passedOn : Bool) {s : State} (hs : J bs s) : Leads (do
        items.forM fun item => do
          if !passedOn then
            exportVariable item.variableName
            let _ ← addReference item.variableName item.position .read
          addExport item.exportedName item.position
        semicolon) s fun _ s' => I bs s' := by
      refine .bind fun _ s₃ hrun => ?_
      exact hsemicolon.leads (exportItems_leads passedOn items hs.1 hs.2 _ s₃ hrun)
    refine .bind fun _ s₃ hrun => .bind ?_
    have hs₃ := hclose.leads hs₂ _ s₃ hrun
    rintro _ _ ⟨⟩
    refine .ite (fun _ => .bind fun _ s₄ hrun => .bind fun _ s₅ hrun' => ?_) fun _ => hitems _ hs₃
    exact hitems _ (hmodule.leads (hahead.leads hs₃ _ s₄ hrun) _ s₅ hrun')

instance : Upholds I bs exportAll bs := by
  unfold exportAll
  infer_instance

instance : Upholds I bs atAsyncFunction bs := by
  unfold atAsyncFunction
  infer_instance

instance (position : Position) : Upholds I bs (exportDefault self position) bs := by
  unfold exportDefault
  infer_instance

instance (kind : Scope.BindingKind) : Upholds I bs (exportedVariables self kind) bs := by
  unfold exportedVariables
  infer_instance

instance : Upholds I bs (exportedDeclaration self) bs := by
  unfold exportedDeclaration
  infer_instance

instance : Upholds I bs (exportDeclaration self) bs := by
  unfold exportDeclaration
  infer_instance

/-! ## Statements -/

instance (word : String) (inList : Bool) : Upholds I bs (checkInList word inList) bs := by
  unfold checkInList
  infer_instance

instance (kind : Scope.BindingKind) : Upholds I bs (variableStatement self kind) bs := by
  unfold variableStatement
  infer_instance

instance (async inList : Bool) : Upholds I bs (functionStatement self async inList) bs := by
  unfold functionStatement
  infer_instance

instance (e : Expression) : Upholds I bs (checkEffect e) bs := by
  unfold checkEffect
  infer_instance

instance : Upholds I bs (expressionStatement self) bs := by
  unfold expressionStatement
  infer_instance

instance : Upholds I bs (labelledStatement self) bs := by
  unfold labelledStatement
  infer_instance

instance : Upholds I bs debuggerStatement bs := by
  unfold debuggerStatement
  infer_instance

instance (inList : Bool) : Upholds I bs (emptyStatement inList) bs := by
  unfold emptyStatement
  infer_instance

instance : Upholds I bs (importStatement self) bs := by
  unfold importStatement
  infer_instance

instance (inList : Bool) (form : StatementForm) :
    Upholds I bs (statementOf self inList form) bs := by
  cases form <;> unfold statementOf <;> infer_instance

instance : Upholds I bs statementStart bs := by
  unfold statementStart
  refine .bind inferInstance fun t => .bind inferInstance fun next => ?_
  cases (Symbol.ofToken t).statement? <;> infer_instance

instance (inList : Bool) : Upholds I bs (readStatement self inList) bs := by
  unfold readStatement
  refine .nested (.bind inferInstance fun start => ?_)
  split <;> infer_instance

end Upholds

end ScriptLint.Reading

/-! ## Programs

All productions uphold a lawful invariant, however deeply they nest. So it holds when the whole
program has been read, which is at the end of the source. All that a complete analysis does afterwards
is that the last frames are closed.
-/

namespace ScriptLint.Reading

variable {I : Invariant}

/-- What is out of fuel gives no answer. -/
theorem Upholds.outOfFuel {α : Type} {bs bs' : List Bracket} :
    Upholds I bs (throw .outOfFuel : Reading α) bs' := of_fails fun _ _ _ => nofun

theorem productions_zero_upholdTerms : (productions 0).UpholdsTerms I := by
  refine ⟨productions_stepwise 0, ?_, ?_, ?_, ?_⟩ <;> intros <;> exact .outOfFuel

theorem productions_succ_upholdTerms [I.Modest] {fuel : Nat} [(productions fuel).UpholdsTerms I]
    [(productions fuel).UpholdsFunctions I] [(productions fuel).UpholdsClasses I] :
    (productions (fuel + 1)).UpholdsTerms I where
  steady := productions_stepwise (fuel + 1)
  expression bs power := by
    rw [productions_expression]
    infer_instance
  operand bs := by
    rw [productions_operand]
    infer_instance
  bindingTarget bs := by
    rw [productions_bindingTarget]
    infer_instance
  assignmentPattern bs := by
    rw [productions_assignmentPattern]
    infer_instance

variable [hI : I.Lawful]

theorem productions_uphold (fuel : Nat) : (productions fuel).Upholds I := by
  induction fuel with
  | zero => exact { productions_zero_upholdTerms with statement := fun _ _ => .outOfFuel }
  | succ fuel ih =>
      refine { productions_succ_upholdTerms with statement := fun bs inList => ?_ }
      rw [productions_statement]
      infer_instance

/-- If it holds once the comments in front of the first token are applied, a lawful invariant holds
when the program has been read. -/
theorem program_upholds {s : State} (hs : Leads acceptLookahead s fun _ s' => I [] s')
    (fuel : Nat) :
    Leads (program (productions fuel)) s fun _ s' =>
      ∃ s₁, I [] s₁ ∧ (inScopes Scope.Action.finish).run.run s₁ = (.ok (), s') := by
  have := productions_uphold (I := I) fuel
  have hdirectives : Upholds I [] (directives none) [] := inferInstance
  have hlist : Upholds I [] (statementList (productions fuel) true) [] := inferInstance
  refine .bind fun _ s₁ hrun => .bind fun _ s₂ hrun' => .bind fun _ s₃ hrun'' => ?_
  intro _ s₄ hfinish
  refine ⟨s₃, ?_, hfinish⟩
  exact hlist.leads (hdirectives.leads (hs _ s₁ hrun) _ s₂ hrun') _ s₃ hrun''

/-! ## The end of the source -/

section

variable {α σ : Type}

/-- What holds whenever a round is the last one holds after the loop. -/
theorem iterate_leads {round : σ → Reading (Round σ α)} {post : α → State → Prop}
    (hround : ∀ state s, Leads (round state) s fun r s' => ∀ a, r = .done a → post a s')
    (fuel : Nat) (state : σ) (s : State) : Leads (iterate round fuel state) s post := by
  induction fuel generalizing state s with
  | zero =>
      intro a s' hrun
      cases hrun
  | succ fuel ih =>
      refine .bind fun r s' hrun => ?_
      cases r with
      | again state => exact ih state s'
      | done a => exact .pure (hround state s _ s' hrun a rfl)

/-- The statements of a program go on to the end of the source. -/
theorem statementList_isEnd (self : Productions) (s : State) :
    Leads (statementList self true) s fun _ s' => s'.lookahead.isEnd = true := by
  have hround (scan : ListScan) (s : State) : Leads (listRound self true scan) s fun r s' =>
      ∀ a, r = .done a → s'.lookahead.isEnd = true := by
    refine .bind ?_
    rintro _ _ ⟨⟩
    refine .ite (fun hend => .pure fun _ _ => ?_) fun _ => .ite (fun _ => ?_) fun _ => ?_
    · simpa using hend
    · exact .after fun _ _ => .after fun _ _ => .pure nofun
    · refine .after fun _ _ => .after fun _ _ => ?_
      exact .ite (fun _ => .after fun _ _ => .pure nofun) fun _ => .pure nofun
  have hlist : Leads (repeatFrom {} (listRound self true)) s fun _ s' =>
      s'.lookahead.isEnd = true := .bind fun _ _ _ => iterate_leads hround _ _ _
  exact .bind fun scan s' hrun => .pure (hlist scan s' hrun)

theorem program_isEnd (self : Productions) (s : State) :
    Leads (program self) s fun _ s' => s'.lookahead.isEnd = true := by
  refine .after fun _ _ => .after fun _ _ => .bind fun _ s₁ hrun _ s₂ hfinish => ?_
  rw [run_inScopes] at hfinish
  obtain ⟨-, rfl⟩ := Prod.mk.inj hfinish
  exact statementList_isEnd self _ _ s₁ hrun

end

end ScriptLint.Reading

namespace ScriptLint.Analysis

open Reading (InOrder Invariant)

variable {source : String} {o : Options} {known : KnownGlobals}

/-- In the first scopes there are no references yet. -/
theorem startState_inOrder (source : String) (o : Options) (known : KnownGlobals) :
    InOrder [] [] (startState source o known) := by
  have hplaces : (startState source o known).session.tracker.places = [] := by
    change (Scope.Tracker.start known _ o.module _).places = []
    unfold Scope.Tracker.start
    cases o.module <;> rfl
  refine ⟨ready_startState source o known, ?_, ?_, ?_, ?_⟩
  · change 0 < (Scope.Tracker.start known _ o.module _).stack.length
    unfold Scope.Tracker.start
    cases o.module <;> exact Nat.zero_lt_succ _
  all_goals simp [hplaces]

/-- Where the comments in front of the first token lead to a lawful invariant, it holds when the
source has been read, and closing the frames leads from there to the state that is left. -/
theorem run_upholds {I : Invariant} [I.Lawful]
    (hstart : Reading.Leads Reading.acceptLookahead (startState source o known) fun _ s' => I [] s')
    (hcomplete : (ofSource source o known).ending = .complete) :
    ∃ s, I [] s ∧ s.lookahead.isEnd = true ∧
      (Reading.inScopes Scope.Action.finish).run.run s = (.ok (), (run source o known).2) := by
  have hrun := run_of_complete hcomplete
  obtain ⟨s, hs, hfinish⟩ := Reading.program_upholds hstart _ _ _ hrun
  have hend := Reading.program_isEnd _ _ _ _ hrun
  refine ⟨s, hs, ?_, hfinish⟩
  rw [Reading.run_inScopes] at hfinish
  rwa [← (Prod.mk.inj hfinish).2] at hend

end ScriptLint.Analysis

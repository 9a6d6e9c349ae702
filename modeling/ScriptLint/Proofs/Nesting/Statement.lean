import ScriptLint.Proofs.Nesting.Expression

/-! # Nesting in statements

Statements inside a function or a block take brackets as they nest if the productions that they are
written over do. An import or an export there is reported, so nothing needs to be known of it.
-/

set_option synthInstance.maxSize 4096

namespace ScriptLint.Reading

variable {n : Nat} {g : List Closer} {ahead : Ahead} {t : Token}

/-! ## Checks -/

namespace Keeps

instance (fault : String → Position → Reading Unit) [∀ name position, Keeps (fault name position)]
    (names : List BoundName) : Keeps (reportFirst fault names) := by
  unfold reportFirst
  split <;> infer_instance

instance (name : String) (position : Position) : Keeps (reportUninitialized name position) := by
  unfold reportUninitialized
  infer_instance

instance (name : String) (position : Position) : Keeps (reportUndefinedValue name position) := by
  unfold reportUndefinedValue
  infer_instance

instance (kind : Scope.BindingKind) (target : BindingTarget) (value : Expression) :
    Keeps (checkInitializer kind target value) := by
  unfold checkInitializer
  have hrest : Keeps (match value.kind with
      | .assignment (some (name, _)) => do
        if !value.parenthesized && !(← tracker).isDeclared name then
          report "W120" value.position [name]
      | _ => pure ()) := by
    split <;> infer_instance
  infer_instance

instance (condition : Expression) : Keeps (checkCondition condition) := by
  unfold checkCondition
  infer_instance

instance : Keeps declarationKind? := by
  unfold declarationKind?
  infer_instance

instance : Keeps atLoopPattern := by
  unfold atLoopPattern
  infer_instance

instance : Keeps iteration? := by
  unfold iteration?
  infer_instance

instance (kind : Scope.BindingKind) (ds : Declarations) (iteration : Iteration)
    (position : Position) : Keeps (checkLoopDeclarations kind ds iteration position) := by
  unfold checkLoopDeclarations
  infer_instance

instance (target : Expression) : Keeps (loopTarget target) := by
  unfold loopTarget
  split <;> infer_instance

instance (word : String) (inList : Bool) : Keeps (checkReached word inList) := by
  unfold checkReached
  infer_instance

instance (word name : String) (position : Position) : Keeps (checkLabel word name position) := by
  unfold checkLabel
  refine .bind inferInstance fun tracker => ?_
  split <;> infer_instance

instance (word : String) (position : Position) : Keeps (checkSurroundings word position) := by
  unfold checkSurroundings
  infer_instance

instance (word : String) (inList : Bool) : Keeps (checkInList word inList) := by
  unfold checkInList
  infer_instance

instance (e : Expression) : Keeps (checkEffect e) := by
  unfold checkEffect
  infer_instance

instance : Keeps statementStart := by
  unfold statementStart
  refine .bind inferInstance fun t => .bind inferInstance fun next => ?_
  dsimp only
  have hform : Keeps (match (Symbol.ofToken t).statement? with
      | some form => pure (.form form)
      | none => pure .expression : Reading StatementStart) := by
    split <;> infer_instance
  infer_instance

end Keeps

namespace Shifts

variable (self : Productions) [hself : self.Nests] [self.Takes] [self.Steady 0]

/-! ## Declarations -/

instance (kind : Scope.BindingKind) (target : BindingTarget) :
    Shifts n g (.turns t .flat) (initializer self kind target) n g := by
  unfold initializer
  infer_instance

instance (kind : Scope.BindingKind) (inHead : Bool) (ds : Declarations) :
    Shifts n g ahead (declarator self kind inHead ds) n g := .forget <| by
  unfold declarator
  infer_instance

instance (kind : Scope.BindingKind) (inHead : Bool) (ds : Declarations) :
    Shifts n g ahead (declaratorRound self kind inHead ds) n g := .forget <| by
  unfold declaratorRound
  infer_instance

instance (kind : Scope.BindingKind) (inHead : Bool) :
    Shifts n g (.turns t .flat) (declarations self kind inHead) n g := by
  unfold declarations
  infer_instance

instance (kind : Scope.BindingKind) :
    Shifts n g (.turns t .flat) (variableStatement self kind) n g := by
  unfold variableStatement
  infer_instance

/-! ## Blocks and branches -/

instance : Shifts n g ahead (block self) n g := .forget <| by
  unfold block
  refine .of_seen fun t => looking ?_
  split
  next hbrace =>
    exact .of_turn (k := .opens) (Token.turn_of_isPunctuator hbrace) inferInstance
  next hbrace => exact of_missing hbrace

instance : Shifts n g ahead (subject self) n g := .forget <| by
  unfold subject
  infer_instance

instance : Shifts n g ahead (condition self) n g := .forget <| by
  unfold condition
  infer_instance

instance : Shifts (n + 1) g (.turns t .flat) (ifStatement self) (n + 1) g := by
  unfold ifStatement
  infer_instance

instance : Shifts (n + 1) g (.turns t .flat) (withStatement self) (n + 1) g := by
  unfold withStatement
  infer_instance

instance (before : Clause) : Shifts n g (.turns t .flat) (clauseHead self before) n g := by
  unfold clauseHead
  infer_instance

instance (clause : Clause) : Shifts (n + 1) g ahead (switchRound self clause) (n + 1) g :=
  .forget <| by
  unfold switchRound
  refine .of_seen fun t => looking ?_
  split
  · infer_instance
  next hends =>
    have hend : t.isEnd = false := by
      cases h : t.isEnd <;> simp [h] at hends ⊢
    split
    next hword =>
      have hturn : t.turn = .flat := (inferInstance : Tells _ t .flat).turn hword
      exact .of_turn hturn inferInstance
    next =>
      dsimp only
      split
      · exact .of_speaks inferInstance
      · exact of_statement self hend true fun statement => _

instance : Shifts n g (.turns t .flat) (switchStatement self) n g := by
  unfold switchStatement
  infer_instance

instance : Shifts n g (.turns t .flat) (catchClause self) n g := by
  unfold catchClause
  infer_instance

instance : Shifts n g (.turns t .flat) (tryStatement self) n g := by
  unfold tryStatement
  infer_instance

/-! ## Loops -/

instance : Shifts (n + 1) g ahead (loopBody self) (n + 1) g := .forget <| by
  unfold loopBody
  infer_instance

instance : Shifts (n + 1) g (.turns t .flat) (whileStatement self) (n + 1) g := by
  unfold whileStatement
  infer_instance

instance : Shifts (n + 1) g (.turns t .flat) (doStatement self) (n + 1) g := by
  unfold doStatement
  infer_instance

theorem declarationKind?_leads (s : State) :
    Leads declarationKind? s fun kind? _ => kind?.isSome → s.lookahead.turn = .flat := by
  refine .bind ?_
  rintro _ _ ⟨⟩
  refine .ite (fun h => .pure fun _ => Token.turn_of_isKeyword h) fun _ => ?_
  refine .ite (fun h => .pure fun _ => Token.turn_of_isKeyword h) fun _ => ?_
  exact .ite (fun h => .after fun _ _ => .pure fun _ => Token.turn_of_isName h) fun _ => .pure nofun

theorem atLoopPattern_leads (s : State) :
    Leads atLoopPattern s fun found _ => found = true → s.lookahead.turn = .opens := by
  refine .bind ?_
  rintro _ _ ⟨⟩
  refine .ite (fun h => .after fun _ _ => .pure fun _ => ?_) fun _ => .pure nofun
  exact (inferInstance : Tells _ s.lookahead .opens).turn h

theorem iteration?_leads (s : State) :
    Leads iteration? s fun iteration? _ => iteration?.isSome → s.lookahead.turn = .flat := by
  refine .bind ?_
  rintro _ _ ⟨⟩
  refine .ite (fun h => .pure fun _ => Token.turn_of_isName h) fun _ => ?_
  exact .ite (fun h => .pure fun _ => Token.turn_of_isKeyword h) fun _ => .pure nofun

instance : Shifts n g ahead (loopHead self) n g := .forget <| by
  unfold loopHead
  refine .of_seen fun t => looking ?_
  split
  · infer_instance
  refine telling (P := fun kind? t => kind?.isSome → t.turn = .flat) inferInstance
    declarationKind?_leads fun kind? hkind => ?_
  cases kind? with
  | some kind => exact .of_turn (hkind rfl) inferInstance
  | none =>
      refine telling (P := fun found t => found = true → t.turn = .opens) inferInstance
        atLoopPattern_leads fun found hfound => ?_
      split
      next h => exact .of_turn (hfound h) inferInstance
      · infer_instance

instance (iteration : Iteration) (position : Position) :
    Shifts (n + 1) (.bracket :: g) (.turns t .flat) (iterationRest self iteration position) (n + 1)
      g := by
  unfold iterationRest
  refine advancing fun _ => ?_
  cases iteration <;> dsimp only <;> infer_instance

instance : Shifts (n + 1) (.bracket :: g) ahead (countedRest self) (n + 1) g := .forget <| by
  unfold countedRest
  infer_instance

instance (position : Position) (head : LoopHead) :
    Shifts (n + 1) (.bracket :: g) ahead (forRest self position head) (n + 1) g := .forget <| by
  unfold forRest
  refine .of_seen fun t => telling (P := fun iteration? t => iteration?.isSome → t.turn = .flat)
    inferInstance iteration?_leads fun iteration? hiteration => ?_
  split
  · exact keeping inferInstance fun _ => .of_turn (hiteration rfl) inferInstance
  · exact keeping inferInstance fun _ => .of_turn (hiteration rfl) inferInstance
  · infer_instance
  · infer_instance

instance : Shifts n g (.turns t .flat) (forStatement self) n g := by
  unfold forStatement
  infer_instance

/-! ## Jumps -/

instance (word : String) (inList : Bool) : Shifts n g ahead (endJump word inList) n g :=
  .forget <| by
  unfold endJump
  infer_instance

instance (word : String) (inList : Bool) :
    Shifts n g (.turns t .flat) (breakStatement word inList) n g := by
  unfold breakStatement
  infer_instance

instance (inList : Bool) : Shifts n g (.turns t .flat) (returnStatement self inList) n g := by
  unfold returnStatement
  infer_instance

instance (inList : Bool) : Shifts n g (.turns t .flat) (throwStatement self inList) n g := by
  unfold throwStatement
  infer_instance

/-! ## Statements -/

instance (inList : Bool) :
    Shifts n g (.turns t .flat) (functionStatement self false inList) n g := by
  unfold functionStatement
  infer_instance

instance (inList : Bool) :
    Shifts n g (.both t .flat .flat) (functionStatement self true inList) n g := by
  unfold functionStatement
  infer_instance

instance : Shifts n g ahead (expressionStatement self) n g := .forget <| by
  unfold expressionStatement
  infer_instance

instance : Shifts (n + 1) g (.both t .flat .flat) (labelledStatement self) (n + 1) g := by
  unfold labelledStatement
  infer_instance

instance : Shifts n g (.turns t .flat) debuggerStatement n g := by
  unfold debuggerStatement
  infer_instance

instance (inList : Bool) : Shifts n g (.turns t .flat) (emptyStatement inList) n g := by
  unfold emptyStatement
  infer_instance

/-- Inside the program, what begins like an import or an export is reported. -/
theorem of_moduleItem {α : Type} {word feature : String} {next : Unit → Reading α}
    [hnext : ∀ u, Steady 0 (next u)] {n' : Nat} {g' : List Closer} :
    Shifts (n + 1) g ahead (moduleItem word feature >>= next) n' g' where
  leads {before start s} hs _ a s' hrun hquiet := by
    have hsteady : Steady 0 (moduleItem word feature >>= next) := inferInstance
    have hquiet₀ : s.session.sink.Quiet := by
      refine hsteady.stepwise.quiet ?_
      rwa [hrun]
    have hplace := (hs hquiet₀).inside.not_atTopLevel
    have hspeaks : Speaks (do
        report "E053" s.lookahead.position [word]
        requireEdition feature .es2015 s.lookahead.position
        next ()) := inferInstance
    have hrun' : ((do
        if !s.session.tracker.atTopLevel then report "E053" s.lookahead.position [word]
        requireEdition feature .es2015 s.lookahead.position : Reading Unit) >>= next).run.run s =
        (.ok a, s') := by
      rw [← hrun, moduleItem, bind_assoc]
      rfl
    refine absurd hquiet (hspeaks.loud s a s' ?_)
    simpa only [hplace, Bool.not_false, if_true, bind_assoc] using hrun'

instance : Shifts (n + 1) g ahead importDeclaration (n + 1) g := by
  unfold importDeclaration
  exact of_moduleItem

instance : Shifts (n + 1) g ahead (exportDeclaration self) (n + 1) g := .forget <| by
  unfold exportDeclaration
  exact .of_seen fun t => looking of_moduleItem

instance : Shifts (n + 1) g ahead (importStatement self) (n + 1) g := .forget <| by
  unfold importStatement
  infer_instance

end Shifts

/-! ## What statements begin with -/

end ScriptLint.Reading

namespace ScriptLint

open Reading (Turn)

/-- What a token does with which a statement of the form begins. -/
def StatementForm.turn : StatementForm → Turn
  | .block => .opens
  | _ => .flat

theorem Symbol.table_turn_statement : ∀ symbol ∈ Symbol.table,
    ∀ form ∈ symbol.statement?, Turn.ofSpelling symbol.id = form.turn := by
  decide

theorem Symbol.turn_of_statement? {t : Token} (ht : t.Legible) {form : StatementForm}
    (h : (Symbol.ofToken t).statement? = some form) : t.turn = form.turn := by
  have hspelled (hturn : t.turn = .ofSpelling t.raw)
      (h : ((Symbol.ofSpelling? t.raw).getD .unknown).statement? = some form) :
      t.turn = form.turn := by
    rcases Symbol.mem_table_or_unknown t.raw with ⟨hmem, hid⟩ | hunknown
    · rw [hturn, ← Symbol.table_turn_statement _ hmem form h, hid]
    · rw [hunknown] at h
      cases h
  unfold Symbol.ofToken at h
  split at h
  case h_13 hlexeme => exact hspelled (ht.turn_eq (.inr ⟨_, hlexeme⟩)) h
  case h_14 hlexeme => exact hspelled (ht.turn_eq (.inl hlexeme)) h
  all_goals cases h

namespace Reading

variable {n : Nat} {g : List Closer} {ahead : Ahead} {t : Token}

/-- What the tokens do that come next, where a statement begins so. -/
def BeginsStatement (t : Token) : StatementStart → Prop
  | .label | .asyncFunction => t.turn = .flat ∧ (Token.next t.stop).turn = .flat
  | .letDeclaration => t.turn = .flat
  | .form form => (Symbol.ofToken t).statement? = some form
  | .expression => True

theorem statementStart_leads (s : State) :
    Leads statementStart s fun start _ => BeginsStatement s.lookahead start := by
  refine .bind ?_
  rintro _ _ ⟨⟩
  refine .bind ?_
  rintro _ _ ⟨⟩
  refine .ite (fun h => .pure ?_) fun _ => .ite (fun h => .pure ?_) fun _ =>
    .ite (fun h => .pure ?_) fun _ => ?_
  · obtain ⟨hname, hcolon⟩ := Bool.and_eq_true_iff.mp h
    exact ⟨(inferInstance : Tells _ s.lookahead .flat).turn hname,
      Token.turn_of_isPunctuator hcolon⟩
  · simp only [Bool.and_eq_true] at h
    exact Token.turn_of_isName h.1.1
  · simp only [Bool.and_eq_true] at h
    exact ⟨Token.turn_of_isName h.1.1.1, Token.turn_of_isKeyword h.1.2⟩
  · split
    next hform => exact .pure hform
    · exact .pure trivial

namespace Shifts

variable (self : Productions) [hself : self.Nests] [self.Takes] [self.Steady 0]

theorem statementOf (inList : Bool) (form : StatementForm) :
    Shifts (n + 1) g (.turns t form.turn) (statementOf self inList form) (n + 1) g := by
  cases form <;> dsimp only [Reading.statementOf, StatementForm.turn] <;> infer_instance

instance (inList : Bool) : Shifts (n + 1) g ahead (readStatement self inList) (n + 1) g :=
  .forget <| by
  have hstatement (t : Token) : Shifts (n + 1) g (.seen t) (do
      match ← statementStart with
      | .label => labelledStatement self
      | .letDeclaration =>
        checkInList "Let" inList
        variableStatement self .letName
      | .asyncFunction => functionStatement self true inList
      | .form form => Reading.statementOf self inList form
      | .expression => expressionStatement self) (n + 1) g := by
    refine telling (P := fun start t => BeginsStatement t start) inferInstance
      statementStart_leads fun start hbegins => ?_
    cases start with
    | label => exact .of_turn hbegins.1 (.of_turn_next hbegins.2 inferInstance)
    | letDeclaration => exact .of_turn hbegins inferInstance
    | asyncFunction => exact .of_turn hbegins.1 (.of_turn_next hbegins.2 inferInstance)
    | form form =>
        refine .of_legible inferInstance fun hlegible => ?_
        exact .of_turn (Symbol.turn_of_statement? hlegible hbegins) (statementOf self inList form)
    | expression => infer_instance
  unfold readStatement
  have := Shifts.of_seen hstatement
  infer_instance

end Shifts

end Reading

end ScriptLint

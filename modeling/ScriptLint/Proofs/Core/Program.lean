import ScriptLint.Proofs.Analysis.Ending
import ScriptLint.Proofs.Core.Operator
import ScriptLint.Proofs.Reading.Program

/-! # Statements and programs of the core

How a program of the core is read, statement by statement, and what its analysis reports.
-/

/-! ## Statements of the core

Each statement is told by its first two words, and is read to its last word. What follows a statement
does not matter, for each ends with a semicolon or a brace.
-/

set_option synthInstance.maxSize 4096

namespace ScriptLint.Reading

open ScriptLint.Core (Word Expr Stmt Name Mark enclosed braced commaSeparated)

variable {p : Place} {w : Word} {ws rest : List Word} {self : Productions}

/-! ## Remarks -/

instance (e : Expression) : Harmless (checkEffect e) := by
  unfold checkEffect
  infer_instance

instance (e : Expression) : Harmless (checkCondition e) := by
  unfold checkCondition
  infer_instance

instance (kind : Scope.BindingKind) (target : BindingTarget) (value : Expression) :
    Harmless (checkInitializer kind target value) := by
  have hfirst : Harmless (reportFirst reportUndefinedValue target.names) := by
    unfold reportFirst reportUndefinedValue
    split <;> infer_instance
  unfold checkInitializer
  dsimp only
  split <;> split <;> infer_instance

instance (position : Position) : Harmless (reportMisplacedFunction position) := by
  unfold reportMisplacedFunction
  infer_instance

instance (word : String) (inList : Bool) : Harmless (checkReached word inList) := by
  unfold checkReached
  infer_instance

namespace Parses

/-! ## The beginning of a statement -/

/-- What is neither a label nor one of the words that declare something only in some places is told
by the operator table. -/
theorem statementStart (hw : w.isWhole) (hlet : w.token.isName "let" = false)
    (hasync : w.token.isName "async" = false)
    (hlabel : ∀ t : Token, t.Fronts p.size ws →
      (w.token.isIdentifier && t.isPunctuator ":") = false) :
    ParsesTo p (w :: ws) statementStart (w :: ws) fun start =>
      start = ((Symbol.ofToken w.token).statement?.map .form).getD .expression := by
  refine .token fun t ht => .peek hw fun next hnext => ?_
  have hlet' : t.isName "let" = false := (ht.begins.isName_eq "let").trans hlet
  have hasync' : t.isName "async" = false := (ht.begins.isName_eq "async").trans hasync
  have hlabel' : (t.isIdentifier && next.isPunctuator ":") = false := by
    rw [ht.begins.isIdentifier_eq]
    exact hlabel next hnext
  have hsymbol : Symbol.ofToken t = Symbol.ofToken w.token := ht.begins.ofToken_eq
  refine .ite (fun h => absurd h (by simp [hlabel'])) fun _ => ?_
  refine .ite (fun h => absurd h (by simp [hlet'])) fun _ => ?_
  refine .ite (fun h => absurd h (by simp [hasync'])) fun _ => ?_
  rw [hsymbol]
  cases (Symbol.ofToken w.token).statement? with
  | none => exact .pure ⟨rfl, rfl⟩
  | some form => exact .pure ⟨rfl, rfl⟩

/-- A name begins an expression unless a colon makes it a label. -/
theorem statementStart_name {x : Name} (hw : w.token.isPunctuator ":" = false) :
    ParsesTo p (.name x :: w :: ws) Reading.statementStart (.name x :: w :: ws)
      (· = .expression) := by
  have hname : ∀ word ∈ Core.contextualWords, (Word.name x).token.isName word = false :=
    fun word hword => beq_false_of_ne fun heq => x.not_mem_contextualWords (heq ▸ hword)
  exact statementStart rfl (hname "let" (by decide)) (hname "async" (by decide))
    fun t ht => by rw [ht.begins.isPunctuator_eq, hw]; rfl

/-- A mark begins what the operator table says. -/
theorem statementStart_mark {m : Mark} {form : StatementForm}
    (hform : (Symbol.ofToken (Word.mark m).token).statement? = some form) :
    ParsesTo p (.mark m :: ws) Reading.statementStart (.mark m :: ws) (· = .form form) := by
  have hname (word : String) : (Word.mark m).token.isName word = false := by cases m <;> rfl
  have hidentifier : (Word.mark m).token.isIdentifier = false := by cases m <;> rfl
  refine (statementStart rfl (hname "let") (hname "async") fun t _ => ?_).mono
    fun start left h => ⟨h.1, ?_⟩
  · rw [hidentifier]
    rfl
  · rw [h.2, hform]
    rfl

/-! ## Declarations and expressions -/

/-- The declaration of one variable with its initial value. -/
theorem declarations (hself : self.ReadsCore) {x : Name} {value : List Word} (inHead : Bool)
    (hvalue : ParsesTo p value self.element (.mark .semicolon :: ws) Expression.IsValid) :
    ParsesTo p (.mark .varWord :: .name x :: .mark .assign :: value)
      (declarations self .varName inHead) (.mark .semicolon :: ws) := by
  have hinitializer (target : BindingTarget) :
      ParsesTo p (.mark .assign :: value) (initializer self .varName target)
        (.mark .semicolon :: ws) :=
    (advance rfl).after fun _ _ => hvalue.after fun e _ => .skip fun _ => .pure ⟨rfl, trivial⟩
  have hdeclarator (ds : Declarations) :
      ParsesTo p (.name x :: .mark .assign :: value) (declarator self .varName inHead ds)
        (.mark .semicolon :: ws) := by
    refine hself.bindingTarget.after fun target _ => .skip fun _ => .atPunctuator ?_
    exact (hinitializer target).after fun _ _ => .pure ⟨rfl, trivial⟩
  unfold Reading.declarations
  refine .ite (absurd rfl) fun _ => (advance rfl).after fun _ _ => ?_
  refine repeatFrom (fun _ left => left = .name x :: .mark .assign :: value)
    (fun ds left hleft => ?_) rfl
  subst hleft
  exact (hdeclarator ds).after fun ds _ => .acceptPunctuator rfl nofun fun _ => .pure ⟨rfl, trivial⟩

theorem variableStatement (hself : self.ReadsCore) (hp : p.inExcluded = false) {x : Name}
    {value : Expr} (hdepth : p.depth + 2 * value.nesting ≤ p.options.maxDepth) :
    ParsesTo p (.mark .varWord :: .name x :: .mark .assign ::
      (value.words ++ .mark .semicolon :: ws)) (variableStatement self .varName) ws :=
  (declarations hself false (element hself hp (stops_mark (by decide)) hdepth)).after fun _ _ =>
    semicolon.after fun _ _ => .pure ⟨rfl, trivial⟩

theorem functionStatement (hself : self.ReadsCore) (hp : p.inExcluded = false) {f : Name}
    {names : List Name} {body : List Stmt}
    (hdepth : p.depth + 2 * Core.bodyNesting body ≤ p.options.maxDepth) (inList : Bool) :
    ParsesTo p (.mark .functionWord :: .name f ::
      (Core.functionWords names (Core.bodyWords body) ++ ws)) (functionStatement self false inList)
      ws := by
  have hdeclaration : ParsesTo p (.mark .functionWord :: .name f ::
      (Core.functionWords names (Core.bodyWords body) ++ ws)) (do
        let _ ← Reading.functionDeclaration self false false
        Pure.pure ({ kind := .declaration } : Statement)) ws :=
    (functionDeclaration hself hp hdepth).after fun _ _ => .pure ⟨rfl, trivial⟩
  exact .ite (fun _ => .skip fun t => .skip fun _ => hdeclaration) fun _ => hdeclaration

theorem expressionStatement (h : ParsesTo p ws self.anyExpression (.mark .semicolon :: rest)
    Expression.IsValid) : ParsesTo p ws (expressionStatement self) rest := by
  refine .skip fun start => h.after fun e he => .skip fun stop => ?_
  refine .ite (fun hnone => absurd hnone (by simp [show e.kind ≠ .invalid from he])) fun _ => ?_
  exact .remark <| semicolon.after fun _ _ => .pure ⟨rfl, trivial⟩

/-! ## Blocks and branches -/

theorem block (hself : self.ReadsCore) (hp : p.inExcluded = false) {body : List Stmt}
    (hdepth : p.depth + 2 * Core.bodyNesting body ≤ p.options.maxDepth) :
    ParsesTo p (braced (Core.bodyWords body) ws) (block self) ws := by
  have hrest : EndsList false (.mark .closeBrace :: ws) := ⟨ws, rfl⟩
  refine .token fun t ht => ?_
  have hopens : t.isPunctuator "\x7b" = true := ht.begins.isPunctuator_eq "\x7b"
  rw [if_pos hopens]
  refine (advance rfl).after fun _ _ => .skip fun _ => ?_
  refine (statementList hself hp hrest hdepth).after fun _ _ => .skip fun _ => ?_
  exact (expectPunctuator (by decide) rfl).after fun _ _ => .pure ⟨rfl, trivial⟩

theorem condition (hself : self.ReadsCore) {e : Expr}
    (hdepth : p.depth + 2 * e.nesting ≤ p.options.maxDepth) :
    ParsesTo p (enclosed e.words ws) (condition self) ws := by
  have hsubject : ParsesTo p (enclosed e.words ws) (subject self) ws := by
    refine (expectPunctuator (by decide) rfl).after fun _ _ => ?_
    refine (bracketed hself (by decide) hdepth).after fun e _ => ?_
    exact (expectPunctuator (by decide) rfl).after fun _ _ => .pure ⟨rfl, trivial⟩
  exact hsubject.after fun e _ => .harmless fun _ => ⟨rfl, trivial⟩

theorem ifStatement (hself : self.ReadsCore) (hp : p.inExcluded = false) {e : Expr}
    {first second : List Stmt} (he : p.depth + 2 * e.nesting ≤ p.options.maxDepth)
    (hfirst : p.depth + 1 + 2 * Core.bodyNesting first ≤ p.options.maxDepth)
    (hsecond : p.depth + 1 + 2 * Core.bodyNesting second ≤ p.options.maxDepth) :
    ParsesTo p (.mark .ifWord :: enclosed e.words (braced (Core.bodyWords first)
      (.mark .elseWord :: braced (Core.bodyWords second) ws))) (ifStatement self) ws := by
  refine (advance rfl).after fun _ _ => (condition hself he).after fun _ _ => ?_
  refine (hself.block hp hfirst).after fun _ _ => .atKeyword ?_
  refine (advance rfl).after fun _ _ => (hself.block hp hsecond).after fun _ _ => ?_
  exact .pure ⟨rfl, trivial⟩

/-! ## Loops -/

theorem loopBody (hself : self.ReadsCore) (hp : p.inExcluded = false) {body : List Stmt}
    (hdepth : p.depth + 1 + 2 * Core.bodyNesting body ≤ p.options.maxDepth) :
    ParsesTo p (braced (Core.bodyWords body) ws) (loopBody self) ws :=
  .skip fun _ => (hself.block hp hdepth).after fun _ _ => .skip fun _ => .pure ⟨rfl, trivial⟩

theorem whileStatement (hself : self.ReadsCore) (hp : p.inExcluded = false) {e : Expr}
    {body : List Stmt} (he : p.depth + 2 * e.nesting ≤ p.options.maxDepth)
    (hbody : p.depth + 1 + 2 * Core.bodyNesting body ≤ p.options.maxDepth) :
    ParsesTo p (.mark .whileWord :: enclosed e.words (braced (Core.bodyWords body) ws))
      (whileStatement self) ws :=
  (advance rfl).after fun _ _ => (condition hself he).after fun _ _ =>
    (loopBody hself hp hbody).after fun _ _ => .pure ⟨rfl, trivial⟩

theorem declarationKind :
    ParsesTo p (.mark .varWord :: ws) declarationKind? (.mark .varWord :: ws)
      (· = some .varName) := by
  refine .token fun t ht => ?_
  have hvar : t.isKeyword "var" = true := ht.begins.isKeyword_eq "var"
  rw [if_pos hvar]
  exact .pure ⟨rfl, rfl⟩

/-- The head of a loop that declares its variable. -/
theorem loopHead (hself : self.ReadsCore) (hp : p.inExcluded = false) {x : Name} {value : Expr}
    (hdepth : p.depth + (2 * value.nesting + 1) ≤ p.options.maxDepth) :
    ParsesTo p (.mark .varWord :: .name x :: .mark .assign ::
      enclosed value.words (.mark .semicolon :: ws)) (loopHead self) (.mark .semicolon :: ws)
      fun head => ∃ ds, head = .declarations .varName ds := by
  refine .atPunctuator <| declarationKind.after fun kind? hkind => ?_
  subst hkind
  have hvalue : ParsesTo (p.excluding true) (enclosed value.words (.mark .semicolon :: ws))
      self.element (.mark .semicolon :: ws) Expression.IsValid :=
    hself.group (stops_mark (by decide)) hdepth
  exact (excludingIn hp (declarations hself true hvalue)).after fun ds _ => .pure ⟨rfl, ds, rfl⟩

/-- What follows the head of a loop with a condition announces no iteration. -/
theorem iteration :
    ParsesTo p (.mark .semicolon :: ws) iteration? (.mark .semicolon :: ws) (· = none) := by
  refine .token fun t ht => ?_
  have hof : t.isName "of" = false := ht.begins.isName_eq "of"
  have hin : t.isKeyword "in" = false := ht.begins.isKeyword_eq "in"
  rw [hof, hin]
  exact .pure ⟨rfl, rfl⟩

theorem countedRest (hself : self.ReadsCore) (hp : p.inExcluded = false) {e step : Expr}
    {body : List Stmt} (he : p.depth + (2 * e.nesting + 1) ≤ p.options.maxDepth)
    (hstep : p.depth + (2 * step.nesting + 1) ≤ p.options.maxDepth)
    (hbody : p.depth + 1 + 2 * Core.bodyNesting body ≤ p.options.maxDepth) :
    ParsesTo p (.mark .semicolon :: enclosed e.words (.mark .semicolon ::
      enclosed step.words (.mark .closeParen :: braced (Core.bodyWords body) ws)))
      (countedRest self) ws := by
  refine (expectPunctuator (by decide) rfl).after fun _ _ => .atPunctuator ?_
  refine (hself.group (stops_mark (by decide)) he).after fun _ _ => .skip fun _ => ?_
  refine (expectPunctuator (by decide) rfl).after fun _ _ => .atPunctuator ?_
  refine (hself.group (stops_mark (by decide)) hstep).after fun _ _ => ?_
  refine (expectPunctuator (by decide) rfl).after fun _ _ => ?_
  exact (loopBody hself hp hbody).after fun _ _ => .pure ⟨rfl, trivial⟩

theorem forRest (hself : self.ReadsCore) (hp : p.inExcluded = false) {e step : Expr}
    {body : List Stmt} (he : p.depth + (2 * e.nesting + 1) ≤ p.options.maxDepth)
    (hstep : p.depth + (2 * step.nesting + 1) ≤ p.options.maxDepth)
    (hbody : p.depth + 1 + 2 * Core.bodyNesting body ≤ p.options.maxDepth) (position : Position)
    (ds : Declarations) :
    ParsesTo p (.mark .semicolon :: enclosed e.words (.mark .semicolon ::
      enclosed step.words (.mark .closeParen :: braced (Core.bodyWords body) ws)))
      (forRest self position (.declarations .varName ds)) ws := by
  refine iteration.after fun kind? hkind => ?_
  subst hkind
  exact countedRest hself hp he hstep hbody

theorem forStatement (hself : self.ReadsCore) (hp : p.inExcluded = false) {x : Name}
    {value e step : Expr} {body : List Stmt}
    (hvalue : p.depth + (2 * value.nesting + 1) ≤ p.options.maxDepth)
    (he : p.depth + (2 * e.nesting + 1) ≤ p.options.maxDepth)
    (hstep : p.depth + (2 * step.nesting + 1) ≤ p.options.maxDepth)
    (hbody : p.depth + 1 + 2 * Core.bodyNesting body ≤ p.options.maxDepth) :
    ParsesTo p (.mark .forWord :: .mark .openParen :: .mark .varWord :: .name x :: .mark .assign ::
      enclosed value.words (.mark .semicolon :: enclosed e.words (.mark .semicolon ::
        enclosed step.words (.mark .closeParen :: braced (Core.bodyWords body) ws))))
      (forStatement self) ws := by
  refine .skip fun start => (advance rfl).after fun _ _ => .token fun t ht => .skip fun async => ?_
  have hawait : t.isName "await" = false := ht.begins.isName_eq "await"
  rw [hawait]
  refine .ite nofun fun _ => (expectPunctuator (by decide) rfl).after fun _ _ => .skip fun _ => ?_
  refine (loopHead hself hp hvalue).after fun head hhead => ?_
  obtain ⟨ds, rfl⟩ := hhead
  refine (forRest hself hp he hstep hbody _ ds).after fun _ _ => .skip fun _ => ?_
  exact .pure ⟨rfl, trivial⟩

/-! ## Jumps -/

theorem returnStatement (hself : self.ReadsCore) (hp : p.inExcluded = false) {value : Expr}
    (hdepth : p.depth + 2 * value.nesting ≤ p.options.maxDepth) (inList : Bool) :
    ParsesTo p (.mark .returnWord :: value.words ++ .mark .semicolon :: ws)
      (returnStatement self inList) ws := by
  have hend : ParsesTo p (.mark .semicolon :: ws) (endJump "return" inList) ws :=
    semicolon.after fun _ _ => .skip fun _ => .pure ⟨rfl, trivial⟩
  refine (advance rfl).after fun _ _ => .token fun t ht => ?_
  have hgoes : (!(t.isPunctuator ";" || t.isPunctuator "\x7d" || t.isEnd) &&
      !t.flags.newlineBefore) = true := by
    obtain ⟨w, words, form, hwords, hform⟩ := exists_words_eq value
    have hbegins : w.Begins t := by
      rw [hwords] at ht
      exact ht.begins
    have hend : t.isEnd = false := by
      refine Bool.eq_false_iff.mpr fun hend => ?_
      rw [← hbegins.ofToken_eq, Symbol.ofToken, Token.lexeme_of_isEnd hend] at hform
      cases hform
    rw [isPunctuator_of_words ht rfl, isPunctuator_of_words ht rfl,
      hend, hbegins.flags_eq]
    rfl
  rw [if_pos hgoes]
  refine (hself.expression hp (by decide) (stops_mark (by decide)) hdepth).after fun e _ => ?_
  exact .remark hend

/-! ## Statements -/

theorem readStatement_mark (form : StatementForm) (hdepth : p.depth < p.options.maxDepth) {m : Mark}
    (hform : (Symbol.ofToken (Word.mark m).token).statement? = some form) (inList : Bool)
    (h : ParsesTo p.deeper (.mark m :: ws) (statementOf self inList form) rest) :
    ParsesTo p (.mark m :: ws) (readStatement self inList) rest := by
  refine nested hdepth <| (statementStart_mark hform).after fun start hstart => ?_
  subst hstart
  exact h

theorem readStatement_name (hdepth : p.depth < p.options.maxDepth) {x : Name}
    (hw : w.token.isPunctuator ":" = false) (inList : Bool)
    (h : ParsesTo p.deeper (.name x :: w :: ws) self.anyExpression (.mark .semicolon :: rest)
      Expression.IsValid) :
    ParsesTo p (.name x :: w :: ws) (readStatement self inList) rest := by
  refine nested hdepth <| (statementStart_name hw).after fun start hstart => ?_
  subst hstart
  exact expressionStatement h

/-- A statement is read by a table whose productions read what the core has. -/
theorem readStatement (hself : self.ReadsCore) (hp : p.inExcluded = false) {statement : Stmt}
    (hdepth : p.depth + 2 * statement.nesting ≤ p.options.maxDepth) (inList : Bool) :
    ParsesTo p (statement.words ++ ws) (readStatement self inList) ws := by
  have hinside {n : Nat} (h : p.depth + 1 + n ≤ p.options.maxDepth) :
      p.deeper.depth + n ≤ p.deeper.options.maxDepth := h
  have hbelow {n : Nat} (h : p.depth + 2 + n ≤ p.options.maxDepth) :
      p.deeper.depth + 1 + n ≤ p.deeper.options.maxDepth := h
  have hdeeper : p.deeper.inExcluded = false := hp
  cases statement with
  | var x value =>
      simp only [Stmt.nesting] at hdepth
      have hwords : (Stmt.var x value).words ++ ws = .mark .varWord :: .name x :: .mark .assign ::
          (value.words ++ .mark .semicolon :: ws) := by
        simp [Stmt.words]
      rw [hwords]
      refine readStatement_mark .varWord (by omega) rfl inList ?_
      exact variableStatement hself hdeeper (hinside (by omega))
  | assign x value =>
      simp only [Stmt.nesting] at hdepth
      have hwords : (Stmt.assign x value).words ++ ws =
          .name x :: .mark .assign :: (value.words ++ .mark .semicolon :: ws) := by
        simp [Stmt.words]
      rw [hwords]
      exact readStatement_name (by omega) rfl inList (hself.assignment hdeeper (hbelow (by omega)))
  | call f arguments =>
      simp only [Stmt.nesting] at hdepth
      rw [Stmt.words, List.cons_append, enclosed_append]
      exact readStatement_name (by omega) rfl inList (hself.invocation hdeeper (hbelow (by omega)))
  | branch e first second =>
      simp only [Stmt.nesting] at hdepth
      have hwords : (Stmt.branch e first second).words ++ ws =
          .mark .ifWord :: enclosed e.words (braced (Core.bodyWords first)
            (.mark .elseWord :: braced (Core.bodyWords second) ws)) := by
        simp [Stmt.words, enclosed, braced]
      rw [hwords]
      refine readStatement_mark .ifWord (by omega) rfl inList ?_
      exact ifStatement hself hdeeper (hinside (by omega)) (hbelow (by omega)) (hbelow (by omega))
  | «while» e body =>
      simp only [Stmt.nesting] at hdepth
      have hwords : (Stmt.while e body).words ++ ws =
          .mark .whileWord :: enclosed e.words (braced (Core.bodyWords body) ws) := by
        simp [Stmt.words, enclosed, braced]
      rw [hwords]
      refine readStatement_mark .whileWord (by omega) rfl inList ?_
      exact whileStatement hself hdeeper (hinside (by omega)) (hbelow (by omega))
  | «for» x value e step body =>
      simp only [Stmt.nesting] at hdepth
      have hwords : (Stmt.for x value e step body).words ++ ws =
          .mark .forWord :: .mark .openParen :: .mark .varWord :: .name x :: .mark .assign ::
            enclosed value.words (.mark .semicolon :: enclosed e.words (.mark .semicolon ::
              enclosed step.words (.mark .closeParen :: braced (Core.bodyWords body) ws))) := by
        simp [Stmt.words, enclosed, braced]
      rw [hwords]
      refine readStatement_mark .forWord (by omega) rfl inList ?_
      exact forStatement hself hdeeper (hinside (by omega)) (hinside (by omega))
        (hinside (by omega)) (hbelow (by omega))
  | «return» value =>
      simp only [Stmt.nesting] at hdepth
      have hwords : (Stmt.return value).words ++ ws =
          .mark .returnWord :: value.words ++ .mark .semicolon :: ws := by
        simp [Stmt.words]
      rw [hwords]
      refine readStatement_mark .returnWord (by omega) rfl inList ?_
      exact returnStatement hself hdeeper (hinside (by omega)) inList
  | function f parameters body =>
      simp only [Stmt.nesting] at hdepth
      rw [Stmt.words, List.cons_append, List.cons_append]
      refine readStatement_mark .functionWord (by omega) rfl inList ?_
      exact functionStatement hself hdeeper (hinside (by omega)) inList

/-- A block may stand where a statement may. -/
theorem readBlock (hself : self.ReadsCore) (hp : p.inExcluded = false) {body : List Stmt}
    (hdepth : p.depth + 1 + 2 * Core.bodyNesting body ≤ p.options.maxDepth) (inList : Bool) :
    ParsesTo p (braced (Core.bodyWords body) ws) (Reading.readStatement self inList) ws :=
  readStatement_mark .block (by omega) rfl inList
    (block (p := p.deeper) hself hp hdepth)

theorem readBindingTarget {x : Name} :
    ParsesTo p (.name x :: ws) (readBindingTarget self) ws :=
  .atPunctuator <| .atPunctuator <| bindingName.after fun _ _ => .pure ⟨rfl, trivial⟩

end Parses

end ScriptLint.Reading

/-! ## Programs of the core

The productions are one another's, so that each reads what the core has follows by induction on how
deeply they may nest. A program of the core is then read from its first word to its last: the
analysis is complete and reports no fault of syntax, provided that programs may nest twice as deeply
as this one does.
-/

namespace ScriptLint

namespace Reading

open ScriptLint.Core (Word Stmt)

variable {p : Place} {ws : List Word}

/-- A table that is out of fuel gives no answer. -/
theorem Parses.outOfFuel {α : Type} {post : α → List Word → Prop} :
    Parses p ws (throw .outOfFuel) post := fun _ _ => trivial

theorem productions_readsCore (fuel : Nat) : (productions fuel).ReadsCore := by
  induction fuel with
  | zero => constructor <;> intros <;> exact .outOfFuel
  | succ fuel ih =>
      constructor
      case expression =>
        intro _ _ power _ hp hpower hstops hdepth
        rw [productions_expression]
        exact .readExpression ih hp hpower hstops hdepth
      case group =>
        intro _ _ power _ hstops hdepth
        rw [productions_expression]
        exact .readGroup ih hstops hdepth
      case assignment =>
        intro _ _ _ _ hp hdepth
        rw [Productions.anyExpression, productions_expression]
        exact .readAssignment ih hp hdepth
      case invocation =>
        intro _ _ _ _ hp hdepth
        rw [Productions.anyExpression, productions_expression]
        exact .readInvocation ih hp hdepth
      case statement =>
        intro _ _ inList _ hp hdepth
        rw [productions_statement]
        exact .readStatement ih hp hdepth inList
      case block =>
        intro _ _ inList _ hp hdepth
        rw [productions_statement]
        exact .readBlock ih hp hdepth inList
      case bindingTarget =>
        intro _ _ _
        rw [productions_bindingTarget]
        exact .readBindingTarget

namespace Parses

theorem acceptLookahead : ParsesTo p ws acceptLookahead ws := by
  intro s hs
  rw [run_acceptLookahead hs.fronts.silent.1 hs.fronts.silent.2]
  exact ⟨ws, ⟨rfl, trivial⟩, hs⟩

theorem program {self : Productions} (hself : self.ReadsCore) (hp : p.inExcluded = false)
    {body : List Stmt} (hdepth : p.depth + 2 * Core.bodyNesting body ≤ p.options.maxDepth) :
    ParsesTo p (Core.bodyWords body) (program self) [] := by
  have hrest : EndsList true [] := rfl
  rw [← List.append_nil (Core.bodyWords body)]
  refine acceptLookahead.after fun _ _ => (directives hrest none).after fun _ _ => ?_
  refine (statementList hself hp hrest hdepth).after fun _ _ => ?_
  exact .harmless fun _ => ⟨rfl, trivial⟩

end Parses

end Reading

namespace Analysis

open ScriptLint.Core (Stmt)

/-- The place where the analysis of a program begins. -/
def startPlace (program : List Stmt) (o : Options) : Reading.Place :=
  { options := o, size := (Core.write program).utf8ByteSize, depth := 0, inExcluded := false }

theorem startState_at (program : List Stmt) {o : Options} (hlimit : o.maxErrors = 0)
    (known : KnownGlobals) : (startState (Core.write program) o known).At (startPlace program o)
      (Core.bodyWords program) where
  options := rfl
  size := rfl
  depth := rfl
  inExcluded := rfl
  clean := ⟨hlimit, rfl, fun _ hmem => absurd hmem (Array.not_mem_empty _)⟩
  fronts := ⟨Cursor.ofSource (Core.write program), Core.toList_write program,
    Cursor.ofSource_within _, rfl⟩
  tame := (Core.calm_body program).tame

/-- Reading any program of the core gets to its end, and the sink stays clean. -/
theorem exists_run_write (program : List Stmt) {o : Options} (hlimit : o.maxErrors = 0)
    (hdepth : 2 * Core.bodyNesting program ≤ o.maxDepth) (known : KnownGlobals) :
    ∃ s : Reading.State, s.session.sink.Clean ∧
      (Reading.program (Reading.productions (Reading.nestingBound
        (Core.write program).utf8ByteSize))).run.run (startState (Core.write program) o known) =
          (.ok (), s) := by
  let self := Reading.productions (Reading.nestingBound (Core.write program).utf8ByteSize)
  let start := startState (Core.write program) o known
  have hfuel : Ending.ofOutcome ((Reading.program self).run.run start).1 ≠ .outOfFuel :=
    ofSource_ending (Core.write program) o known
  have hinside : (startPlace program o).depth + 2 * Core.bodyNesting program ≤ o.maxDepth := by
    rwa [startPlace, Nat.zero_add]
  have hreads : Reading.Gets (startPlace program o) (fun _ left => left = [] ∧ True)
      ((Reading.program self).run.run start) :=
    Reading.Parses.program (Reading.productions_readsCore _) rfl hinside start
      (startState_at program hlimit known)
  rcases hrun : (Reading.program self).run.run start with ⟨(reason | _) | _, s⟩ <;>
    rw [hrun] at hreads hfuel
  · exact hreads.elim
  · exact absurd rfl hfuel
  · obtain ⟨_, -, hs⟩ := hreads
    exact ⟨s, hs.clean, rfl⟩

/-- Without a limit on diagnostics, the analysis of any program of the core is complete and reports
no fault of syntax, unless the program nests more than half as deeply as programs may. -/
theorem ofSource_write (program : List Stmt) {o : Options} (hlimit : o.maxErrors = 0)
    (hdepth : 2 * Core.bodyNesting program ≤ o.maxDepth) (known : KnownGlobals) :
    (ofSource (Core.write program) o known).ending = .complete ∧
      ∀ d ∈ (ofSource (Core.write program) o known).diagnostics, d.code ∉ faultCodes := by
  obtain ⟨s, hclean, hrun⟩ := exists_run_write program hlimit hdepth known
  have hanalysis : ofSource (Core.write program) o known =
      { diagnostics := s.session.sink.finish
        summary := s.session.tracker.summary
        ending := .complete } := by
    rw [ofSource, hrun]
    rfl
  rw [hanalysis]
  refine ⟨rfl, fun d hmem => hclean.codes d ?_⟩
  rw [Sink.finish, hclean.terminal, Option.toList_none, List.append_nil] at hmem
  exact Array.mem_toList_iff.mp (List.mem_of_mem_filter hmem)

/-- A function with a loop that gives an object with a template. -/
def quoting : List Stmt :=
  let quote : Core.Name := ⟨"quote", by decide, by decide, by decide⟩
  let text : Core.Name := ⟨"text", by decide, by decide, by decide⟩
  let empty : Core.Letters := ⟨"", by decide⟩
  [.function quote [text]
    [.while (.unary ⟨"!", by decide +kernel⟩ (.name text))
      [.return (.object [(.name text, .template empty [(.name text, empty)])])]]]

example : Core.write quoting =
    "function quote ( text ) \x7b while ( ! ( text ) ) " ++
      "\x7b return \x7b text : `$\x7b text \x7d` \x7d ; \x7d \x7d" := by decide +kernel

theorem ofSource_write_quoting : let o : Options := { edition := .es2022, maxErrors := 0 }
    2 * Core.bodyNesting quoting ≤ o.maxDepth ∧
      (ofSource (Core.write quoting) o {}).ending = .complete ∧
        ∀ d ∈ (ofSource (Core.write quoting) o {}).diagnostics, d.code ∉ faultCodes :=
  have hdepth : 2 * Core.bodyNesting quoting ≤ 512 := by decide
  ⟨hdepth, ofSource_write quoting rfl hdepth {}⟩

end Analysis

end ScriptLint

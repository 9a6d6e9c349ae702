import ScriptLint.Proofs.Reading.Flow

/-! # Functions and what stands in them

Reading what functions and classes are made of is steady if the productions it is written over are.
What they are used for behind a consumed token is asked of them up to a lower bound only.
-/

set_option synthInstance.maxSize 4096

namespace ScriptLint.Reading

/-- A table of productions that are steady up to a bound. -/
class Productions.Steady (n : Nat) (table : Productions) : Prop where
  expression (power : Nat) : Reading.Steady n (table.expression power)
  operand : Reading.Steady n table.operand
  statement (inList : Bool) : Reading.Steady n (table.statement inList)
  bindingTarget : Reading.Steady n table.bindingTarget
  assignmentPattern : Reading.Steady n table.assignmentPattern

attribute [instance] Productions.Steady.expression Productions.Steady.operand
  Productions.Steady.statement Productions.Steady.bindingTarget
  Productions.Steady.assignmentPattern

variable {n m : Nat} {s : State} {sure : Prop}

theorem Productions.Steady.mono {table : Productions} (htable : table.Steady n) (hle : m ≤ n) :
    table.Steady m where
  expression power := (htable.expression power).mono hle
  operand := htable.operand.mono hle
  statement inList := (htable.statement inList).mono hle
  bindingTarget := htable.bindingTarget.mono hle
  assignmentPattern := htable.assignmentPattern.mono hle

namespace Steady

variable (self : Productions) [hself : self.Steady m]

instance (table : Productions) [hexpression : Steady n (table.expression 0)] :
    Steady n table.anyExpression := hexpression

instance : Steady m self.element :=
  inferInstanceAs (Steady m (self.expression Symbol.commaPower))

/-! ## Access and arguments -/

instance : Steady n propertyAfterDot := by
  unfold propertyAfterDot
  refine .bind inferInstance fun t => ?_
  split <;> infer_instance

instance (index : Expression) : Steady n (checkIndex index) := by
  unfold checkIndex
  split <;> infer_instance

instance : Steady m (index self) := by
  unfold index
  infer_instance

instance : Steady n spread := by
  unfold spread
  infer_instance

instance (first? : Option Expression) : Steady m (argument self first?) := by
  unfold argument
  infer_instance

instance (first? : Option Expression) (comma : Position) :
    Steady n (argumentComma first? comma) := by
  unfold argumentComma
  infer_instance

instance : Steady m (arguments self) := by
  unfold arguments
  infer_instance

/-! ## Literals -/

instance : Steady n literal := by
  unfold literal
  infer_instance

instance (position : Position) (seen : List Char) (flag : Char) :
    Steady n (checkRegexpFlag position seen flag) := by
  unfold checkRegexpFlag
  split <;> infer_instance

instance (position : Position) (seen flags : List Char) :
    Steady n (checkRegexpFlags position seen flags) := by
  induction flags generalizing seen with
  | nil => exact .pure ()
  | cons flag flags ih =>
      unfold checkRegexpFlags
      infer_instance

instance : Steady n regexpLiteral := by
  unfold regexpLiteral
  refine .bind inferInstance fun t => .bind inferInstance fun _ => ?_
  dsimp only
  split <;> infer_instance

/-- Another substitution follows only behind the brace that ends this one. -/
instance : Advances m (substitution self) where
  stepwise := by
    have := hself.mono (Nat.zero_le m)
    have hexpression : Steady 0 (allowingIn self.anyExpression) := inferInstance
    have hbrace : Steady 0 (atPunctuator "\x7d") := inferInstance
    have hpiece : Steady 0 (do
      let piece ← token
      advance
      pure (piece.lexeme matches .template .middle _)) := inferInstance
    have hmissing : Steady 0 (do expectPunctuator "\x7d"; pure false) := inferInstance
    refine .bind hexpression.stepwise fun _ => .bind hbrace.stepwise fun atBrace => ?_
    split
    · exact .bind rescanTemplate_stepwise fun _ => hpiece.stepwise
    · exact hmissing.stepwise
  meets {s _} hs hn := by
    have hexpression : Steady m (allowingIn self.anyExpression) := inferInstance
    refine .then hexpression hs hn fun _ s' h hn' => .atPunctuator ?_
    split
    next hbrace =>
      have hpiece : Consumes m (do
        let piece ← token
        advance
        pure (piece.lexeme matches .template .middle _)) := inferInstance
      have hpos := h.ready.left_pos (Token.isEnd_eq_false_of_isPunctuator hbrace)
      refine (meets_rescanTemplate h.ready hbrace).bind fun _ s'' h' => ?_
      exact hpiece.moves (h.trans h') (h'.bound hn') (Nat.lt_of_lt_of_le hpos h.left)
    next =>
      have hmissing : Steady m (expectPunctuator "\x7d") := inferInstance
      exact .then hmissing h.ready hn' fun _ _ h' _ => .ends (h.trans h')

instance [Reach n m] : Consumes n (templateLiteral self) := by
  unfold templateLiteral
  infer_instance

instance [Reach n m] : Steady n (templateLiteral self) := Consumes.steady inferInstance

/-! ## Meta properties and construction -/

instance (position : Position) : Steady n (newTarget position) := by
  unfold newTarget
  infer_instance

/-- No operator comes at the end of the input. -/
theorem isEnd_eq_false_of_operator {t : Token} {form : OperatorForm}
    (h : (Symbol.ofToken t).operator? = some form) : t.isEnd = false := by
  unfold Symbol.ofToken at h
  unfold Token.isEnd
  split at h <;> simp_all

instance : Advances m (calleeAccess self) where
  stepwise := by
    have := hself.mono (Nat.zero_le m)
    refine .of_steady (n := 0) ?_
    unfold calleeAccess
    refine .bind inferInstance fun t => ?_
    split <;> infer_instance
  meets {s _} hs hn := by
    refine .token ?_
    have hpos (form : OperatorForm) (h : (Symbol.ofToken s.lookahead).operator? = some form) :
        0 < s.left := hs.left_pos (isEnd_eq_false_of_operator h)
    split
    next hform =>
      have hconsumes : Consumes m (do advance; let _ ← propertyAfterDot; pure true) := inferInstance
      exact hconsumes.moves (.refl hs) hn (hpos _ hform)
    next hform =>
      have hconsumes : Consumes m (do advance; index self; pure true) := inferInstance
      exact hconsumes.moves (.refl hs) hn (hpos _ hform)
    next hform =>
      have hconsumes : Consumes m (do let _ ← templateLiteral self; pure true) := inferInstance
      exact hconsumes.moves (.refl hs) hn (hpos _ hform)
    next => exact .ends (.refl hs)

instance : Steady m (calleeAccess self) := Advances.steady inferInstance

instance (position : Position) : Steady n (reportFunctionFunction position) := by
  unfold reportFunctionFunction
  infer_instance

instance (callee : Expression) : Steady n (checkConstructor callee) := by
  unfold checkConstructor
  split <;> infer_instance

instance [Reach n m] : Steady n (newExpression self) := by
  unfold newExpression
  infer_instance

instance [Reach n m] : Steady n (importExpression self) := by
  unfold importExpression
  infer_instance

instance : Steady n functionSent := by
  unfold functionSent
  infer_instance

instance : Steady n superWord := by
  unfold superWord
  infer_instance

/-! ## Patterns -/

instance : Steady m (patternDefault self) := by
  unfold patternDefault
  infer_instance

instance : Steady m (computedKey self) := by
  unfold computedKey
  infer_instance

instance (s : PatternScan) : Steady m (arrayBindingElement self s) := by
  unfold arrayBindingElement
  infer_instance

instance [Reach n m] : Steady n (arrayBinding self) := by
  unfold arrayBinding
  infer_instance

instance : Steady m (objectBindingProperty self) := by
  unfold objectBindingProperty
  infer_instance

instance (s : PatternScan) : Steady m (objectBindingElement self s) := by
  unfold objectBindingElement
  refine .bind inferInstance fun names? => ?_
  split <;> infer_instance

instance [Reach n m] : Steady n (objectBinding self) := by
  unfold objectBinding
  infer_instance

instance [Reach n m] : Steady n (readBindingTarget self) := by
  unfold readBindingTarget
  infer_instance

instance : Steady m (assignmentElement self) := by
  unfold assignmentElement
  infer_instance

instance : Steady m (assignmentProperty self) := by
  unfold assignmentProperty
  infer_instance

instance (inArray : Bool) (s : PatternScan) : Steady m (assignmentPart self inArray s) := by
  unfold assignmentPart
  infer_instance

instance [Reach n m] : Steady n (readAssignmentPattern self) := by
  unfold readAssignmentPattern
  infer_instance

instance [Steady n self.assignmentPattern] : Steady n (assignmentPatternExpression self) := by
  unfold assignmentPatternExpression
  infer_instance

/-! ## Statement lists -/

/-- A statement that takes nothing gives up its first token. -/
theorem moves_of_statement (inList : Bool) (hs : s.Ready) (hn : sure → s.left < m)
    (hend : s.lookahead.isEnd = false) {σ α : Type} (next : Statement → Round σ α) :
    Meets sure (do
      let statement ← self.statement inList
      let after ← token
      if after.position.offset == s.lookahead.position.offset && !after.isEnd then advance
      pure (next statement)) s s.Moves := by
  have hstatement : Steady m (self.statement inList) := inferInstance
  have hpos := hs.left_pos hend
  refine .then hstatement hs hn fun statement s' h hn' => .token ?_
  dsimp only
  split
  next =>
    have hconsumes : Consumes m (do advance; pure (next statement)) := inferInstance
    exact hconsumes.moves h hn' hpos
  next hmoved =>
    refine .pure ⟨h, fun _ => ?_⟩
    by_cases hsame : s'.lookahead.position.offset = s.lookahead.position.offset
    · have hafter : s'.lookahead.isEnd = true := by simpa [hsame] using hmoved
      rw [h.ready.isEnd_iff.mp hafter]
      exact hpos
    · exact h.left_lt hs hsame

instance (top : Bool) (scan : ListScan) : Advances m (listRound self top scan) where
  stepwise := by
    have := hself.mono (Nat.zero_le m)
    exact .of_steady (n := 0) (by unfold listRound; infer_instance)
  meets {s _} hs hn := by
    refine .token ?_
    split
    · exact .ends (.refl hs)
    next hends =>
      have hend : s.lookahead.isEnd = false := by
        cases h : s.lookahead.isEnd <;> simp [h] at hends ⊢
      split
      next =>
        have hconsumes : Consumes m (do
          reportUnexpected "\x7d" s.lookahead.position
          advance
          pure (.again scan : Round ListScan ListScan)) := inferInstance
        exact hconsumes.moves (.refl hs) hn (hs.left_pos hend)
      next => exact moves_of_statement self true hs hn hend _

instance (top : Bool) : Steady m (statementList self top) := by
  unfold statementList
  infer_instance

instance (simpleParameters? : Option Bool) (position : Position) :
    Steady n (applyStrictDirective simpleParameters? position) := by
  unfold applyStrictDirective
  infer_instance

instance (simpleParameters? : Option Bool) : Advances n (directiveRound simpleParameters?) where
  stepwise := by
    refine .of_steady (n := 0) ?_
    unfold directiveRound
    refine .bind inferInstance fun t => ?_
    split <;> infer_instance
  meets {s _} hs hn := by
    refine .token ?_
    split
    next value hstring =>
      refine .peek ?_
      split
      next =>
        have hconsumes : Consumes n (do
          if isStrictDirective s.lookahead.raw then
            applyStrictDirective simpleParameters? s.lookahead.position
          advance
          semicolon
          pure true) := inferInstance
        have hend : s.lookahead.isEnd = false := by simp [Token.isEnd, hstring]
        exact hconsumes.moves (.refl hs) hn (hs.left_pos hend)
      next => exact .ends (.refl hs)
    next => exact .ends (.refl hs)

instance (simpleParameters? : Option Bool) : Steady n (directives simpleParameters?) := by
  unfold directives
  infer_instance

/-! ## Functions -/

instance (rest : Bool) : Steady m (parameterDefault self rest) := by
  unfold parameterDefault
  infer_instance

instance (ps : Parameters) : Steady m (parameter self ps) := by
  unfold parameter
  infer_instance

instance (ps : Parameters) (comma : Position) : Steady n (parameterComma ps comma) := by
  unfold parameterComma
  infer_instance

instance : Steady m (parameters self) := by
  unfold parameters
  infer_instance

instance (ps : Parameters) (method : Bool) : Steady n (declareParameters ps method) := by
  unfold declareParameters
  infer_instance

instance (simple : Bool) : Steady m (functionBody self simple) := by
  unfold functionBody
  infer_instance

instance (facts : Scope.FunctionFacts) (position : Position) (ownName? : Option BoundName) :
    Steady m (functionRest self facts position ownName?) := by
  unfold functionRest
  infer_instance

instance : Steady n generatorStar := by
  unfold generatorStar
  infer_instance

instance (async : Bool) (position : Position) : Consumes n (functionWords async position) := by
  unfold functionWords
  infer_instance

instance (position : Position) : Steady n (reportMisplacedFunction position) := by
  unfold reportMisplacedFunction
  infer_instance

instance (bound : BoundName) (position : Position) : Steady n (declareFunction bound position) := by
  unfold declareFunction
  infer_instance

instance [Reach n m] (async anonymous : Bool) :
    Steady n (functionDeclaration self async anonymous) := by
  unfold functionDeclaration
  infer_instance

instance [Reach n m] (async : Bool) : Steady n (functionExpression self async) := by
  unfold functionExpression
  infer_instance

instance : Steady m (arrowParameters self) := by
  unfold arrowParameters
  infer_instance

instance (async : Bool) : Steady m (arrowFunction self async) := by
  unfold arrowFunction
  infer_instance

/-- The tokens with which the parameters of an arrow function begin. -/
def BeginsArrow (t : Token) : Prop := t.isPropertyName = true ∨ t.isPunctuator "(" = true

/-- The parameters of an arrow function take a token if they begin as they should. -/
theorem meets_arrowParameters [hreach : Reach n m] (hs : s.Ready) (hn : sure → s.left < n)
    (hbegins : BeginsArrow s.lookahead) :
    Meets sure (arrowParameters self) s fun _ s' => s.Reaches s' ∧ (sure → s'.left < m) := by
  refine .atPunctuator ?_
  split
  next hparenthesis =>
    have hrest : Steady m (do
      let ps ← commaList ")" {} (parameter self) parameterComma
      expectPunctuator ")"
      pure ps) := inferInstance
    refine (meets_expectPunctuator hs hn hparenthesis).bind fun _ s' h => ?_
    have hm := h.bound hreach hn
    exact (hrest.meets h.reaches.ready hm).mono fun _ _ h' => ⟨h.reaches.trans h', h'.bound hm⟩
  next hparenthesis =>
    have hname := hbegins.resolve_right hparenthesis
    refine (meets_bindingName hs hn hname).bind fun _ s' h => ?_
    exact .pure ⟨h.reaches, h.bound hreach hn⟩

/-- An arrow function is steady where its parameters begin as they should. -/
theorem meets_arrowFunction [hreach : Reach n m] (hs : s.Ready) (hn : sure → s.left < n)
    (hbegins : BeginsArrow s.lookahead) (async : Bool) :
    Meets sure (arrowFunction self async) s fun _ s' => s.Reaches s' := by
  let position := s.lookahead.position
  let entered (session : Scope.Session) : State :=
    let tracker := session.tracker.enterFunction { arrow := true, async } position
    { s with session := { session with tracker } }
  let rest (ps : Parameters) : Reading Expression := do
    declareParameters ps false
    expectPunctuator "=>"
    if ← atPunctuator "\x7b" then functionBody self ps.simple
    else
      let _ ← self.element
    inScopes Scope.Action.exitScope
    pure { kind := .arrow, position }
  refine .token (.requireEdition fun session => ?_)
  cases async with
  | true =>
      have hsteady : Steady n (do
        requireEdition "async functions" .es2017 position
        advance
        track (·.enterFunction { arrow := true, async := true } position)
        let ps ← arrowParameters self
        rest ps) := inferInstance
      have hreaches : s.Reaches { s with session } := .of_same hs rfl rfl rfl rfl
      exact (hsteady.meets hreaches.ready hn).mono fun _ _ h => hreaches.trans h
  | false =>
      have hreaches : s.Reaches (entered session) := .of_same hs rfl rfl rfl rfl
      have hrest (ps : Parameters) : Steady m (rest ps) := inferInstance
      change Meets sure (do
        track (·.enterFunction { arrow := true, async := false } position)
        let ps ← arrowParameters self
        rest ps) { s with session } _
      refine .track ?_
      refine (meets_arrowParameters self hreaches.ready hn hbegins).bind fun ps s' h => ?_
      refine ((hrest ps).meets h.1.ready h.2).mono fun _ _ h' => ?_
      exact hreaches.trans (h.1.trans h')

/-! ## Properties -/

instance : Steady n modifierWord := by
  unfold modifierWord
  refine .bind inferInstance fun t => ?_
  split <;> infer_instance

instance : Steady n modifiers := by
  unfold modifiers
  infer_instance

instance : Steady m (propertyKey self) := by
  unfold propertyKey
  refine .bind inferInstance fun t => ?_
  split <;> infer_instance

instance (key? : Option String) (ms : Modifiers) (constructor : Bool) :
    Steady m (method self key? ms constructor) := by
  unfold method
  refine .bind inferInstance fun t => .bind inferInstance fun ps => ?_
  dsimp only
  split <;> infer_instance

/-! ## Classes -/

instance (position : Position) : Steady m (staticBlock self position) := by
  unfold staticBlock
  infer_instance

instance (key? : Option String) (position : Position) :
    Steady m (fieldValue self key? position) := by
  unfold fieldValue
  infer_instance

instance (isStatic : Bool) (position : Position) :
    Steady m (methodOrField self isStatic position) := by
  unfold methodOrField
  infer_instance

instance : Steady m (classMember self) := by
  unfold classMember
  infer_instance

instance : Advances m (classRound self) where
  stepwise := by
    have := hself.mono (Nat.zero_le m)
    exact .of_steady (n := 0) (by unfold classRound; infer_instance)
  meets {s _} hs hn := by
    refine .token ?_
    split
    · exact .ends (.refl hs)
    split
    · exact meets_earlyEnd hs
    next hend =>
      have hmember : Steady m (classMember self) := inferInstance
      refine .then hmember hs hn fun _ s' h hn' => .token ?_
      dsimp only
      split
      next =>
        have hconsumes : Consumes m (do
          reportUnexpected s'.lookahead.display s'.lookahead.position
          advance
          pure true) := inferInstance
        exact hconsumes.moves h hn' (hs.left_pos (by simpa using hend))
      next hmoved =>
        exact .pure ⟨h, fun _ => h.left_lt hs (by simpa using hmoved)⟩

instance (anonymous : Bool) : Steady n (className anonymous) := by
  unfold className
  infer_instance

instance (bound? : Option BoundName) : Steady n (declareClass bound?) := by
  unfold declareClass
  infer_instance

instance (bound? : Option BoundName) : Steady m (classRest self bound?) := by
  unfold classRest
  infer_instance

instance [Reach n m] (declaration anonymous : Bool) :
    Steady n (readClass self declaration anonymous) := by
  unfold readClass
  infer_instance

end Steady

end ScriptLint.Reading

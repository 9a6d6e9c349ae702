import ScriptLint.Proofs.Nesting.Function

/-! # Nesting in expressions

Expressions take brackets as they nest if the productions that they are written over do. By the
operator table the next token tells which construct begins or goes on, and so what it does itself.
-/

set_option synthInstance.maxSize 4096

namespace ScriptLint

open Reading (Turn)

/-! ## The operator table -/

/-- What a token does that is read as an operand of the form, templates left aside. -/
def OperandForm.turn : OperandForm → Turn
  | .parenthesis | .array | .object => .opens
  | _ => .flat

/-- What a token does that is read as an operator of the form, templates left aside. -/
def OperatorForm.turn : OperatorForm → Turn
  | .index | .call => .opens
  | _ => .flat

namespace Symbol

theorem table_turn : ∀ symbol ∈ table,
    (∀ form ∈ symbol.operand?, form ≠ .template ∧ Turn.ofSpelling symbol.id = form.turn) ∧
      ∀ form ∈ symbol.operator?, form ≠ .taggedTemplate ∧
        Turn.ofSpelling symbol.id = form.turn := by
  decide

theorem mem_table_or_unknown (spelling : String) :
    ((ofSpelling? spelling).getD .unknown ∈ table ∧
      ((ofSpelling? spelling).getD .unknown).id = spelling) ∨
      (ofSpelling? spelling).getD .unknown = .unknown := by
  cases hfind : ofSpelling? spelling with
  | none => exact .inr rfl
  | some symbol =>
      have hid : symbol.id = spelling := by simpa using List.find?_some hfind
      exact .inl ⟨List.mem_of_find?_eq_some hfind, hid⟩

variable {t : Token}

/-- A token of fixed spelling does what its entry says. -/
theorem turn_of_ofSpelling? (ht : t.turn = .ofSpelling t.raw) :
    (∀ form ∈ ((ofSpelling? t.raw).getD .unknown).operand?,
        form ≠ .template ∧ t.turn = form.turn) ∧
      ∀ form ∈ ((ofSpelling? t.raw).getD .unknown).operator?,
        form ≠ .taggedTemplate ∧ t.turn = form.turn := by
  rcases mem_table_or_unknown t.raw with ⟨hmem, hid⟩ | hunknown
  · have hturn := table_turn _ hmem
    rwa [hid, ← ht] at hturn
  · rw [hunknown]
    exact ⟨nofun, nofun⟩

theorem turn_of_operand? (ht : t.Legible) {form : OperandForm}
    (h : (ofToken t).operand? = some form) :
    (form = .template ∧ (t.turn = .head ∨ t.turn = .flat)) ∨
      (form ≠ .template ∧ t.turn = form.turn) := by
  unfold ofToken at h
  split at h
  case h_13 hlexeme =>
    exact .inr ((turn_of_ofSpelling? (ht.turn_eq (.inr ⟨_, hlexeme⟩))).1 form h)
  case h_14 hlexeme => exact .inr ((turn_of_ofSpelling? (ht.turn_eq (.inl hlexeme))).1 form h)
  all_goals
    next hlexeme => cases h <;> simp [Token.turn, hlexeme, OperandForm.turn]

theorem turn_of_operator? (ht : t.Legible) {form : OperatorForm}
    (h : (ofToken t).operator? = some form) :
    (form = .taggedTemplate ∧ (t.turn = .head ∨ t.turn = .flat)) ∨
      (form ≠ .taggedTemplate ∧ t.turn = form.turn) := by
  unfold ofToken at h
  split at h
  case h_13 hlexeme =>
    exact .inr ((turn_of_ofSpelling? (ht.turn_eq (.inr ⟨_, hlexeme⟩))).2 form h)
  case h_14 hlexeme => exact .inr ((turn_of_ofSpelling? (ht.turn_eq (.inl hlexeme))).2 form h)
  all_goals
    next hlexeme => cases h <;> simp [Token.turn, hlexeme]

theorem turn_of_operator (ht : t.Legible) {form : OperatorForm}
    (h : (ofToken t).operator? = some form) (hform : form ≠ .taggedTemplate) :
    t.turn = form.turn :=
  ((turn_of_operator? ht h).resolve_left fun htemplate => hform htemplate.1).2

theorem turn_of_taggedTemplate (ht : t.Legible)
    (h : (ofToken t).operator? = some .taggedTemplate) : t.turn = .head ∨ t.turn = .flat :=
  ((turn_of_operator? ht h).resolve_right fun hother => hother.1 rfl).2

end Symbol

namespace Reading

variable {n : Nat} {g : List Closer} {ahead : Ahead} {t : Token}

namespace Shifts

variable (self : Productions) [hself : self.Nests]

/-! ## Templates -/

theorem rescanTemplate_leads (s : State) : Leads rescanTemplate s fun _ s' =>
    State.Keeps { s with lookahead := s.lookahead.rescanTemplate } s' := by
  refine .bind ?_
  rintro _ _ ⟨⟩
  refine .bind ?_
  rintro _ _ ⟨⟩
  have hfatal : Keeps checkFatal := inferInstance
  exact hfatal.leads _

/-- Behind the brace that ends a substitution, the template goes on or has ended. -/
theorem substitution_leads {before : List Token} {start : Token} {s : State}
    (hs : s.session.sink.Quiet → s.Since before start n (.backtick :: g)) :
    Leads (substitution self) s fun goesOn s' => s'.session.sink.Quiet →
      s'.Since before start n (if goesOn then .backtick :: g else g) := by
  have hexpression : Shifts n (.backtick :: g) .unknown (allowingIn self.anyExpression) n
    (.backtick :: g) := inferInstance
  refine .bind fun _ s₁ hrun => ?_
  have hs₁ := hexpression.leads hs trivial _ s₁ hrun
  refine .bind ?_
  rintro _ _ ⟨⟩
  refine .ite (fun hbrace => ?_) fun hbrace => ?_
  · refine .bind fun _ s₂ hrun₂ => .bind ?_
    rintro _ _ ⟨⟩
    refine .bind fun _ s₃ hrun₃ => .pure fun hquiet => ?_
    have hrescan := rescanTemplate_leads s₁ _ s₂ hrun₂
    have hadvance := advance_leads s₂ _ s₃ hrun₃
    have hsince := hs₁ (hrescan.quiet (hadvance.quiet hquiet))
    obtain ⟨ts, hconsumed, hwalk⟩ := hsince.walk
    have hlookahead : s₂.lookahead = s₁.lookahead.rescanTemplate := hrescan.lookahead
    have hpiece := hsince.ready.rescanTemplate hbrace
    have hbehind {g' : List Closer} (hwalk' : Walk start (s₁.lookahead.rescanTemplate :: ts)
        (Token.next s₁.lookahead.rescanTemplate.stop) g') : s₃.Since before start n g' := by
      suffices hbehind : s₂.behind.Since before start n g' from hbehind.keeps hadvance
      refine ⟨?_, hsince.inside.level hrescan.level, s₂.lookahead :: ts, ?_, ?_⟩
      · change (Token.next s₂.lookahead.stop).Within s₂.size
        rw [hlookahead, hrescan.size]
        exact .next hpiece.stop
      · exact congrArg _ (hrescan.consumed.trans hconsumed)
      · change Walk start _ (Token.next s₂.lookahead.stop) _
        rw [hlookahead]
        exact hwalk'
    have hnext := Walk.piece hwalk hbrace
    rw [hlookahead]
    obtain ⟨text?, hlexeme | hlexeme⟩ := s₁.lookahead.rescanTemplate_lexeme
    all_goals
      rw [hlexeme] at hnext ⊢
      exact hbehind hnext
  · have hmissing : Shifts n (.backtick :: g) (.seen s₁.lookahead) (expectPunctuator "\x7d") n g := by
      rw [← bind_pure (expectPunctuator _)]
      exact of_missing hbrace
    exact .bind fun _ s₂ hrun₂ => .pure (hmissing.leads hs₁ rfl _ s₂ hrun₂)

/-- The substitutions of a template lead to its end. -/
instance : Shifts n (.backtick :: g) ahead (repeatWhile (substitution self)) n g where
  leads {before start _} hs _ := by
    let GoesOn (s : State) : Prop :=
      s.session.sink.Quiet → s.Since before start n (.backtick :: g)
    let Ended (s : State) : Prop := s.session.sink.Quiet → s.Since before start n g
    refine repeatWhile_leads (fun s (hs : GoesOn s) => ?_) hs
    intro goesOn s' hrun
    have hsince := substitution_leads self hs goesOn s' hrun
    exact ⟨fun h => by simpa [h] using hsince, fun h => by simpa [h] using hsince⟩

/-- A template begins with its head or is one token. -/
theorem of_template (h : t.turn = .head ∨ t.turn = .flat) :
    Shifts n g (.seen t) (templateLiteral self) n g := by
  unfold templateLiteral
  refine looking ?_
  rcases h with h | h
  · obtain ⟨text?, hlexeme⟩ := Token.turn_eq_head_iff.mp h
    refine of_turn h (keeping inferInstance fun _ => advancing fun _ => ?_)
    dsimp only
    rw [hlexeme]
    infer_instance
  · have hlexeme : ∀ text?, t.lexeme ≠ .template .head text? := fun text? heq => by
      simp [Token.turn_eq_head_iff.mpr ⟨text?, heq⟩] at h
    refine of_turn h (keeping inferInstance fun _ => advancing fun _ => ?_)
    dsimp only
    split
    next hpiece => exact absurd hpiece (hlexeme _)
    · infer_instance

end Shifts

/-! ## Names and checks -/

namespace Keeps

instance : Keeps asyncRole? := by
  unfold asyncRole?
  infer_instance

instance (t : Token) : Keeps (wordRole? t) := by
  unfold wordRole?
  split
  · infer_instance
  · split <;> infer_instance

instance : Keeps nameRole := by
  unfold nameRole
  refine .bind inferInstance fun t => .bind inferInstance fun role? => ?_
  split <;> infer_instance

instance : Keeps atOperand := by
  unfold atOperand
  infer_instance

instance (keys : KeyTable) (key : String) (use : KeyUse) (position : Position) :
    Keeps (recordKey keys key use position) := by
  unfold recordKey
  dsimp only
  split
  · infer_instance
  · split <;> infer_instance

instance (keys : KeyTable) (comma : Position) : Keeps (propertyComma keys comma) := by
  unfold propertyComma
  infer_instance

instance (operand : Expression) : Keeps (updateOperand operand) := by
  unfold updateOperand
  split <;> infer_instance

instance (position : Position) : Keeps (reportFunctionFunction position) := by
  unfold reportFunctionFunction
  infer_instance

instance (callee : Expression) : Keeps (checkConstructor callee) := by
  unfold checkConstructor
  split <;> infer_instance

instance (operator : Token) (left right : Expression) :
    Keeps (checkComparison operator left right) := by
  unfold checkComparison
  infer_instance

instance (right : Expression) : Keeps (checkInstanceOf right) := by
  unfold checkInstanceOf
  infer_instance

instance (callee : Expression) (first? : Option Expression) : Keeps (checkCall callee first?) := by
  unfold checkCall
  refine .bind inferInstance fun o => ?_
  dsimp only
  split
  · split <;> infer_instance
  · infer_instance

end Keeps

namespace Shifts

variable (self : Productions) [hself : self.Nests] [self.Takes] [self.Steady 0]

instance : Shifts n g (.turns t .flat) variableName n g := by
  unfold variableName
  infer_instance

/-- A slash that is read again as a regular expression comes next in its place. -/
instance : Shifts n g ahead rescanRegexp n g where
  leads {before start s} hs _ := by
    refine .bind ?_
    rintro _ _ ⟨⟩
    refine .ite (fun hslash => ?_) fun _ => .pure hs
    rintro _ _ ⟨⟩ hquiet
    have hsince := hs hquiet
    obtain ⟨ts, hconsumed, hwalk⟩ := hsince.walk
    exact ⟨hsince.ready.rescanRegexp hslash, hsince.inside, ts, hconsumed, hwalk.regexp hslash⟩

instance : Shifts n g (.turns t .flat) (yieldExpression self) n g := by
  unfold yieldExpression
  infer_instance

instance : Shifts n g (.turns t .flat) (awaitExpression self) n g := by
  unfold awaitExpression
  infer_instance

/-- Only in front of the word `function` does a name begin an asynchronous function. -/
def FunctionFollows (t : Token) : Option NameRole → Prop
  | some .asyncFunction => (Token.next t.stop).isKeyword "function"
  | _ => True

theorem asyncRole?_leads (s : State) :
    Leads asyncRole? s fun role? _ => FunctionFollows s.lookahead role? := by
  have harrow (after : Token) : FunctionFollows s.lookahead
      (if after.isPunctuator "=>" then some (.arrow true) else none) := by
    split <;> trivial
  refine .bind ?_
  rintro _ _ ⟨⟩
  refine .ite (fun _ => .pure trivial) fun _ => .ite (fun hword => .pure hword) fun _ => ?_
  refine .ite (fun _ => ?_) fun _ => .ite (fun _ => ?_) fun _ => .pure trivial
  · exact .after fun after _ => .pure (harrow after)
  · exact .after fun after _ => .pure (harrow after)

theorem wordRole?_leads (t : Token) (s : State) :
    Leads (wordRole? t) s fun role? _ => FunctionFollows s.lookahead role? := by
  refine .ite (fun _ => .pure trivial) fun _ => ?_
  split
  · exact asyncRole?_leads s
  · exact .after fun generator _ => .pure (by split <;> trivial)
  · exact .after fun async _ => .pure (by split <;> trivial)
  · exact .pure trivial

theorem nameRole_leads (s : State) :
    Leads nameRole s fun role _ => FunctionFollows s.lookahead (some role) := by
  refine .bind ?_
  rintro _ _ ⟨⟩
  refine .bind fun role? s' hrun => ?_
  have hfollows := wordRole?_leads s.lookahead s role? s' hrun
  cases role? with
  | some role => exact .pure hfollows
  | none => exact .after fun next _ => .pure (by split <;> trivial)

instance : Shifts n g (.turns t .flat) (nameExpression self) n g :=
  .of_turns fun hturn => .telling (P := fun role t => FunctionFollows t (some role)) inferInstance
    nameRole_leads fun role hfollows => by
    cases role with
    | plain => exact .of_turn hturn inferInstance
    | arrow async => cases async <;> exact .of_turn hturn inferInstance
    | asyncFunction =>
        exact .of_turn hturn (.of_turn_next (Token.turn_of_isKeyword hfollows) inferInstance)
    | yield => exact .of_turn hturn inferInstance
    | await => exact .of_turn hturn inferInstance

/-! ## Object literals -/

instance (first : Token) (ms : Modifiers) (key? : Option String) :
    Shifts n g ahead (propertyValue self first ms key?) n g := .forget <| by
  unfold propertyValue
  generalize (if first.isIdentifier && !ms.generator && !ms.async then key? else none) = shown?
  cases shown? <;> infer_instance

instance (keys : KeyTable) : Shifts n g ahead (objectProperty self keys) n g := .forget <| by
  unfold objectProperty
  refine .of_seen fun first => looking ?_
  split
  · exact .of_speaks inferInstance
  split
  next hspread => exact .of_turn (k := .flat) (Token.turn_of_isPunctuator hspread) inferInstance
  · refine .bind inferInstance fun ms => .bind inferInstance fun key? => ?_
    cases key? <;> infer_instance

instance : Shifts n g (.turns t .opens) (objectLiteral self) n g := by
  unfold objectLiteral
  infer_instance

/-! ## Operands -/

instance : Shifts n g ahead (arrayElement self) n g := .forget <| by
  unfold arrayElement
  infer_instance

instance : Shifts n g (.turns t .opens) (arrayLiteral self) n g := by
  unfold arrayLiteral
  infer_instance

instance (otherwise : Reading Expression) [hother : Shifts n g (.turns t .opens) otherwise n g] :
    Shifts n g (.turns t .opens) (patternOr self otherwise) n g := by
  unfold patternOr
  infer_instance

instance : Shifts n g (.turns t .opens) (parenthesizedExpression self) n g := by
  unfold parenthesizedExpression
  infer_instance

instance : Shifts n g (.turns t .opens) (parenthesis self) n g := by
  unfold parenthesis
  infer_instance

instance : Shifts n g (.turns t .flat) (unaryExpression self) n g := by
  unfold unaryExpression
  refine looking_turns (advancing fun _ => .bind inferInstance fun operand => ?_)
  dsimp only
  split <;> infer_instance

instance : Shifts n g (.turns t .flat) (updateExpression self) n g := by
  unfold updateExpression
  infer_instance

instance : Shifts n g (.turns t .flat) thisWord n g := by
  unfold thisWord
  infer_instance

instance : Shifts n g (.turns t .flat) privateName n g := by
  unfold privateName
  infer_instance

instance : Speaks missingOperand := by
  unfold missingOperand
  infer_instance

instance : Shifts n g ahead (calleeAccess self) n g := .forget <| by
  refine .of_seen fun t => .of_legible inferInstance fun hlegible => ?_
  unfold calleeAccess
  refine looking ?_
  split
  next hform =>
    exact .of_turn (k := .flat) (Symbol.turn_of_operator hlegible hform nofun) inferInstance
  next hform =>
    exact .of_turn (k := .opens) (Symbol.turn_of_operator hlegible hform nofun) inferInstance
  next hform =>
    exact .bind (of_template self (Symbol.turn_of_taggedTemplate hlegible hform)) fun _ =>
      inferInstance
  · infer_instance

instance : Shifts n g (.turns t .flat) (newExpression self) n g := by
  unfold newExpression
  infer_instance

theorem operandOf (form : OperandForm) (hform : form ≠ .template) :
    Shifts n g (.turns t form.turn) (operandOf self form) n g := by
  cases form <;> dsimp only [Reading.operandOf, OperandForm.turn] <;>
    first | contradiction | infer_instance

instance : Shifts n g ahead (readOperand self) n g := .forget <| by
  unfold readOperand
  refine .bind inferInstance fun _ => .of_seen fun t => ?_
  have hoperand : Steady 0 (do
    match (Symbol.ofToken (← token)).operand? with
    | some form => Reading.operandOf self form
    | none => missingOperand) := .bind inferInstance fun t => by split <;> infer_instance
  refine .of_legible hoperand fun hlegible => looking ?_
  split
  next form hform =>
    rcases Symbol.turn_of_operand? hlegible hform with ⟨rfl, hturn⟩ | ⟨htemplate, hturn⟩
    · exact of_template self hturn
    · exact .of_turn hturn (operandOf self form htemplate)
  next => exact .of_speaks inferInstance

/-! ## Operators -/

instance (power : Nat) (left : Expression) :
    Shifts n g (.turns t .flat) (binaryOperation self power left) n g := by
  unfold binaryOperation
  infer_instance

instance (left : Expression) :
    Shifts n g (.turns t .flat) (assignmentOperation self left) n g := by
  unfold assignmentOperation
  infer_instance

instance : Shifts n g (.turns t .flat) (optionalAccess self) n g := by
  unfold optionalAccess
  infer_instance

instance (callee : Expression) :
    Shifts n g (.turns t .opens) (callOperation self callee) n g := by
  unfold callOperation
  infer_instance

omit [self.Takes] [self.Steady 0] in
theorem operatorOf (power : Nat) (left : Expression) (form : OperatorForm)
    (hform : form ≠ .taggedTemplate) :
    Shifts n g (.turns t form.turn) (operatorOf self power left form) n g := by
  cases form <;> dsimp only [Reading.operatorOf, OperatorForm.turn] <;>
    first | contradiction | infer_instance

omit [self.Takes] in
theorem operation (symbol : Symbol) {form : OperatorForm}
    (hform : (Symbol.ofToken t).operator? = some form) (left : Expression) :
    Shifts n g (.seen t) (operation self symbol form left) n g := by
  refine .of_legible (Consumes.steady inferInstance) fun hlegible => ?_
  unfold Reading.operation
  refine looking (keeping inferInstance fun _ => .bind ?_ fun _ => inferInstance)
  by_cases htemplate : form = .taggedTemplate
  · subst htemplate
    exact .bind (of_template self (Symbol.turn_of_taggedTemplate hlegible hform)) fun _ =>
      inferInstance
  · exact .of_turn (Symbol.turn_of_operator hlegible hform htemplate)
      (operatorOf self _ left form htemplate)

theorem operator?_of_operatorAt? {power : Nat} {excluded : Bool} {symbol : Symbol}
    {form : OperatorForm} (h : operatorAt? power excluded t = some (symbol, form)) :
    (Symbol.ofToken t).operator? = some form := by
  unfold operatorAt? at h
  split at h
  · cases h
  next hform =>
    split at h
    · cases h
    · cases h
      exact hform

instance (power : Nat) (left : Expression) :
    Shifts n g ahead (operatorRound self power left) n g where
  leads {_ _ s} hs _ := .bind fun next? s' hrun => by
    obtain ⟨hnext, rfl⟩ := Prod.mk.inj ((run_nextOperator? power s).symm.trans hrun)
    obtain rfl := Except.ok.inj hnext
    cases hnext : operatorAt? power (s.inExcluded && s.lookahead.isKeyword "in") s.lookahead with
    | none => exact .pure hs
    | some next =>
        obtain ⟨symbol, form⟩ := next
        refine .bind fun e s' hrun => .pure ?_
        exact (operation self symbol (operator?_of_operatorAt? hnext) left).leads hs rfl e s' hrun

instance (power : Nat) : Shifts n g ahead (readExpression self power) n g := .forget <| by
  unfold readExpression
  infer_instance

end Shifts

end Reading

end ScriptLint

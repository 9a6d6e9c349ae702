import ScriptLint.Proofs.Reading.Function

/-! # Expressions

Expressions are steady if the productions they are written over are.
-/

set_option synthInstance.maxSize 4096

namespace ScriptLint.Reading

variable {n m : Nat} {s : State} {sure : Prop}

namespace Steady

variable (self : Productions) [hself : self.Steady m]

/-! ## Names -/

instance : Steady n asyncRole? := by
  unfold asyncRole?
  infer_instance

instance (t : Token) : Steady n (wordRole? t) := by
  unfold wordRole?
  split
  · infer_instance
  · split <;> infer_instance

instance : Steady n nameRole := by
  unfold nameRole
  refine .bind inferInstance fun t => .bind inferInstance fun role? => ?_
  split <;> infer_instance

instance : Steady n variableName := by
  unfold variableName
  infer_instance

instance : Steady n atOperand := by
  unfold atOperand
  infer_instance

instance [Reach n m] : Steady n (yieldExpression self) := by
  unfold yieldExpression
  infer_instance

instance [Reach n m] : Steady n (awaitExpression self) := by
  unfold awaitExpression
  infer_instance

instance : Steady m (nameExpression self) := by
  unfold nameExpression
  refine .bind inferInstance fun role => ?_
  split <;> infer_instance

/-! To tell what a name begins is to look ahead, and no more. -/

theorem meets_asyncRole? (hs : s.Ready) :
    Meets sure asyncRole? s fun _ s' => s' = s := by
  refine .peek ?_
  dsimp only
  split
  · exact .pure rfl
  split
  · exact .pure rfl
  split
  · exact .look (fun _ _ => rfl) rfl rfl
  split
  · refine (meets_tokenAfterNextGroup hs).bind ?_
    rintro t _ rfl
    exact .pure rfl
  · exact .pure rfl

theorem meets_wordRole? (hs : s.Ready) (t : Token) :
    Meets sure (wordRole? t) s fun _ s' => s' = s := by
  unfold wordRole?
  split
  · exact .pure rfl
  split
  · exact meets_asyncRole? hs
  · exact .look (fun _ _ => rfl) rfl rfl
  · exact .look (fun _ _ => rfl) rfl rfl
  · exact .pure rfl

theorem meets_nameRole (hs : s.Ready) :
    Meets sure nameRole s fun _ s' => s' = s := by
  refine .token ((meets_wordRole? hs _).bind ?_)
  rintro role? s rfl
  split
  · exact .pure rfl
  · exact .look (fun _ _ => rfl) rfl rfl

/-- A name is an operand that is steady. -/
theorem meets_nameExpression [Reach n m] (hs : s.Ready)
    (hn : sure → s.left < n) (hbegins : BeginsArrow s.lookahead) :
    Meets sure (nameExpression self) s fun _ s' => s.Reaches s' := by
  refine (meets_nameRole hs).bind ?_
  rintro role _ rfl
  have hplain : Steady n variableName := inferInstance
  have hfunction : Steady n (functionExpression self true) := inferInstance
  have hyield : Steady n (yieldExpression self) := inferInstance
  have hawait : Steady n (awaitExpression self) := inferInstance
  cases role with
  | plain => exact hplain.meets hs hn
  | arrow async => exact meets_arrowFunction self hs hn hbegins async
  | asyncFunction => exact hfunction.meets hs hn
  | yield => exact hyield.meets hs hn
  | await => exact hawait.meets hs hn

/-! ## Object literals -/

instance (keys : KeyTable) (key : String) (use : KeyUse) (position : Position) :
    Steady n (recordKey keys key use position) := by
  unfold recordKey
  dsimp only
  split
  · infer_instance
  · split <;> infer_instance

instance (first : Token) (ms : Modifiers) (key? : Option String) :
    Steady m (propertyValue self first ms key?) := by
  unfold propertyValue
  generalize (if first.isIdentifier && !ms.generator && !ms.async then key? else none) = shown?
  cases shown? <;> infer_instance

instance (keys : KeyTable) : Steady m (objectProperty self keys) := by
  unfold objectProperty
  refine .bind inferInstance fun first => ?_
  split
  · infer_instance
  · split
    · infer_instance
    · refine .bind inferInstance fun m => .bind inferInstance fun key? => ?_
      cases key? <;> infer_instance

instance (keys : KeyTable) (comma : Position) : Steady n (propertyComma keys comma) := by
  unfold propertyComma
  infer_instance

instance [Reach n m] : Steady n (objectLiteral self) := by
  unfold objectLiteral
  infer_instance

/-! ## Operands -/

instance : Advances m (arrayElement self) where
  stepwise := by
    have := hself.mono (Nat.zero_le m)
    exact .of_steady (n := 0) (by unfold arrayElement; infer_instance)
  meets {s _} hs hn := by
    refine .token ?_
    split
    · exact .ends (.refl hs)
    split
    next hcomma =>
      have hconsumes : Consumes m (do
        if !s.options.elision then
          if s.options.edition = .es3 then reportExtraComma s.lookahead.position
          else report "W128" s.lookahead.position []
        advance
        pure true) := inferInstance
      have hend := Token.isEnd_eq_false_of_isPunctuator hcomma
      refine .options ?_
      exact hconsumes.moves (.refl hs) hn (hs.left_pos hend)
    next =>
      have hrest : Advances m (do
          spread
          let _ ← self.element
          let comma := (← token).position
          if ← acceptPunctuator "," then
            if (← atPunctuator "]") && (← options).edition = .es3 then reportExtraComma comma
            pure true
          else pure false) :=
        .after inferInstance fun _ => .after inferInstance fun _ => .after inferInstance fun _ =>
          .test inferInstance inferInstance .ends
      exact hrest.meets hs hn

instance [Reach n m] : Steady n (arrayLiteral self) := by
  unfold arrayLiteral
  infer_instance

instance (otherwise : Reading Expression) [Steady n otherwise]
    [Steady n self.assignmentPattern] : Steady n (patternOr self otherwise) := by
  unfold patternOr
  infer_instance

instance [Reach n m] : Steady n (parenthesizedExpression self) := by
  unfold parenthesizedExpression
  infer_instance

instance : Steady m (parenthesis self) := by
  unfold parenthesis
  infer_instance

/-- Parentheses are steady. -/
theorem meets_parenthesis [Reach n m] (hs : s.Ready) (hn : sure → s.left < n)
    (hbegins : BeginsArrow s.lookahead) :
    Meets sure (parenthesis self) s fun _ s' => s.Reaches s' := by
  refine (meets_tokenAfterGroup hs).bind ?_
  rintro after _ rfl
  split
  · exact meets_arrowFunction self hs hn hbegins false
  · have hgroup : Steady n (parenthesizedExpression self) := inferInstance
    exact hgroup.meets hs hn

instance [Reach n m] : Steady n (unaryExpression self) := by
  unfold unaryExpression
  refine .bind inferInstance fun t => (Consumes.bind inferInstance inferInstance fun _ => ?_).steady
  refine .bind inferInstance fun operand => ?_
  dsimp only
  split <;> infer_instance

instance (operand : Expression) : Steady n (updateOperand operand) := by
  unfold updateOperand
  split <;> infer_instance

instance [Reach n m] : Steady n (updateExpression self) := by
  unfold updateExpression
  infer_instance

instance : Steady n thisWord := by
  unfold thisWord
  infer_instance

instance : Steady n privateName := by
  unfold privateName
  infer_instance

instance : Steady n missingOperand := by
  unfold missingOperand
  infer_instance

instance (form : OperandForm) : Steady m (operandOf self form) := by
  cases form <;> dsimp only [operandOf] <;> infer_instance

/-- No spelling of the grammar is read like a name, and only a parenthesis like a parenthesis. -/
theorem table_operand? : ∀ symbol ∈ Symbol.table, symbol.operand? ≠ some .identifier ∧
    (symbol.operand? = some .parenthesis → symbol.id = "(") := by
  decide

/-- A spelling that is read like a name or like a parenthesis is that of a parenthesis. -/
theorem eq_of_ofSpelling? {spelling : String} {form : OperandForm}
    (h : ((Symbol.ofSpelling? spelling).getD .unknown).operand? = some form)
    (hform : form = .identifier ∨ form = .parenthesis) : spelling = "(" := by
  cases hfind : Symbol.ofSpelling? spelling with
  | none =>
    rw [hfind] at h
    cases h
  | some symbol =>
    rw [hfind] at h
    have hid : symbol.id = spelling := by simpa using List.find?_some hfind
    obtain ⟨hno, hparenthesis⟩ := table_operand? symbol (List.mem_of_find?_eq_some hfind)
    rcases hform with rfl | rfl
    · exact absurd h hno
    · rw [← hid]
      exact hparenthesis h

theorem beginsArrow_of_operand? {t : Token} {form : OperandForm}
    (h : (Symbol.ofToken t).operand? = some form)
    (hform : form = .identifier ∨ form = .parenthesis) : BeginsArrow t := by
  unfold Symbol.ofToken at h
  unfold BeginsArrow Token.isPropertyName Token.isPunctuator
  split at h
  case h_1 hlexeme | h_13 hlexeme => simp [hlexeme]
  case h_14 hlexeme => simp [hlexeme, eq_of_ofSpelling? h hform]
  -- Everything else is read in ways of its own, if at all.
  all_goals cases h <;> simp at hform

theorem meets_operandOf [Reach n m] [Steady n self.assignmentPattern] (hs : s.Ready)
    (hn : sure → s.left < n) {form : OperandForm}
    (hform : (Symbol.ofToken s.lookahead).operand? = some form) :
    Meets sure (operandOf self form) s fun _ s' => s.Reaches s' := by
  cases form
  case identifier =>
    exact meets_nameExpression self hs hn (beginsArrow_of_operand? hform (.inl rfl))
  case parenthesis =>
    exact meets_parenthesis self hs hn (beginsArrow_of_operand? hform (.inr rfl))
  all_goals
    dsimp only [operandOf]
    exact Steady.meets (n := n) hs hn

instance [Reach n m] [Steady n self.assignmentPattern] : Steady n (readOperand self) where
  stepwise := by
    have := hself.mono (Nat.zero_le m)
    refine .of_steady (n := 0) ?_
    unfold readOperand
    refine .bind inferInstance fun _ => .bind inferInstance fun t => ?_
    split <;> infer_instance
  meets {s _} hs hn := by
    have hrescan : Steady n rescanRegexp := inferInstance
    refine .then hrescan hs hn fun _ s' h hn' => .token ?_
    split
    next form hform =>
      exact (meets_operandOf self h.ready hn' hform).mono fun _ _ h' => h.trans h'
    next =>
      have hmissing : Steady n missingOperand := inferInstance
      exact (hmissing.meets h.ready hn').mono fun _ _ h' => h.trans h'

/-! ## Operators -/

instance (operator : Token) (left right : Expression) :
    Steady n (checkComparison operator left right) := by
  unfold checkComparison
  infer_instance

instance (right : Expression) : Steady n (checkInstanceOf right) := by
  unfold checkInstanceOf
  infer_instance

instance [Reach n m] (power : Nat) (left : Expression) :
    Consumes n (binaryOperation self power left) := by
  unfold binaryOperation
  infer_instance

instance [Reach n m] (left : Expression) : Consumes n (assignmentOperation self left) := by
  unfold assignmentOperation
  infer_instance

instance [Reach n m] : Consumes n (optionalAccess self) := by
  unfold optionalAccess
  infer_instance

instance (callee : Expression) (first? : Option Expression) :
    Steady n (checkCall callee first?) := by
  unfold checkCall
  refine .options (fun _ _ _ => rfl) fun o => ?_
  dsimp only
  split
  · split <;> infer_instance
  · infer_instance

instance [Reach n m] (callee : Expression) : Consumes n (callOperation self callee) := by
  unfold callOperation
  infer_instance

instance [Reach n m] (power : Nat) (left : Expression) (form : OperatorForm) :
    Consumes n (operatorOf self power left form) := by
  cases form <;> dsimp only [operatorOf] <;> infer_instance

instance [Reach n m] (symbol : Symbol) (form : OperatorForm) (left : Expression) :
    Consumes n (operation self symbol form left) := by
  unfold operation
  infer_instance

/-- To find an operator is to look at the next token, which is not the end of the input. -/
theorem meets_nextOperator? {s : State} (power : Nat) :
    Meets sure (nextOperator? power) s fun next? s' =>
      s' = s ∧ (next?.isSome → s.lookahead.isEnd = false) := by
  refine ⟨?_, .nextOperator? power s, ?_⟩ <;> rw [run_nextOperator?]
  · exact .refl s
  · refine ⟨rfl, fun hsome => ?_⟩
    unfold operatorAt? at hsome
    split at hsome
    · cases hsome
    next hform => exact isEnd_eq_false_of_operator hform

instance (power : Nat) : Steady n (nextOperator? power) where
  stepwise := by
    refine .bind (inferInstance : Steady 0 token).stepwise fun t => .observe (fun _ _ => rfl) ?_
    intro s
    dsimp only
    split
    · exact .pure _
    · split <;> exact .pure _
  meets hs _ := (meets_nextOperator? power).mono (by rintro _ _ ⟨rfl, -⟩; exact .refl hs)

instance [Reach n m] (power : Nat) (left : Expression) :
    Advances n (operatorRound self power left) where
  stepwise := by
    have := hself.mono (Nat.zero_le m)
    refine .of_steady (n := 0) ?_
    unfold operatorRound
    refine .bind inferInstance fun next? => ?_
    split <;> infer_instance
  meets {s _} hs hn := by
    refine (meets_nextOperator? power).bind ?_
    rintro next? _ ⟨rfl, hend⟩
    split
    · exact .ends (.refl hs)
    next symbol form =>
      have hconsumes : Consumes n (do
        let e ← operation self symbol form left
        pure (.again e : Round Expression Expression)) := inferInstance
      exact hconsumes.moves (.refl hs) hn (hs.left_pos (hend rfl))

instance [Reach n m] [Steady n self.assignmentPattern] (power : Nat) :
    Steady n (readExpression self power) := by
  unfold readExpression
  infer_instance

end Steady

end ScriptLint.Reading

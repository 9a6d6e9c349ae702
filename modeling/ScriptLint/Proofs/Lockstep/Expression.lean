import ScriptLint.Proofs.Lockstep.Function

/-! # Expressions in lockstep

Expressions are in lockstep if the productions they are written over are.
-/

set_option synthInstance.maxSize 65536

namespace ScriptLint.Reading.Lockstep

variable {p : Pairing} [hp : p.Lawful] (self : Productions) [hself : self.Lockstep p]

/-! ## Literals -/

instance literal : Lockstep p literal := by
  unfold Reading.literal
  infer_instance

instance (position : Position) [Behind p.start position] (seen : List Char) (flag : Char) :
    Lockstep p (checkRegexpFlag position seen flag) := by
  unfold checkRegexpFlag
  split
  · infer_instance
  · split <;> infer_instance

instance (position : Position) [Behind p.start position] (seen flags : List Char) :
    Lockstep p (checkRegexpFlags position seen flags) := by
  induction flags generalizing seen with
  | nil => exact .pure _
  | cons flag flags ih =>
      unfold checkRegexpFlags
      infer_instance

instance : Lockstep p regexpLiteral := by
  unfold regexpLiteral
  refine .bind inferInstance fun t => .bind inferInstance fun _ => ?_
  split <;> infer_instance

instance : Lockstep p (substitution self) := by
  unfold substitution
  infer_instance

instance : Lockstep p (templateLiteral self) := by
  unfold templateLiteral
  infer_instance

/-! ## Access and arguments -/

instance : Lockstep p propertyAfterDot := by
  unfold propertyAfterDot
  refine .bind inferInstance fun t => ?_
  split
  · infer_instance
  · infer_instance
  next name _ =>
    refine .askThen ?_ fun _ => inferInstance
    exact .inOldest (n := ⟨"W024", t.1.position, [name], by decide⟩) Scope.Listed.mem
      t.2.start.passes
  · infer_instance

instance (e : Expression) [hposition : Behind p.start e] : Lockstep p (checkIndex e) := by
  unfold checkIndex
  split
  next name _ =>
    have hcode : "W069" ∈ Flag.sub.codes := by decide
    refine .noteUnless .sub rfl (n := ⟨"W069", e.position, [name], by decide⟩) hcode
      hposition.behind (isDotName name && decide (reservation name = .free)) fun o => ?_
    rw [Bool.and_assoc]
    exact Bool.and_comm _ _
  · infer_instance

instance : Lockstep p (index self) := by
  unfold index
  infer_instance

instance : Lockstep p spread := by
  unfold spread
  infer_instance

instance (first? : Option Expression) [Behind p.start first?] :
    Lockstep p (argument self first?) := by
  unfold argument
  infer_instance

instance (first? : Option Expression) (comma : Position) [Behind p.start comma] :
    Lockstep p (argumentComma first? comma) := by
  unfold argumentComma
  infer_instance

instance : Lockstep p (arguments self) := by
  unfold arguments
  infer_instance

/-! ## Names -/

instance : Lockstep p asyncRole? := by
  unfold asyncRole?
  infer_instance

instance (t : Token) : Lockstep p (wordRole? t) := by
  unfold wordRole?
  split
  · infer_instance
  · split <;> infer_instance

instance : Lockstep p nameRole := by
  unfold nameRole
  refine .bind inferInstance fun t => .bind inferInstance fun role? => ?_
  split <;> infer_instance

instance : Lockstep p variableName := by
  unfold variableName
  refine .bind inferInstance fun t => ?_
  exact .reserved t.1.name t.1.position false fun _ => inferInstance

instance : Lockstep p atOperand := by
  unfold atOperand
  infer_instance

instance : Lockstep p (yieldExpression self) := by
  unfold yieldExpression
  infer_instance

instance : Lockstep p (awaitExpression self) := by
  unfold awaitExpression
  infer_instance

instance : Lockstep p (nameExpression self) := by
  unfold nameExpression
  refine .bind inferInstance fun role => ?_
  split <;> infer_instance

/-! ## Construction -/

instance (position : Position) [Behind p.start position] : Lockstep p (newTarget position) := by
  unfold newTarget
  have howner : Lockstep p (tracker >>= fun t => if t.ownerFunction?.isNone then
      reportUnexpected "new.target" position else pure ()) :=
    .look (fun h => by rw [h.ownerFunction?_isNone]) fun _ => inferInstance
  infer_instance

instance : Lockstep p (calleeAccess self) := by
  unfold calleeAccess
  refine .bind inferInstance fun t => ?_
  split <;> infer_instance

instance (callee : Expression) [hposition : Behind p.start callee] :
    Lockstep p (checkConstructor callee) := by
  have hcode : "W054" ∈ Flag.evil.codes := by decide
  have hreport : Lockstep p (options >>= fun o =>
      if !o.evil then reportFunctionFunction callee.position else pure ()) :=
    .noteUnless .evil rfl (n := ⟨"W054", callee.position, [], by decide⟩) hcode hposition.behind true
      fun _ => rfl
  unfold checkConstructor
  split <;> infer_instance

instance : Lockstep p (newExpression self) := by
  unfold newExpression
  infer_instance

instance : Lockstep p (importExpression self) := by
  unfold importExpression
  refine .bind inferInstance fun first => .bind inferInstance fun _ => .bind inferInstance fun t => ?_
  let n : Notice := ⟨"E070", first.1.position, [], by decide⟩
  have hreport : Lockstep p (options >>= fun o =>
      if !o.module then Reading.report "E070" first.1.position [] else pure ()) := by
    refine .underOptions (n := n) Scope.Listed.mem first.2.start.passes (fun _ o => !o.module)
      (fun _ => rfl) (fun _ flag? o => ?_) fun s => by rw [tell_ite]; rfl
    rw [Options.relax_module]
  split
  · infer_instance
  · split
    · refine .bind inferInstance fun _ => .bind inferInstance fun _ => ?_
      exact .askThen hreport fun _ => inferInstance
    · infer_instance

instance : Lockstep p functionSent := by
  unfold functionSent
  refine .bind inferInstance fun first => .bind inferInstance fun _ => .bind inferInstance fun _ =>
    .bind inferInstance fun _ => ?_
  have hposition : p.start.Passes first.1.position := first.2.start.passes
  let unasked : Notice := ⟨"W144", first.1.position, ["function.sent", "gensent"], by decide⟩
  let misplaced : Notice := ⟨"E071", first.1.position, [], by decide⟩
  let notice (s : State) (o : Options) : Option Notice :=
    if !o.generatorSent then some unasked
    else if !s.session.tracker.ownerFunction?.any (·.facts.generator) then some misplaced else none
  refine .remark (pure { kind := .metaProperty, position := first.1.position }) notice
    (fun {s s'} h => ?_) (fun {s} _ => .of_plain (fun o n hn => ?_) fun flag? o => ?_) fun s => ?_
  · have howner := (hp.outline h.session).ownerFunction?_any (·.generator)
    simp only [notice, howner]
  · dsimp only [notice] at hn
    split at hn
    · cases hn
      exact ⟨Scope.Listed.mem, hposition⟩
    · split at hn <;> cases hn
      exact ⟨Scope.Listed.mem, hposition⟩
  · simp only [notice, Options.relax_generatorSent]
  · dsimp only [notice]
    rw [tell_ite_bind, tell_ite_bind]
    change (if !s.options.generatorSent then _ else _ : Reading Expression).run.run s = _
    split
    · rfl
    · change (if !s.session.tracker.ownerFunction?.any (·.facts.generator) then _ else _ :
        Reading Expression).run.run s = _
      split <;> rfl

instance : Lockstep p superWord := by
  unfold superWord
  refine .bind inferInstance fun first => .bind inferInstance fun _ => ?_
  refine .look (fun h => ?_) fun _ => inferInstance
  have hconstructor := h.ownerFunction?_any (·.constructor)
  have hmethod := h.ownerFunction?_any (·.method)
  simp only [hconstructor, hmethod]

/-! ## Object literals -/

instance (keys : KeyTable) [Behind p.start keys] (key : String) (use : KeyUse) (position : Position)
    [Behind p.start position] : Lockstep p (recordKey keys key use position) := by
  unfold recordKey
  dsimp only
  split
  · infer_instance
  · split <;> infer_instance

instance (first : Token) [Behind p.start first] (m : Modifiers) (key? : Option String) :
    Lockstep p (propertyValue self first m key?) := by
  unfold propertyValue
  generalize (if first.isIdentifier && !m.generator && !m.async then key? else none) = shown?
  cases shown? <;> infer_instance

instance (keys : KeyTable) [Behind p.start keys] : Lockstep p (objectProperty self keys) := by
  unfold objectProperty
  refine .bind inferInstance fun first => ?_
  split
  · infer_instance
  · split
    · infer_instance
    · refine .bind inferInstance fun m => .bind inferInstance fun key? => ?_
      rcases key? with ⟨_ | key, hkey⟩ <;> dsimp only <;> infer_instance

theorem extraComma (closes : Bool) {comma : Position} (hcomma : p.start.Passes comma) :
    Lockstep p (options >>= fun o =>
      if closes && decide (o.edition = .es3) then reportExtraComma comma else pure ()) := by
  refine .underOptions (n := ⟨"W070", comma, [], by decide⟩) Scope.Listed.mem hcomma
    (fun _ o => closes && decide (o.edition = .es3)) (fun _ => rfl) (fun _ flag? o => ?_) fun s => ?_
  · rw [Options.relax_edition]
  · rw [tell_ite]
    rfl

instance (keys : KeyTable) (comma : Position) [hcomma : Behind p.start comma] :
    Lockstep p (propertyComma keys comma) := by
  unfold propertyComma
  exact .bind inferInstance fun closes => .extraComma closes hcomma.behind

instance : Lockstep p (objectLiteral self) := by
  unfold objectLiteral
  infer_instance

/-! ## Operands -/

instance : Lockstep p (arrayElement self) := by
  unfold arrayElement
  refine .bind inferInstance fun t => ?_
  split
  · infer_instance
  split
  · let old : Notice := ⟨"W070", t.1.position, [], by decide⟩
    let plain : Notice := ⟨"W128", t.1.position, [], by decide⟩
    let notice (o : Options) : Option Notice :=
      if !o.elision then if o.edition = .es3 then some old else some plain else none
    refine .remark (advance >>= fun _ => pure true) (fun _ => notice) (fun _ => rfl)
      (fun _ => .of_plain (fun o n hn => ?_) fun flag? o => ?_) fun s => ?_
    · dsimp only [notice] at hn
      split at hn
      · split at hn <;> cases hn <;> exact ⟨Scope.Listed.mem, t.2.start.passes⟩
      · cases hn
    · simp only [notice, Options.relax_elision, Options.relax_edition]
    · dsimp only [notice]
      rw [tell_ite_bind, tell_ite_bind]
      rfl
  · refine .bind inferInstance fun _ => .bind inferInstance fun _ => .bind inferInstance fun comma =>
      .bind inferInstance fun accepted => ?_
    split
    · refine .bind inferInstance fun closes => ?_
      exact .askThen (.extraComma closes comma.2.start.passes) fun _ => inferInstance
    · infer_instance

instance : Lockstep p (arrayLiteral self) := by
  unfold arrayLiteral
  infer_instance

instance {otherwise : Reading Expression} [Lockstep p otherwise] :
    Lockstep p (patternOr self otherwise) := by
  unfold patternOr
  infer_instance

instance : Lockstep p (parenthesizedExpression self) := by
  unfold parenthesizedExpression
  infer_instance

instance : Lockstep p (parenthesis self) := by
  unfold parenthesis
  infer_instance

instance : Lockstep p (unaryExpression self) := by
  unfold unaryExpression
  refine .bind inferInstance fun t => .bind inferInstance fun _ => .bind inferInstance fun e => ?_
  dsimp only
  split <;> infer_instance

instance (operand : Expression) [Behind p.start operand] : Lockstep p (updateOperand operand) := by
  unfold updateOperand
  split <;> infer_instance

instance : Lockstep p (updateExpression self) := by
  unfold updateExpression
  infer_instance

instance : Lockstep p thisWord := by
  unfold thisWord
  infer_instance

instance : Lockstep p privateName := by
  unfold privateName
  infer_instance

instance : Lockstep p missingOperand := by
  unfold missingOperand
  infer_instance

instance (form : OperandForm) : Lockstep p (operandOf self form) := by
  cases form <;> unfold operandOf <;> dsimp only <;> infer_instance

instance : Lockstep p (readOperand self) := by
  unfold readOperand
  refine .bind inferInstance fun _ => .bind inferInstance fun t => ?_
  split <;> infer_instance

/-! ## Operators -/

instance (operator : Token) [hoperator : Behind p.start operator] (left right : Expression) :
    Lockstep p (checkComparison operator left right) := by
  have hcode : "W116" ∈ Flag.eqeqeq.codes := by decide
  have hstrict : Lockstep p (options >>= fun o => if o.eqeqeq then
      (strictEquality? operator.raw).forM fun wanted =>
        Reading.report "W116" operator.position [wanted, operator.raw]
      else pure ()) := by
    cases strictEquality? operator.raw with
    | none => exact .idle fun s => ⟨s.options, rfl⟩
    | some wanted =>
        exact .noteIf .eqeqeq rfl (n := ⟨"W116", operator.position, [wanted, operator.raw], by decide⟩)
          hcode hoperator.behind.start.passes true fun _ => rfl
  unfold checkComparison
  infer_instance

instance (right : Expression) [Behind p.start right] : Lockstep p (checkInstanceOf right) := by
  unfold checkInstanceOf
  infer_instance

instance (power : Nat) (left : Expression) : Lockstep p (binaryOperation self power left) := by
  unfold binaryOperation
  infer_instance

instance (left : Expression) [Behind p.start left] : Lockstep p (assignmentOperation self left) := by
  unfold assignmentOperation
  infer_instance

instance : Lockstep p (optionalAccess self) := by
  unfold optionalAccess
  infer_instance

instance (callee : Expression) [hposition : Behind p.start callee] (first? : Option Expression) :
    Lockstep p (checkCall callee first?) := by
  refine .unlessSet .evil rfl ?_
  have htells (code : String) (hcode : code ∈ Flag.evil.codes) (hregular : Halt.IsRegular code) :
      AtMostTells (fun n => n.code ∈ Flag.evil.codes ∧ p.start.Passes n.position)
        (Reading.report code callee.position [] hregular) :=
    .report ⟨code, callee.position, [], hregular⟩ ⟨hcode, hposition.behind⟩
  split
  · exact htells "W061" (by decide) (by decide)
  · exact htells "W054" (by decide) (by decide)
  · exact .ite (htells "W066" (by decide) (by decide)) .nothing
  · exact .ite (htells "W066" (by decide) (by decide)) .nothing
  · exact .nothing

instance (callee : Expression) [Behind p.start callee] : Lockstep p (callOperation self callee) := by
  unfold callOperation
  infer_instance

instance (power : Nat) (left : Expression) [Behind p.start left] (form : OperatorForm) :
    Lockstep p (operatorOf self power left form) := by
  cases form <;> unfold operatorOf <;> dsimp only <;> infer_instance

omit hp in
instance (power : Nat) : Lockstep p (nextOperator? power) := by
  unfold nextOperator?
  refine .bind inferInstance fun t => .observe (fun h => by rw [h.inExcluded]) fun s _ => ?_
  dsimp only
  split
  · infer_instance
  · split <;> infer_instance

instance (symbol : Symbol) (form : OperatorForm) (left : Expression) [Behind p.start left] :
    Lockstep p (operation self symbol form left) := by
  unfold operation
  infer_instance

instance (power : Nat) (left : Expression) [Behind p.start left] :
    Lockstep p (operatorRound self power left) := by
  unfold operatorRound
  refine .bind inferInstance fun next? => ?_
  rcases next? with ⟨_ | ⟨symbol, form⟩, hnext⟩ <;> dsimp only <;> infer_instance

instance (power : Nat) : Lockstep p (readExpression self power) := by
  unfold readExpression
  infer_instance

end ScriptLint.Reading.Lockstep

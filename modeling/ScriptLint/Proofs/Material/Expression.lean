import ScriptLint.Proofs.Material.Production

/-! # Texts in expressions

Expressions keep to the material if the productions they are written over do.
-/

set_option synthInstance.maxSize 65536

namespace ScriptLint.Material.Keeps

open Reading

variable {m : Material} [hm : m.Lawful] (self : Productions) [hself : self.Keeps m]

/-! ## Literals -/

instance : Keeps m literal := by
  unfold literal
  refine .bind inferInstance fun t => .bind inferInstance fun strict => ?_
  cases hlexeme : t.1.lexeme with
  | string value =>
      have : Made m value := ⟨text_of_string t.2 hlexeme⟩
      infer_instance
  | _ => infer_instance

instance (position : Position) (seen : List Char) (flag : Char) :
    Keeps m (checkRegexpFlag position seen flag) := by
  have hfeatures : ∀ entry ∈ regexpFlags, ∀ feature ∈ entry.2, feature.1 ∈ featureNames := by
    decide
  unfold checkRegexpFlag
  split
  · infer_instance
  next feature? hfeature =>
    obtain ⟨before, after, hentries, -⟩ := List.lookup_eq_some_iff.mp hfeature
    have hmem : (flag, feature?) ∈ regexpFlags := by simp [hentries]
    split
    · infer_instance
    · cases feature? with
      | none => exact inferInstanceAs (Keeps m (pure _))
      | some feature =>
          have : Named m feature.1 := ⟨hm.feature _ (hfeatures _ hmem feature rfl)⟩
          exact inferInstanceAs (Keeps m (requireEdition feature.1 feature.2 position))

instance (position : Position) (seen flags : List Char) :
    Keeps m (checkRegexpFlags position seen flags) := by
  induction flags generalizing seen with
  | nil => exact inferInstanceAs (Keeps m (pure _))
  | cons flag flags ih =>
      unfold checkRegexpFlags
      infer_instance

instance : Keeps m regexpLiteral := by
  unfold regexpLiteral
  refine .bind inferInstance fun t => .bind inferInstance fun _ => ?_
  split <;> infer_instance

instance : Keeps m (substitution self) := by
  unfold substitution
  exact .bind inferInstance fun _ => atBrace inferInstance inferInstance

instance : Keeps m (templateLiteral self) := by
  unfold templateLiteral
  infer_instance

/-! ## Access and arguments -/

instance : Keeps m propertyAfterDot := by
  unfold propertyAfterDot
  refine .bind inferInstance fun t => ?_
  split
  next name hlexeme =>
    have : Made m name := ⟨text_of_identifier t.2 hlexeme⟩
    infer_instance
  next name hlexeme =>
    have : Made m name := ⟨text_of_privateName t.2 hlexeme⟩
    infer_instance
  next name hlexeme =>
    have : Made m name := ⟨text_of_keyword t.2 hlexeme⟩
    infer_instance
  next => infer_instance

omit hm in
instance (e : Expression) [he : Made m e] : Keeps m (checkIndex e) := by
  unfold checkIndex
  split
  next name hkind =>
    have : Made m name := ⟨text_of_shown e (by rw [hkind])⟩
    infer_instance
  next => infer_instance

instance : Keeps m (index self) := by
  unfold index
  infer_instance

instance : Keeps m spread := by
  unfold spread
  infer_instance

instance (first? : Option Expression) [Made m first?] : Keeps m (argument self first?) := by
  unfold argument
  infer_instance

instance (first? : Option Expression) (comma : Position) :
    Keeps m (argumentComma first? comma) := by
  unfold argumentComma
  infer_instance

instance : Keeps m (arguments self) := by
  unfold arguments
  infer_instance

/-! ## Names -/

instance : Keeps m asyncRole? := by
  unfold asyncRole?
  infer_instance

instance (t : Token) : Keeps m (wordRole? t) := by
  unfold wordRole?
  split
  · infer_instance
  · split <;> infer_instance

instance : Keeps m nameRole := by
  unfold nameRole
  refine .bind inferInstance fun t => .bind inferInstance fun role? => ?_
  split <;> infer_instance

instance : Keeps m variableName := by
  unfold variableName
  infer_instance

omit hm in
instance : Keeps m atOperand := by
  unfold atOperand
  infer_instance

instance : Keeps m (yieldExpression self) := by
  unfold yieldExpression
  infer_instance

instance : Keeps m (awaitExpression self) := by
  unfold awaitExpression
  infer_instance

instance : Keeps m (nameExpression self) := by
  unfold nameExpression
  refine .bind inferInstance fun role => ?_
  split <;> infer_instance

/-! ## Construction -/

instance (position : Position) : Keeps m (newTarget position) := by
  unfold newTarget
  infer_instance

instance : Keeps m (calleeAccess self) := by
  unfold calleeAccess
  refine .bind inferInstance fun t => ?_
  split <;> infer_instance

omit hm in
instance (callee : Expression) [he : Made m callee] : Keeps m (checkConstructor callee) := by
  unfold checkConstructor reportFunctionFunction
  split
  next name reference hkind =>
    have : Made m name := ⟨text_of_shown callee (by rw [hkind])⟩
    infer_instance
  next => infer_instance

instance : Keeps m (newExpression self) := by
  unfold newExpression
  infer_instance

instance : Keeps m (importExpression self) := by
  unfold importExpression
  infer_instance

instance : Keeps m functionSent := by
  unfold functionSent
  infer_instance

instance : Keeps m superWord := by
  unfold superWord
  infer_instance

/-! ## Object literals -/

instance (keys : KeyTable) (key : String) [Made m key] (use : KeyUse) (position : Position) :
    Keeps m (recordKey keys key use position) := by
  unfold recordKey
  dsimp only
  split
  · infer_instance
  · split <;> infer_instance

instance (first : Token) (modifiers : Modifiers) (key? : Option String) [hkey : Made m key?] :
    Keeps m (propertyValue self first modifiers key?) := by
  unfold propertyValue
  have hshown : Made m (if first.isIdentifier && !modifiers.generator && !modifiers.async then key?
      else none) := inferInstance
  generalize (if first.isIdentifier && !modifiers.generator && !modifiers.async then key?
    else none) = shown? at hshown
  cases shown? with
  | none => infer_instance
  | some name =>
      have : Made m name := ⟨hshown.made name rfl⟩
      infer_instance

instance (keys : KeyTable) : Keeps m (objectProperty self keys) := by
  unfold objectProperty
  refine .bind inferInstance fun first => ?_
  split
  · infer_instance
  · split
    · infer_instance
    · refine .bind inferInstance fun modifiers => .bind inferInstance fun key? => ?_
      rcases key? with ⟨_ | key, hkey⟩
      · dsimp only
        infer_instance
      · have : Made m key := ⟨hkey key rfl⟩
        dsimp only
        infer_instance

omit hm in
instance (keys : KeyTable) (comma : Position) : Keeps m (propertyComma keys comma) := by
  unfold propertyComma
  infer_instance

instance : Keeps m (objectLiteral self) := by
  have (keys : KeyTable) : Keeps m (keys.lonelySetters.forM fun s =>
      report "W078" s.position [] : Reading Unit) := .forM_of_mem fun _ _ => inferInstance
  unfold objectLiteral
  infer_instance

/-! ## Operands -/

instance : Keeps m (arrayElement self) := by
  unfold arrayElement
  infer_instance

instance : Keeps m (arrayLiteral self) := by
  unfold arrayLiteral
  infer_instance

instance {otherwise : Reading Expression} [Keeps m otherwise] :
    Keeps m (patternOr self otherwise) := by
  unfold patternOr
  infer_instance

instance : Keeps m (parenthesizedExpression self) := by
  unfold parenthesizedExpression
  infer_instance

instance : Keeps m (parenthesis self) := by
  unfold parenthesis
  infer_instance

instance : Keeps m (unaryExpression self) := by
  unfold unaryExpression
  refine .bind inferInstance fun t => .bind inferInstance fun _ => .bind inferInstance fun e => ?_
  dsimp only
  split <;> infer_instance

omit hm in
instance (operand : Expression) : Keeps m (updateOperand operand) := by
  unfold updateOperand
  split <;> infer_instance

instance : Keeps m (updateExpression self) := by
  unfold updateExpression
  infer_instance

instance : Keeps m thisWord := by
  unfold thisWord
  infer_instance

instance : Keeps m privateName := by
  unfold privateName
  infer_instance

instance : Keeps m missingOperand := by
  unfold missingOperand
  infer_instance

instance (form : OperandForm) : Keeps m (operandOf self form) := by
  cases form <;> unfold operandOf <;> dsimp only <;> infer_instance

instance : Keeps m (readOperand self) := by
  unfold readOperand
  refine .bind inferInstance fun _ => .bind inferInstance fun t => ?_
  split <;> infer_instance

/-! ## Operators -/

instance (operator : Token) [Made m operator] (left right : Expression) :
    Keeps m (checkComparison operator left right) := by
  have hremark : Keeps m ((strictEquality? operator.raw).forM fun wanted =>
      report "W116" operator.position [wanted, operator.raw] : Reading Unit) := by
    unfold strictEquality?
    split
    · exact inferInstanceAs (Keeps m (report "W116" operator.position ["===", operator.raw]))
    · exact inferInstanceAs (Keeps m (report "W116" operator.position ["!==", operator.raw]))
    · exact inferInstanceAs (Keeps m (pure _))
  unfold checkComparison
  infer_instance

omit hm in
instance (right : Expression) : Keeps m (checkInstanceOf right) := by
  unfold checkInstanceOf
  infer_instance

instance (power : Nat) (left : Expression) : Keeps m (binaryOperation self power left) := by
  unfold binaryOperation
  infer_instance

instance (left : Expression) [Made m left] : Keeps m (assignmentOperation self left) := by
  unfold assignmentOperation
  infer_instance

instance : Keeps m (optionalAccess self) := by
  unfold optionalAccess
  infer_instance

omit hm in
instance (callee : Expression) (first? : Option Expression) :
    Keeps m (checkCall callee first?) := by
  unfold checkCall reportFunctionFunction
  dsimp only
  refine .bind inferInstance fun o => ?_
  split
  · split <;> infer_instance
  · infer_instance

instance (callee : Expression) : Keeps m (callOperation self callee) := by
  unfold callOperation
  infer_instance

instance (power : Nat) (left : Expression) [Made m left] (form : OperatorForm) :
    Keeps m (operatorOf self power left form) := by
  cases form <;> unfold operatorOf <;> dsimp only <;> infer_instance

omit hm in
instance (power : Nat) : Keeps m (nextOperator? power) := by
  unfold nextOperator?
  refine .bind inferInstance fun t => .bind inferInstance fun s => ?_
  dsimp only
  split
  · infer_instance
  · split <;> infer_instance

instance (symbol : Symbol) (form : OperatorForm) (left : Expression) [Made m left] :
    Keeps m (operation self symbol form left) := by
  unfold operation
  infer_instance

instance (power : Nat) (left : Expression) [Made m left] :
    Keeps m (operatorRound self power left) := by
  unfold operatorRound
  refine .bind inferInstance fun next? => ?_
  rcases next? with ⟨_ | ⟨symbol, form⟩, hnext⟩ <;> dsimp only <;> infer_instance

instance (power : Nat) : Keeps m (readExpression self power) := by
  unfold readExpression
  infer_instance

end ScriptLint.Material.Keeps

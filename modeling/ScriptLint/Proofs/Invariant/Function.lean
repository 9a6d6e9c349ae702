import ScriptLint.Proofs.Invariant.Order

/-! # Functions and what stands in them

What functions and classes are made of upholds a lawful invariant if the productions it is written
over do.
-/

set_option synthInstance.maxSize 4096

namespace ScriptLint.Reading

variable {I : Invariant} {bs : List Bracket} {s : State}

/-- A table whose productions other than statements uphold an invariant, whatever is open around
them. -/
class Productions.UpholdsTerms (I : Invariant) (table : Productions) : Prop where
  /-- What is read is left behind. -/
  steady : table.Steady 0
  expression (bs : List Bracket) (power : Nat) : Reading.Upholds I bs (table.expression power) bs
  operand (bs : List Bracket) : Reading.Upholds I bs table.operand bs
  bindingTarget (bs : List Bracket) : Reading.Upholds I bs table.bindingTarget bs
  assignmentPattern (bs : List Bracket) : Reading.Upholds I bs table.assignmentPattern bs

/-- A table of productions that uphold an invariant, whatever is open around them. -/
class Productions.Upholds (I : Invariant) (table : Productions) : Prop
    extends Productions.UpholdsTerms I table where
  statement (bs : List Bracket) (inList : Bool) : Reading.Upholds I bs (table.statement inList) bs

attribute [instance] Productions.UpholdsTerms.expression Productions.UpholdsTerms.operand
  Productions.UpholdsTerms.bindingTarget Productions.UpholdsTerms.assignmentPattern
  Productions.Upholds.statement

namespace Upholds

section Terms

variable [hI : I.Modest] (self : Productions) [hself : self.UpholdsTerms I]

omit hI in
instance : Upholds I bs self.anyExpression bs := hself.expression bs 0

omit hI in
instance : Upholds I bs self.element bs := hself.expression bs Symbol.commaPower

/-! ## Access and arguments -/

instance : Upholds I bs propertyAfterDot bs := by
  unfold propertyAfterDot
  refine .bind inferInstance fun t => ?_
  split <;> infer_instance

instance (index : Expression) : Upholds I bs (checkIndex index) bs := by
  unfold checkIndex
  split <;> infer_instance

instance : Upholds I bs (index self) bs := by
  unfold index
  infer_instance

instance : Upholds I bs spread bs := by
  unfold spread
  infer_instance

instance (first? : Option Expression) : Upholds I bs (argument self first?) bs := by
  unfold argument
  infer_instance

instance (first? : Option Expression) (comma : Position) :
    Upholds I bs (argumentComma first? comma) bs := by
  unfold argumentComma
  infer_instance

instance : Upholds I bs (arguments self) bs := by
  unfold arguments
  infer_instance

/-! ## Literals -/

instance : Upholds I bs literal bs := by
  unfold literal
  infer_instance

instance (position : Position) (seen : List Char) (flag : Char) :
    Upholds I bs (checkRegexpFlag position seen flag) bs := by
  have hinvalid : Scope.Listed (LexicalIssue.invalidRegexp position).code grammarCodes :=
    inferInstanceAs (Scope.Listed "E016" grammarCodes)
  unfold checkRegexpFlag
  split <;> infer_instance

instance (position : Position) (seen flags : List Char) :
    Upholds I bs (checkRegexpFlags position seen flags) bs := by
  induction flags generalizing seen with
  | nil => exact inferInstanceAs (Upholds I bs (Pure.pure ()) bs)
  | cons flag flags ih =>
      unfold checkRegexpFlags
      infer_instance

instance : Upholds I bs regexpLiteral bs := by
  unfold regexpLiteral
  refine .bind inferInstance fun t => .bind inferInstance fun _ => ?_
  dsimp only
  split <;> infer_instance

/-- What follows the brace that ends a substitution is read again. -/
instance : Upholds I bs (substitution self) bs where
  leads {s} hs := by
    have hexpression : Upholds I bs (allowingIn self.anyExpression) bs := inferInstance
    have hpiece : Upholds I bs (do
      let piece ← token
      advance
      pure (piece.lexeme matches .template .middle _)) bs := inferInstance
    have hmissing : Upholds I bs (do expectPunctuator "\x7d"; pure false) bs := inferInstance
    refine .bind fun _ s₁ hrun => ?_
    have hs₁ := hexpression.leads hs _ s₁ hrun
    refine .bind ?_
    rintro _ _ ⟨⟩
    refine .ite (fun hbrace => .bind fun _ s₂ hrun => ?_) fun _ => hmissing.leads hs₁
    exact hpiece.leads (hI.rescanTemplate hbrace hs₁ _ s₂ hrun)

instance : Upholds I bs (templateLiteral self) bs := by
  unfold templateLiteral
  infer_instance

/-! ## Meta properties and construction -/

instance (position : Position) : Upholds I bs (newTarget position) bs := by
  unfold newTarget
  infer_instance

instance : Upholds I bs (calleeAccess self) bs := by
  unfold calleeAccess
  refine .bind inferInstance fun t => ?_
  split <;> infer_instance

instance (position : Position) : Upholds I bs (reportFunctionFunction position) bs := by
  unfold reportFunctionFunction
  infer_instance

instance (callee : Expression) : Upholds I bs (checkConstructor callee) bs := by
  unfold checkConstructor
  split <;> infer_instance

instance : Upholds I bs (newExpression self) bs := by
  unfold newExpression
  infer_instance

instance : Upholds I bs (importExpression self) bs := by
  unfold importExpression
  infer_instance

instance : Upholds I bs functionSent bs := by
  unfold functionSent
  infer_instance

instance : Upholds I bs superWord bs := by
  unfold superWord
  infer_instance

/-! ## Patterns -/

instance : Upholds I bs (patternDefault self) bs := by
  unfold patternDefault
  infer_instance

instance : Upholds I bs (computedKey self) bs := by
  unfold computedKey
  infer_instance

instance (s : PatternScan) : Upholds I bs (arrayBindingElement self s) bs := by
  unfold arrayBindingElement
  infer_instance

instance : Upholds I bs (arrayBinding self) bs := by
  unfold arrayBinding
  infer_instance

instance : Upholds I bs (objectBindingProperty self) bs := by
  unfold objectBindingProperty
  infer_instance

instance (s : PatternScan) : Upholds I bs (objectBindingElement self s) bs := by
  unfold objectBindingElement
  refine .bind inferInstance fun names? => ?_
  split <;> infer_instance

instance : Upholds I bs (objectBinding self) bs := by
  unfold objectBinding
  infer_instance

instance : Upholds I bs (readBindingTarget self) bs := by
  unfold readBindingTarget
  infer_instance

instance : Upholds I bs (assignmentElement self) bs := by
  unfold assignmentElement
  infer_instance

/-- A name that is a property by itself is recorded right behind it. -/
instance : Upholds I bs (assignmentProperty self) bs where
  leads {s} hs := by
    have hcomputed : Upholds I bs (do
      computedKey self
      expectPunctuator ":"
      assignmentElement self) bs := inferInstance
    have hnoName : Upholds I bs (reportNoName s.lookahead) bs := inferInstance
    have helement : Upholds I bs (do
      advance
      advance
      assignmentElement self) bs := inferInstance
    have hdefault : Upholds I bs (patternDefault self) bs := inferInstance
    refine .bind ?_
    rintro _ _ ⟨⟩
    refine .ite (fun _ => hcomputed.leads hs) fun _ => ?_
    refine .ite (fun _ => hnoName.leads hs) fun _ => .bind ?_
    rintro _ _ ⟨⟩
    refine .ite (fun _ => helement.leads hs) fun _ => ?_
    refine .ite (fun _ => hnoName.leads hs) fun hname => ?_
    have hend := Token.isEnd_eq_false_of_isIdentifier (by simpa using hname)
    refine .bind fun _ s₁ hrun => .bind fun _ s₂ hrun' => ?_
    obtain ⟨hs₁, hoffers⟩ := hI.advance_offers hs hend _ s₁ hrun
    exact hdefault.leads (hI.record _ _ hs₁ hoffers _ s₂ hrun')

instance (inArray : Bool) (s : PatternScan) : Upholds I bs (assignmentPart self inArray s) bs := by
  unfold assignmentPart
  infer_instance

instance : Upholds I bs (readAssignmentPattern self) bs := by
  unfold readAssignmentPattern
  infer_instance

instance : Upholds I bs (assignmentPatternExpression self) bs := by
  unfold assignmentPatternExpression
  infer_instance

/-! ## What functions begin with -/

instance (rest : Bool) : Upholds I bs (parameterDefault self rest) bs := by
  unfold parameterDefault
  infer_instance

instance (ps : Parameters) : Upholds I bs (parameter self ps) bs := by
  unfold parameter
  infer_instance

instance (ps : Parameters) (comma : Position) : Upholds I bs (parameterComma ps comma) bs := by
  unfold parameterComma
  infer_instance

instance : Upholds I bs (parameters self) bs := by
  unfold parameters
  infer_instance

instance : Upholds I bs (arrowParameters self) bs := by
  unfold arrowParameters
  infer_instance

instance : Upholds I bs generatorStar bs := by
  unfold generatorStar
  infer_instance

instance (async : Bool) (position : Position) : Upholds I bs (functionWords async position) bs := by
  unfold functionWords
  infer_instance

/-! ## Properties -/

instance : Upholds I bs modifierWord bs := by
  unfold modifierWord
  refine .bind inferInstance fun t => ?_
  split <;> infer_instance

instance : Upholds I bs modifiers bs := by
  unfold modifiers
  infer_instance

instance : Upholds I bs (propertyKey self) bs := by
  unfold propertyKey
  refine .bind inferInstance fun t => ?_
  split <;> infer_instance

instance (anonymous : Bool) : Upholds I bs (className anonymous) bs := by
  unfold className
  infer_instance

end Terms

section Functions

variable [hI : I.Lawful] (self : Productions) [hself : self.Upholds I]

/-! ## Statement lists -/

instance (top : Bool) (scan : ListScan) : Upholds I bs (listRound self top scan) bs := by
  unfold listRound
  infer_instance

instance (top : Bool) : Upholds I bs (statementList self top) bs := by
  unfold statementList
  infer_instance

instance (simpleParameters? : Option Bool) (position : Position) :
    Upholds I bs (applyStrictDirective simpleParameters? position) bs := by
  unfold applyStrictDirective
  infer_instance

instance (simpleParameters? : Option Bool) :
    Upholds I bs (directiveRound simpleParameters?) bs := by
  unfold directiveRound
  refine .bind inferInstance fun t => ?_
  split <;> infer_instance

instance (simpleParameters? : Option Bool) : Upholds I bs (directives simpleParameters?) bs := by
  unfold directives
  infer_instance

/-! ## Functions -/

instance (ps : Parameters) (method : Bool) : Upholds I bs (declareParameters ps method) bs := by
  unfold declareParameters
  infer_instance

instance (simple : Bool) : Upholds I bs (functionBody self simple) bs := by
  unfold functionBody
  infer_instance

instance (facts : Scope.FunctionFacts) (position : Position) (ownName? : Option BoundName) :
    Upholds I bs (functionRest self facts position ownName?) bs := by
  unfold functionRest
  infer_instance

instance (position : Position) : Upholds I bs (reportMisplacedFunction position) bs := by
  unfold reportMisplacedFunction
  infer_instance

instance (bound : BoundName) (position : Position) :
    Upholds I bs (declareFunction bound position) bs := by
  unfold declareFunction
  infer_instance

instance (async anonymous : Bool) : Upholds I bs (functionDeclaration self async anonymous) bs := by
  unfold functionDeclaration
  infer_instance

instance (async : Bool) : Upholds I bs (arrowFunction self async) bs := by
  unfold arrowFunction
  infer_instance

instance (position : Position) : Upholds I bs (staticBlock self position) bs := by
  unfold staticBlock
  infer_instance

instance (key? : Option String) (position : Position) :
    Upholds I bs (fieldValue self key? position) bs := by
  unfold fieldValue
  infer_instance

end Functions

end Upholds

/-- A table over which all that enters a function upholds an invariant, whatever is open around it. -/
class Productions.UpholdsFunctions (I : Invariant) (table : Productions) : Prop where
  functionRest (bs : List Bracket) (facts : Scope.FunctionFacts) (position : Position)
    (ownName? : Option BoundName) :
    Reading.Upholds I bs (functionRest table facts position ownName?) bs
  arrowFunction (bs : List Bracket) (async : Bool) :
    Reading.Upholds I bs (arrowFunction table async) bs
  staticBlock (bs : List Bracket) (position : Position) :
    Reading.Upholds I bs (staticBlock table position) bs
  fieldValue (bs : List Bracket) (key? : Option String) (position : Position) :
    Reading.Upholds I bs (fieldValue table key? position) bs

attribute [instance] Productions.UpholdsFunctions.functionRest
  Productions.UpholdsFunctions.arrowFunction Productions.UpholdsFunctions.staticBlock
  Productions.UpholdsFunctions.fieldValue

instance [I.Lawful] (self : Productions) [self.Upholds I] : self.UpholdsFunctions I where
  functionRest _ _ _ _ := inferInstance
  arrowFunction _ _ := inferInstance
  staticBlock _ _ := inferInstance
  fieldValue _ _ _ := inferInstance

namespace Upholds

section Members

variable [hI : I.Modest] (self : Productions) [hself : self.UpholdsTerms I]
  [hfunctions : self.UpholdsFunctions I]

instance (async : Bool) : Upholds I bs (functionExpression self async) bs := by
  unfold functionExpression
  infer_instance

instance (key? : Option String) (ms : Modifiers) (constructor : Bool) :
    Upholds I bs (method self key? ms constructor) bs := by
  unfold method
  refine .bind inferInstance fun t => .bind inferInstance fun ps => ?_
  dsimp only
  split <;> infer_instance

instance (isStatic : Bool) (position : Position) :
    Upholds I bs (methodOrField self isStatic position) bs := by
  unfold methodOrField
  infer_instance

instance : Upholds I bs (classMember self) bs := by
  unfold classMember
  infer_instance

instance : Upholds I bs (classRound self) bs := by
  unfold classRound
  infer_instance

end Members

section Classes

variable [hI : I.Lawful] (self : Productions) [hself : self.Upholds I]

instance (bound? : Option BoundName) : Upholds I bs (declareClass bound?) bs := by
  unfold declareClass
  infer_instance

instance (bound? : Option BoundName) : Upholds I bs (classRest self bound?) bs := by
  unfold classRest
  infer_instance

instance (declaration anonymous : Bool) :
    Upholds I bs (readClass self declaration anonymous) bs := by
  unfold readClass
  infer_instance

end Classes

end Upholds

/-- A table over which classes as operands uphold an invariant, whatever is open around them. -/
class Productions.UpholdsClasses (I : Invariant) (table : Productions) : Prop where
  readClass (bs : List Bracket) (anonymous : Bool) :
    Reading.Upholds I bs (readClass table false anonymous) bs

attribute [instance] Productions.UpholdsClasses.readClass

instance [I.Lawful] (self : Productions) [self.Upholds I] : self.UpholdsClasses I where
  readClass _ _ := inferInstance

end ScriptLint.Reading

import ScriptLint.Proofs.Nesting.Taken

/-! # Nesting in functions and what stands in them

What functions and classes are made of takes brackets as they nest if the productions that it is
written over do.
-/

set_option synthInstance.maxSize 4096

namespace ScriptLint.Reading

/-- A table of productions that take brackets as they nest. A statement stands inside a scope, and
an assigned pattern begins with a bracket. -/
class Productions.Nests (table : Productions) : Prop where
  expression (n : Nat) (g : List Closer) (power : Nat) :
    Shifts n g .unknown (table.expression power) n g
  operand (n : Nat) (g : List Closer) : Shifts n g .unknown table.operand n g
  statement (n : Nat) (g : List Closer) (inList : Bool) :
    Shifts (n + 1) g .unknown (table.statement inList) (n + 1) g
  bindingTarget (n : Nat) (g : List Closer) : Shifts n g .unknown table.bindingTarget n g
  assignmentPattern (n : Nat) (g : List Closer) (t : Token) :
    Shifts n g (.turns t .opens) table.assignmentPattern n g

variable {n : Nat} {g : List Closer} {ahead : Ahead} {t : Token}

/-! ## Names and checks -/

namespace Keeps

instance : Keeps inGenerator := by
  unfold inGenerator
  infer_instance

instance : Keeps inAsync := by
  unfold inAsync
  infer_instance

instance (name : String) : Keeps (isReserved name) := by
  unfold isReserved
  refine .bind inferInstance fun o => ?_
  split <;> infer_instance

instance (kind : Scope.BindingKind) (names : List BoundName) : Keeps (declareAll kind names) := by
  unfold declareAll
  infer_instance

instance (name : String) (position : Position) (access : Scope.Access) :
    Keeps (addReference name position access) := by
  unfold addReference
  infer_instance

instance (index : Expression) : Keeps (checkIndex index) := by
  unfold checkIndex
  split <;> infer_instance

instance (first? : Option Expression) (comma : Position) : Keeps (argumentComma first? comma) := by
  unfold argumentComma
  infer_instance

instance (name : String) (position : Position) : Keeps (reportReserved name position) := by
  unfold reportReserved
  infer_instance

instance (position : Position) : Keeps (reportExtraComma position) := by
  unfold reportExtraComma
  infer_instance

instance (t : Token) : Keeps (reportNoName t) := by
  unfold reportNoName
  infer_instance

instance (shown : String) (position : Position) : Keeps (reportUnexpected shown position) := by
  unfold reportUnexpected
  infer_instance

instance (position : Position) (seen : List Char) (flag : Char) :
    Keeps (checkRegexpFlag position seen flag) := by
  unfold checkRegexpFlag
  split
  · infer_instance
  · split <;> infer_instance

instance (position : Position) (seen flags : List Char) :
    Keeps (checkRegexpFlags position seen flags) := by
  induction flags generalizing seen with
  | nil => exact inferInstanceAs (Keeps (Pure.pure _))
  | cons flag flags ih =>
      unfold checkRegexpFlags
      infer_instance

instance {σ : Type} (state : σ) (comma : Position) : Keeps (noTrailingCheck state comma) := by
  unfold noTrailingCheck
  infer_instance

instance (simpleParameters? : Option Bool) (position : Position) :
    Keeps (applyStrictDirective simpleParameters? position) := by
  unfold applyStrictDirective
  infer_instance

instance (ps : Parameters) (comma : Position) : Keeps (parameterComma ps comma) := by
  unfold parameterComma
  infer_instance

instance (ps : Parameters) (method : Bool) : Keeps (declareParameters ps method) := by
  unfold declareParameters
  infer_instance

instance (position : Position) : Keeps (reportMisplacedFunction position) := by
  unfold reportMisplacedFunction
  infer_instance

instance (bound : BoundName) (position : Position) : Keeps (declareFunction bound position) := by
  unfold declareFunction
  infer_instance

instance (bound? : Option BoundName) : Keeps (declareClass bound?) := by
  unfold declareClass
  infer_instance

instance (target : Expression) (access : Scope.Access) : Keeps (assignmentTarget target access) := by
  unfold assignmentTarget
  split
  · infer_instance
  · infer_instance
  · split <;> infer_instance
  · infer_instance

end Keeps

namespace Shifts

instance : Shifts n g ahead bindingName n g := .forget <| by
  unfold bindingName
  infer_instance

/-! ## Productions -/

variable (self : Productions) [hself : self.Nests]

instance (power : Nat) : Shifts n g ahead (self.expression power) n g :=
  .forget (hself.expression n g power)

instance : Shifts n g ahead self.anyExpression n g := .forget (hself.expression n g 0)

instance : Shifts n g ahead self.element n g := .forget (hself.expression n g _)

instance : Shifts n g ahead self.operand n g := .forget (hself.operand n g)

instance (inList : Bool) : Shifts (n + 1) g ahead (self.statement inList) (n + 1) g :=
  .forget (hself.statement n g inList)

instance : Shifts n g ahead self.bindingTarget n g := .forget (hself.bindingTarget n g)

instance : Shifts n g (.turns t .opens) self.assignmentPattern n g :=
  hself.assignmentPattern n g t

/-! ## Access and arguments -/

instance : Shifts n g ahead propertyAfterDot n g := .forget <| by
  unfold propertyAfterDot
  refine .of_seen fun t => looking ?_
  split
  case h_4 => infer_instance
  all_goals
    next hlexeme => exact .of_turn (k := .flat) (by rw [Token.turn, hlexeme]) inferInstance

instance : Shifts n (.bracket :: g) ahead (index self) n g := .forget <| by
  unfold index
  infer_instance

instance : Shifts n g ahead spread n g := .forget <| by
  unfold spread
  infer_instance

instance (first? : Option Expression) : Shifts n g ahead (argument self first?) n g := .forget <| by
  unfold argument
  infer_instance

instance : Shifts n (.bracket :: g) ahead (arguments self) n g := .forget <| by
  unfold arguments
  infer_instance

/-! ## Literals -/

instance : Shifts n g (.turns t .flat) literal n g := by
  unfold literal
  infer_instance

instance : Shifts n g (.turns t .flat) regexpLiteral n g := by
  unfold regexpLiteral
  refine looking_turns (.advancing fun _ => ?_)
  dsimp only
  split <;> infer_instance

/-! ## Meta properties and construction -/

instance (position : Position) : Shifts n g (.turns t .flat) (newTarget position) n g := by
  unfold newTarget
  infer_instance

instance : Shifts n g (.turns t .flat) (importExpression self) n g := by
  unfold importExpression
  infer_instance

instance : Shifts n g (.both t .flat .flat) functionSent n g := by
  unfold functionSent
  infer_instance

instance : Shifts n g (.turns t .flat) superWord n g := by
  unfold superWord
  infer_instance

/-! ## Patterns -/

instance : Shifts n g ahead (patternDefault self) n g := .forget <| by
  unfold patternDefault
  infer_instance

instance : Shifts n g (.turns t .opens) (computedKey self) n g := by
  unfold computedKey
  infer_instance

instance (s : PatternScan) : Shifts n g ahead (arrayBindingElement self s) n g := .forget <| by
  unfold arrayBindingElement
  infer_instance

instance : Shifts n g (.turns t .opens) (arrayBinding self) n g := by
  unfold arrayBinding
  infer_instance

theorem turn_of_isPropertyKey (h : isPropertyKey t) : t.turn = .flat := by
  unfold isPropertyKey at h
  unfold Token.turn
  split at h
  case h_6 => cases h
  all_goals
    next hlexeme => rw [hlexeme]

instance : Tells (isPropertyKey t = true) t .flat := ⟨turn_of_isPropertyKey⟩

instance : Shifts n g ahead (objectBindingProperty self) n g := .forget <| by
  unfold objectBindingProperty
  infer_instance

instance (s : PatternScan) : Shifts n g ahead (objectBindingElement self s) n g := .forget <| by
  unfold objectBindingElement
  refine .bind (inferInstance : Shifts n g .unknown (objectBindingProperty self) n g) fun names? => ?_
  cases names? <;> infer_instance

instance : Shifts n g (.turns t .opens) (objectBinding self) n g := by
  unfold objectBinding
  infer_instance

instance : Shifts n g ahead (readBindingTarget self) n g := .forget <| by
  unfold readBindingTarget
  infer_instance

instance : Shifts n g ahead (assignmentElement self) n g := .forget <| by
  unfold assignmentElement
  infer_instance

instance : Shifts n g ahead (assignmentProperty self) n g := .forget <| by
  unfold assignmentProperty
  infer_instance

instance (inArray : Bool) (s : PatternScan) :
    Shifts n g ahead (assignmentPart self inArray s) n g := .forget <| by
  unfold assignmentPart
  infer_instance

instance : Shifts n g (.turns t .opens) (readAssignmentPattern self) n g := by
  unfold readAssignmentPattern
  have hcloser : Spells (if t.isPunctuator "[" then "]" else "\x7d") .closes := by
    split <;> infer_instance
  infer_instance

instance : Shifts n g (.turns t .opens) (assignmentPatternExpression self) n g := by
  unfold assignmentPatternExpression
  infer_instance

/-! ## Statement lists -/

variable [self.Takes]

/-- A statement that a list takes has taken a token, so the list need not give one up. -/
theorem of_statement {α : Type} (hend : t.isEnd = false) (inList : Bool) (next : Statement → α) :
    Shifts (n + 1) g (.seen t) (do
      let statement ← self.statement inList
      let after ← token
      if after.position.offset == t.position.offset && !after.isEnd then advance
      pure (next statement)) (n + 1) g where
  leads {before start s} hs hahead := by
    obtain rfl : s.lookahead = t := hahead
    let rest (statement : Statement) : Reading α := do
      let after ← token
      if after.position.offset == s.lookahead.position.offset && !after.isEnd then advance
      pure (next statement)
    have hrest (statement : Statement) : Steady 0 (rest statement) := inferInstance
    have hstatement : Shifts (n + 1) g .unknown (self.statement inList) (n + 1) g := inferInstance
    have htakes : Takes (self.statement inList) := inferInstance
    refine .bind fun statement s' hrun a s'' hrun' hquiet => ?_
    have hquiet' : s'.session.sink.Quiet := by
      refine (hrest statement).stepwise.quiet ?_
      rwa [show (rest statement).run.run s' = _ from hrun']
    have hquiet₀ : s.session.sink.Quiet := by
      refine htakes.steady.stepwise.quiet ?_
      rwa [hrun]
    have hready := (hs hquiet₀).ready
    have hsince := hstatement.leads hs trivial statement s' hrun hquiet'
    have hreaches := htakes.steady.leads hready statement s' hrun
    have htaken := htakes.leads hready statement s' hrun hquiet'
    have hpos := hready.left_pos hend
    have hmoved : (s'.lookahead.position.offset == s.lookahead.position.offset) = false := by
      have hsize := hreaches.size
      unfold State.left at htaken hpos
      rw [beq_eq_false_iff_ne]
      omega
    have hpure : (rest statement).run.run s' = (.ok (next statement), s') := by
      change (if s'.lookahead.position.offset == s.lookahead.position.offset &&
        !s'.lookahead.isEnd then advance >>= fun _ => Pure.pure (next statement)
        else Pure.pure (next statement) : Reading α).run.run s' = _
      rw [hmoved]
      rfl
    obtain ⟨-, rfl⟩ := Prod.mk.inj (hpure.symm.trans hrun')
    exact hsince

variable [self.Steady 0]

instance (scan : ListScan) : Shifts (n + 1) g ahead (listRound self false scan) (n + 1) g :=
  .forget <| by
  unfold listRound
  refine .of_seen fun t => looking ?_
  split
  · infer_instance
  next hends =>
    have hend : t.isEnd = false := by
      cases h : t.isEnd <;> simp [h] at hends ⊢
    split
    · exact .of_speaks inferInstance
    · exact of_statement self hend true fun statement => _

instance : Shifts (n + 1) g ahead (statementList self false) (n + 1) g := .forget <| by
  unfold statementList
  infer_instance

instance (simpleParameters? : Option Bool) :
    Shifts n g ahead (directiveRound simpleParameters?) n g := .forget <| by
  unfold directiveRound
  refine .of_seen fun t => looking ?_
  split
  next hlexeme =>
    exact .of_turn (k := .flat) (by rw [Token.turn, hlexeme]) inferInstance
  next => infer_instance

instance (simpleParameters? : Option Bool) :
    Shifts n g ahead (directives simpleParameters?) n g := .forget <| by
  unfold directives
  infer_instance

/-! ## Functions -/

instance (rest : Bool) : Shifts n g ahead (parameterDefault self rest) n g := .forget <| by
  unfold parameterDefault
  infer_instance

instance (ps : Parameters) : Shifts n g ahead (parameter self ps) n g := .forget <| by
  unfold parameter
  infer_instance

instance : Shifts n g ahead (parameters self) n g := .forget <| by
  unfold parameters
  infer_instance

instance (simple : Bool) : Shifts (n + 1) g ahead (functionBody self simple) (n + 1) g :=
  .forget <| by
  unfold functionBody
  refine .of_seen fun t => looking ?_
  split
  next hbrace =>
    exact .of_turn (k := .opens) (Token.turn_of_isPunctuator hbrace) inferInstance
  next hbrace =>
    rw [← bind_pure (expectPunctuator _)]
    exact of_missing hbrace

instance (facts : Scope.FunctionFacts) (position : Position) (ownName? : Option BoundName) :
    Shifts n g ahead (functionRest self facts position ownName?) n g := .forget <| by
  unfold functionRest
  infer_instance

instance : Shifts n g ahead generatorStar n g := .forget <| by
  unfold generatorStar
  infer_instance

instance (position : Position) : Shifts n g (.turns t .flat) (functionWords false position) n g := by
  unfold functionWords
  infer_instance

instance (position : Position) :
    Shifts n g (.both t .flat .flat) (functionWords true position) n g := by
  unfold functionWords
  infer_instance

instance (anonymous : Bool) :
    Shifts n g (.turns t .flat) (functionDeclaration self false anonymous) n g := by
  unfold functionDeclaration
  infer_instance

instance (anonymous : Bool) :
    Shifts n g (.both t .flat .flat) (functionDeclaration self true anonymous) n g := by
  unfold functionDeclaration
  infer_instance

instance : Shifts n g (.turns t .flat) (functionExpression self false) n g := by
  unfold functionExpression
  infer_instance

instance : Shifts n g (.both t .flat .flat) (functionExpression self true) n g := by
  unfold functionExpression
  infer_instance

instance : Shifts n g ahead (arrowParameters self) n g := .forget <| by
  unfold arrowParameters
  infer_instance

instance : Shifts n g ahead (arrowFunction self false) n g := .forget <| by
  unfold arrowFunction
  infer_instance

instance : Shifts n g (.turns t .flat) (arrowFunction self true) n g := by
  unfold arrowFunction
  infer_instance

/-! ## Properties and classes -/

theorem turn_of_modifierOf? {m : Modifiers} (h : modifierOf? t = some m) : t.turn = .flat := by
  unfold modifierOf? at h
  split at h
  · cases h
  split at h
  next hname => exact Token.turn_of_isName hname
  split at h
  next hname => exact Token.turn_of_isName hname
  split at h
  next hname => exact Token.turn_of_isName hname
  · cases h

instance : Shifts n g ahead modifierWord n g := .forget <| by
  unfold modifierWord
  refine .of_seen fun t => looking ?_
  split
  · infer_instance
  next hmodifier => exact .of_turn (turn_of_modifierOf? hmodifier) inferInstance

instance : Shifts n g ahead modifiers n g := .forget <| by
  unfold modifiers
  infer_instance

instance : Shifts n g ahead (propertyKey self) n g := .forget <| by
  unfold propertyKey
  refine .of_seen fun t => looking ?_
  split
  case h_7 => infer_instance
  all_goals
    next hlexeme => exact .of_turn (k := .flat) (by rw [Token.turn, hlexeme]) inferInstance

instance (key? : Option String) (m : Modifiers) (constructor : Bool) :
    Shifts n g ahead (method self key? m constructor) n g := .forget <| by
  unfold method
  refine .of_seen fun t => looking (.bind inferInstance fun ps => ?_)
  dsimp only
  split <;> infer_instance

instance (position : Position) :
    Shifts n g (.turns t .opens) (staticBlock self position) n g := by
  unfold staticBlock
  infer_instance

instance (key? : Option String) (position : Position) :
    Shifts n g ahead (fieldValue self key? position) n g := .forget <| by
  unfold fieldValue
  infer_instance

instance (isStatic : Bool) (position : Position) :
    Shifts n g ahead (methodOrField self isStatic position) n g := .forget <| by
  unfold methodOrField
  infer_instance

instance : Shifts n g ahead (classMember self) n g := .forget <| by
  unfold classMember
  infer_instance

instance : Shifts n g ahead (classRound self) n g := .forget <| by
  unfold classRound
  infer_instance

instance (anonymous : Bool) : Shifts n g ahead (className anonymous) n g := .forget <| by
  unfold className
  infer_instance

instance (bound? : Option BoundName) :
    Shifts n g ahead (classRest self bound?) n (.bracket :: g) := .forget <| by
  unfold classRest
  infer_instance

instance (declaration anonymous : Bool) :
    Shifts n g (.turns t .flat) (readClass self declaration anonymous) n g := by
  unfold readClass
  infer_instance

end Shifts

end ScriptLint.Reading

import ScriptLint.Proofs.Material.Step

/-! # Texts in productions

What reading gives, and the productions up to functions and classes.
-/

/-! ## Texts in what reading gives

The summaries of names, patterns, parameters and expressions carry names and values of tokens, for
reports that are made later on.
-/

set_option synthInstance.maxSize 65536

namespace ScriptLint

open Reading

/-! ## Summaries -/

instance : HasTexts BoundName := ⟨fun m b => m.name b.name⟩

instance : HasTexts BindingTarget := ⟨fun m target => HasTexts.Made m target.names⟩

instance : HasTexts Declarations := ⟨fun m ds => HasTexts.Made m ds.names⟩

instance : HasTexts Parameter := ⟨fun m p => HasTexts.Made m p.bound⟩

instance : HasTexts Parameters := ⟨fun m ps => HasTexts.Made m ps.names⟩

instance : HasTexts Reading.PatternScan := ⟨fun m s => HasTexts.Made m s.names⟩

instance : HasTexts ExportItem :=
  ⟨fun m item => m.text item.variableName ∧ m.text item.exportedName⟩

/-- The text of an expression that a later report may show. -/
@[reducible]
def Reading.ExpressionKind.shown? : ExpressionKind → Option String
  | .identifier name _ => some name
  | .string value => some value
  | .assignment target? => target?.map (·.1)
  | _ => none

instance : HasTexts ExpressionKind := ⟨fun m kind => HasTexts.Made m kind.shown?⟩

instance : HasTexts Expression := ⟨fun m e => HasTexts.Made m e.kind⟩

instance : HasTexts LoopHead where
  Made m
    | .empty => True
    | .declarations _ ds => HasTexts.Made m ds
    | .expression e => HasTexts.Made m e

namespace Material

variable {m : Material}

instance (name : String) (position : Position) [h : Named m name] :
    Made m (⟨name, position⟩ : BoundName) := ⟨h.named⟩

instance (b : BoundName) [h : Made m b] : Named m b.name := ⟨h.made⟩

instance (names : List BoundName) (plain : Bool) [h : Made m names] :
    Made m (⟨names, plain⟩ : BindingTarget) := ⟨h.made⟩

instance (target : BindingTarget) [h : Made m target] : Made m target.names := ⟨h.made⟩

instance (names : List BoundName) (count : Nat) (initialized : Bool) [h : Made m names] :
    Made m (⟨names, count, initialized⟩ : Declarations) := ⟨h.made⟩

instance (ds : Declarations) [h : Made m ds] : Made m ds.names := ⟨h.made⟩

instance (bound : BoundName) (defaultEnd? : Option Nat) [h : Made m bound] :
    Made m (⟨bound, defaultEnd?⟩ : Parameter) := ⟨h.made⟩

instance (p : Parameter) [h : Made m p] : Made m p.bound := ⟨h.made⟩

instance (names : List Parameter) (count : Nat) (simple seenDefault afterRest : Bool)
    [h : Made m names] : Made m (⟨names, count, simple, seenDefault, afterRest⟩ : Parameters) :=
  ⟨h.made⟩

instance (ps : Parameters) [h : Made m ps] : Made m ps.names := ⟨h.made⟩

instance (names : List BoundName) (isEmpty afterRest : Bool) [h : Made m names] :
    Made m (⟨names, isEmpty, afterRest⟩ : Reading.PatternScan) := ⟨h.made⟩

instance (s : Reading.PatternScan) [h : Made m s] : Made m s.names := ⟨h.made⟩

instance (variableName : String) (position : Position) (exportedName : String)
    [hvariable : Made m variableName] [hexported : Made m exportedName] :
    Made m (⟨variableName, position, exportedName⟩ : ExportItem) :=
  ⟨hvariable.made, hexported.made⟩

instance (item : ExportItem) [h : Made m item] : Made m item.variableName := ⟨h.made.1⟩

instance (item : ExportItem) [h : Made m item] : Made m item.exportedName := ⟨h.made.2⟩

/-! ### Expressions -/

/-- Most kinds of expressions show nothing. -/
instance (kind : ExpressionKind) [h : Same kind.shown? none] : Made m kind := by
  constructor
  change HasTexts.Made m kind.shown?
  rw [h.eq]
  exact nofun

instance (name : String) (reference : Nat) [h : Made m name] :
    Made m (ExpressionKind.identifier name reference) :=
  ⟨(inferInstance : Made m (some name)).made⟩

instance (value : String) [h : Made m value] : Made m (ExpressionKind.string value) :=
  ⟨(inferInstance : Made m (some value)).made⟩

instance (target? : Option (String × Nat)) [h : Made m target?] :
    Made m (ExpressionKind.assignment target?) := by
  refine ⟨fun name hname => ?_⟩
  obtain ⟨target, htarget, rfl⟩ := Option.map_eq_some_iff.mp hname
  exact (h.made target htarget).1

instance (kind : ExpressionKind) (position : Position) (parenthesized : Bool)
    [h : Made m kind] : Made m (⟨kind, position, parenthesized⟩ : Expression) := ⟨h.made⟩

section

variable (e : Expression) [he : Made m e]

instance : Made m e.kind := ⟨he.made⟩

include he

theorem text_of_shown {text : String} (htext : e.kind.shown? = some text) : m.text text :=
  he.made text htext

instance : Made m e.plainName? := by
  constructor
  unfold Expression.plainName?
  split
  next name reference hkind =>
    rintro _ ⟨⟩
    exact ⟨text_of_shown e (by rw [hkind]), trivial⟩
  next => exact nofun

end

instance : Made m LoopHead.empty := ⟨trivial⟩

instance (kind : Scope.BindingKind) (ds : Declarations) [h : Made m ds] :
    Made m (LoopHead.declarations kind ds) := ⟨h.made⟩

instance (e : Expression) [h : Made m e] : Made m (LoopHead.expression e) := ⟨h.made⟩

namespace Keeps

/-! ## Expected tokens -/

variable [hm : m.Lawful]

instance {α : Type} [HasTexts α] : Keeps m (earlyEnd : Reading α) := by
  unfold earlyEnd
  infer_instance

instance (shown : String) [Made m shown] (position : Position) :
    Keeps m (reportUnexpected shown position) := by
  unfold reportUnexpected
  infer_instance

instance (wanted : String) [Named m wanted] (t : Token) [Made m t] :
    Keeps m (reportInstead wanted t) := by
  unfold reportInstead
  infer_instance

instance (t : Token) [Made m t] : Keeps m (reportNoName t) := by
  unfold reportNoName
  infer_instance

instance (name : String) [Made m name] (position : Position) :
    Keeps m (reportReserved name position) := by
  unfold reportReserved
  infer_instance

omit hm in
instance (position : Position) : Keeps m (reportExtraComma position) := by
  unfold reportExtraComma
  infer_instance

instance (wanted : String) [Named m wanted] : Keeps m (unexpectedInstead wanted) := by
  unfold unexpectedInstead
  infer_instance

instance (p : String) [Named m p] : Keeps m (expectPunctuator p) := by
  unfold expectPunctuator
  infer_instance

instance (word : String) [Named m word] : Keeps m (expectKeyword word) := by
  unfold expectKeyword
  infer_instance

instance (word : String) [Named m word] : Keeps m (expectWord word) := by
  unfold expectWord
  infer_instance

instance (p : String) : Keeps m (acceptPunctuator p) := by
  unfold acceptPunctuator
  infer_instance

instance (afterDo : Bool) : Keeps m (endStatement afterDo) := by
  unfold endStatement
  infer_instance

instance : Keeps m semicolon := by
  unfold semicolon
  infer_instance

/-! ## Names -/

omit hm in
instance : Keeps m inGenerator := by
  unfold inGenerator
  infer_instance

omit hm in
instance : Keeps m inAsync := by
  unfold inAsync
  infer_instance

omit hm in
instance (name : String) : Keeps m (isReserved name) := by
  unfold isReserved
  refine .bind inferInstance fun o => ?_
  split <;> infer_instance

instance : Keeps m bindingName := by
  unfold bindingName
  refine .bind inferInstance fun t => ?_
  split
  next hname =>
    have : Named m t.1.name := ⟨hm.bound t.2 hname⟩
    infer_instance
  next => infer_instance

omit hm in
instance (kind : Scope.BindingKind) (names : List BoundName) [Made m names] :
    Keeps m (declareAll kind names) := by
  unfold declareAll
  infer_instance

omit hm in
instance (name : String) [Made m name] (position : Position) (access : Scope.Access) :
    Keeps m (addReference name position access) := by
  unfold addReference
  infer_instance

end Keeps

end Material

/-! ## Productions -/

/-- The productions of a table keep to the material. -/
class Reading.Productions.Keeps (m : Material) (table : Productions) : Prop where
  expression (power : Nat) : m.Keeps (table.expression power)
  operand : m.Keeps table.operand
  statement (inList : Bool) : m.Keeps (table.statement inList)
  bindingTarget : m.Keeps table.bindingTarget
  assignmentPattern : m.Keeps table.assignmentPattern

attribute [instance] Productions.Keeps.expression Productions.Keeps.operand
  Productions.Keeps.statement Productions.Keeps.bindingTarget Productions.Keeps.assignmentPattern

namespace Material.Keeps

variable {m : Material} [hm : m.Lawful] (self : Productions) [hself : self.Keeps m]

instance : Keeps m self.anyExpression := hself.expression 0

instance : Keeps m self.element := hself.expression Symbol.commaPower

section

variable {σ : Type} [HasTexts σ]

instance (closer : String) (item : σ → Reading (Round σ σ))
    (afterComma : σ → Position → Reading Unit) (state : σ) [Made m state]
    [hitem : Keeps m (item state)]
    [hafter : ∀ (state : Texts σ m) comma, Keeps m (afterComma state.1 comma)] :
    Keeps m (commaRound closer item afterComma state) := by
  unfold commaRound
  refine .bind inferInstance fun closes => ?_
  split
  · infer_instance
  · refine .bind inferInstance fun round => ?_
    rcases round with ⟨state | answer, hround⟩
    · have : Made m state := ⟨hround⟩
      have (comma : Position) : Keeps m (afterComma state comma) := hafter ⟨state, hround⟩ comma
      dsimp only
      infer_instance
    · have : Made m answer := ⟨hround⟩
      dsimp only
      infer_instance

instance (closer : String) (state : σ) (item : σ → Reading (Round σ σ))
    (afterComma : σ → Position → Reading Unit) [Made m state]
    [∀ state : Texts σ m, Keeps m (item state.1)]
    [∀ (state : Texts σ m) comma, Keeps m (afterComma state.1 comma)] :
    Keeps m (commaList closer state item afterComma) := by
  unfold commaList
  infer_instance

omit hm in
instance (state : σ) (comma : Position) : Keeps m (noTrailingCheck state comma) := by
  unfold noTrailingCheck
  infer_instance

end

omit hm in
instance (target : Expression) (access : Scope.Access) :
    Keeps m (assignmentTarget target access) := by
  unfold assignmentTarget
  split <;> infer_instance

end Material.Keeps

end ScriptLint

/-! ## Texts in functions and classes

Patterns, functions and classes keep to the material if the productions they are written over do.
-/

namespace ScriptLint.Material.Keeps

open Reading

variable {m : Material} [hm : m.Lawful] (self : Productions) [hself : self.Keeps m]

/-! ## Patterns -/

instance : Keeps m (patternDefault self) := by
  unfold patternDefault
  infer_instance

instance : Keeps m (computedKey self) := by
  unfold computedKey
  infer_instance

instance (s : Reading.PatternScan) [Made m s] : Keeps m (arrayBindingElement self s) := by
  unfold arrayBindingElement
  infer_instance

instance : Keeps m (arrayBinding self) := by
  unfold arrayBinding
  infer_instance

instance : Keeps m (objectBindingProperty self) := by
  unfold objectBindingProperty
  infer_instance

instance (s : Reading.PatternScan) [Made m s] : Keeps m (objectBindingElement self s) := by
  unfold objectBindingElement
  refine .bind inferInstance fun names? => ?_
  rcases names? with ⟨_ | names, hnames⟩
  · dsimp only
    infer_instance
  · have : Made m names := ⟨hnames names rfl⟩
    dsimp only
    infer_instance

instance : Keeps m (objectBinding self) := by
  unfold objectBinding
  infer_instance

instance : Keeps m (readBindingTarget self) := by
  unfold readBindingTarget
  infer_instance

instance : Keeps m (assignmentElement self) := by
  unfold assignmentElement
  infer_instance

instance : Keeps m (assignmentProperty self) := by
  unfold assignmentProperty
  infer_instance

instance (inArray : Bool) (s : Reading.PatternScan) [Made m s] :
    Keeps m (assignmentPart self inArray s) := by
  unfold assignmentPart
  infer_instance

instance : Keeps m (readAssignmentPattern self) := by
  unfold readAssignmentPattern
  infer_instance

instance : Keeps m (assignmentPatternExpression self) := by
  unfold assignmentPatternExpression
  infer_instance

/-! ## Statement lists -/

instance (top : Bool) (scan : ListScan) : Keeps m (listRound self top scan) := by
  unfold listRound
  infer_instance

instance (top : Bool) : Keeps m (statementList self top) := by
  unfold statementList
  infer_instance

instance (simpleParameters? : Option Bool) (position : Position) :
    Keeps m (applyStrictDirective simpleParameters? position) := by
  unfold applyStrictDirective
  infer_instance

instance (simpleParameters? : Option Bool) : Keeps m (directiveRound simpleParameters?) := by
  unfold directiveRound
  refine .bind inferInstance fun t => ?_
  split <;> infer_instance

instance (simpleParameters? : Option Bool) : Keeps m (directives simpleParameters?) := by
  unfold directives
  infer_instance

/-! ## Functions -/

instance (rest : Bool) : Keeps m (parameterDefault self rest) := by
  unfold parameterDefault
  infer_instance

instance (ps : Parameters) [Made m ps] : Keeps m (parameter self ps) := by
  unfold parameter
  infer_instance

instance (ps : Parameters) (comma : Position) : Keeps m (parameterComma ps comma) := by
  unfold parameterComma
  infer_instance

instance : Keeps m (parameters self) := by
  unfold parameters
  infer_instance

omit hm in
instance (ps : Parameters) [Made m ps] (method : Bool) : Keeps m (declareParameters ps method) := by
  unfold declareParameters
  infer_instance

instance (simple : Bool) : Keeps m (functionBody self simple) := by
  unfold functionBody
  infer_instance

instance (facts : Scope.FunctionFacts) (position : Position) (ownName? : Option BoundName)
    [Made m ownName?] : Keeps m (functionRest self facts position ownName?) := by
  unfold functionRest
  infer_instance

instance : Keeps m generatorStar := by
  unfold generatorStar
  infer_instance

instance (async : Bool) (position : Position) : Keeps m (functionWords async position) := by
  unfold functionWords
  infer_instance

omit hm in
instance (position : Position) : Keeps m (reportMisplacedFunction position) := by
  unfold reportMisplacedFunction
  infer_instance

omit hm in
instance (bound : BoundName) [Made m bound] (position : Position) :
    Keeps m (declareFunction bound position) := by
  unfold declareFunction
  infer_instance

instance (async anonymous : Bool) : Keeps m (functionDeclaration self async anonymous) := by
  unfold functionDeclaration
  infer_instance

instance (async : Bool) : Keeps m (functionExpression self async) := by
  unfold functionExpression
  infer_instance

instance : Keeps m (arrowParameters self) := by
  unfold arrowParameters
  infer_instance

instance (async : Bool) : Keeps m (arrowFunction self async) := by
  unfold arrowFunction
  infer_instance

/-! ## Properties -/

instance : Keeps m modifierWord := by
  unfold modifierWord
  refine .bind inferInstance fun t => ?_
  split <;> infer_instance

instance : Keeps m modifiers := by
  unfold modifiers
  infer_instance

instance : Keeps m (propertyKey self) := by
  unfold propertyKey
  refine .bind inferInstance fun t => ?_
  split
  case h_3 name hlexeme =>
    have : Made m name := ⟨text_of_keyword t.2 hlexeme⟩
    infer_instance
  all_goals infer_instance

instance (key? : Option String) [Made m key?] (modifiers : Modifiers) (constructor : Bool) :
    Keeps m (method self key? modifiers constructor) := by
  unfold method
  dsimp only
  refine .bind inferInstance fun t => .bind inferInstance fun ps => ?_
  have hfirst : Named m ((ps.1.names.head?.map (·.bound.name)).getD "") := by
    have hnames := (inferInstance : Made m ps.1.names).made
    cases hhead : ps.1.names.head? with
    | none => exact inferInstanceAs (Named m "")
    | some p => exact ⟨hnames p (List.mem_of_head? hhead)⟩
  split <;> infer_instance

/-! ## Classes -/

instance (position : Position) : Keeps m (staticBlock self position) := by
  unfold staticBlock
  infer_instance

instance (key? : Option String) (position : Position) :
    Keeps m (fieldValue self key? position) := by
  unfold fieldValue
  infer_instance

instance (isStatic : Bool) (position : Position) :
    Keeps m (methodOrField self isStatic position) := by
  unfold methodOrField
  infer_instance

instance : Keeps m (classMember self) := by
  unfold classMember
  infer_instance

instance : Keeps m (classRound self) := by
  unfold classRound
  infer_instance

instance (anonymous : Bool) : Keeps m (className anonymous) := by
  unfold className
  infer_instance

omit hm in
instance (bound? : Option BoundName) [Made m bound?] : Keeps m (declareClass bound?) := by
  unfold declareClass
  infer_instance

instance (bound? : Option BoundName) [Made m bound?] : Keeps m (classRest self bound?) := by
  unfold classRest
  infer_instance

instance (declaration anonymous : Bool) : Keeps m (readClass self declaration anonymous) := by
  unfold readClass
  infer_instance

end ScriptLint.Material.Keeps

import ScriptLint.Proofs.Lockstep.Production

/-! # Functions and classes in lockstep

Patterns, functions and classes are in lockstep if the productions they are written over are.
-/

set_option synthInstance.maxSize 65536

namespace ScriptLint.Reading.Lockstep

variable {p : Pairing} [hp : p.Lawful] (self : Productions) [hself : self.Lockstep p]

/-! ## Patterns -/

instance : Lockstep p (patternDefault self) := by
  unfold patternDefault
  infer_instance

instance : Lockstep p (computedKey self) := by
  unfold computedKey
  infer_instance

instance (s : PatternScan) [Behind p.start s] : Lockstep p (arrayBindingElement self s) := by
  unfold arrayBindingElement
  infer_instance

instance : Lockstep p (arrayBinding self) := by
  unfold arrayBinding
  infer_instance

instance : Lockstep p (objectBindingProperty self) := by
  unfold objectBindingProperty
  infer_instance

instance (s : PatternScan) [Behind p.start s] : Lockstep p (objectBindingElement self s) := by
  unfold objectBindingElement
  refine .bind inferInstance fun names? => ?_
  rcases names? with ⟨_ | names, hnames⟩
  · dsimp only
    infer_instance
  · have : Behind p.start names := ⟨hnames names rfl⟩
    dsimp only
    infer_instance

instance : Lockstep p (objectBinding self) := by
  unfold objectBinding
  infer_instance

instance : Lockstep p (readBindingTarget self) := by
  unfold readBindingTarget
  infer_instance

instance : Lockstep p (assignmentElement self) := by
  unfold assignmentElement
  infer_instance

instance : Lockstep p (assignmentProperty self) := by
  unfold assignmentProperty
  infer_instance

instance (inArray : Bool) (s : PatternScan) [Behind p.start s] :
    Lockstep p (assignmentPart self inArray s) := by
  unfold assignmentPart
  infer_instance

instance : Lockstep p (readAssignmentPattern self) := by
  unfold readAssignmentPattern
  infer_instance

instance : Lockstep p (assignmentPatternExpression self) := by
  unfold assignmentPatternExpression
  infer_instance

/-! ## Statement lists -/

instance (top : Bool) (scan : ListScan) : Lockstep p (listRound self top scan) := by
  unfold listRound
  infer_instance

instance (top : Bool) : Lockstep p (statementList self top) := by
  unfold statementList
  infer_instance

instance (simpleParameters? : Option Bool) (position : Position)
    [hposition : Behind p.start position] :
    Lockstep p (applyStrictDirective simpleParameters? position) := by
  have hcode : "W097" ∈ Flag.globalstrict.codes := by decide
  let global (o : Options) : Bool :=
    simpleParameters?.isNone && !(o.globalstrict || o.strict = .global)
  have hglobal (flag? : Option Flag) (o : Options) : global (o.relax flag?) =
      (global o && decide ("W097" ∉ Flag.spared flag?)) := by
    change (_ && !((o.relax flag?).get .globalstrict || decide ((o.relax flag?).strict = _))) = _
    rw [Bool.not_or, Options.not_get_relax flag? o rfl hcode, Options.relax_strict,
      Bool.and_right_comm, ← Bool.and_assoc, ← Bool.not_or]
    rfl
  let n : Notice := ⟨"W097", position, [], by decide⟩
  have hadvisory : Advisory p.start fun o => if global o then some n else none :=
    .of_flag hcode hposition.behind hglobal
  have hreport : Lockstep p (options >>= fun o =>
      if global o then Reading.report "W097" position [] else Pure.pure ()) :=
    .note _ (fun _ => rfl) (fun _ => hadvisory) fun s => by rw [tell_ite]; rfl
  have hrest : Lockstep p (options >>= fun o => if global o then
      Reading.report "W097" position [] >>= fun _ => track (·.setStrict) else track (·.setStrict)) :=
    .askThen hreport fun _ => inferInstance
  unfold applyStrictDirective
  infer_instance

instance (simpleParameters? : Option Bool) : Lockstep p (directiveRound simpleParameters?) := by
  unfold directiveRound
  refine .bind inferInstance fun t => ?_
  split <;> infer_instance

instance (simpleParameters? : Option Bool) : Lockstep p (directives simpleParameters?) := by
  unfold directives
  infer_instance

/-! ## Functions -/

instance (rest : Bool) : Lockstep p (parameterDefault self rest) := by
  unfold parameterDefault
  infer_instance

instance (ps : Parameters) [Behind p.start ps] : Lockstep p (parameter self ps) := by
  unfold parameter
  infer_instance

instance (ps : Parameters) (comma : Position) [Behind p.start comma] :
    Lockstep p (parameterComma ps comma) := by
  unfold parameterComma
  infer_instance

instance : Lockstep p (parameters self) := by
  unfold parameters
  infer_instance

instance (ps : Parameters) [Behind p.start ps] (method : Bool) :
    Lockstep p (declareParameters ps method) := by
  unfold declareParameters
  refine .look (fun h => by simp only [h.isStrict, h.facts]) fun _ => ?_
  infer_instance

/-- Strict mode may be required of a function whose body does not ask for it. -/
theorem checkRequired (position : Position) [hposition : Behind p.start position] {next : Reading Unit}
    [hnext : Lockstep p next] :
    Lockstep p (options >>= fun o => isStrict >>= fun strict =>
      if decide (o.strict = .required) && !strict then
        Reading.report "E007" position [] >>= fun _ => next else next) := by
  have hreport (strict : Bool) : Lockstep p (options >>= fun o =>
      if decide (o.strict = .required) && !strict then Reading.report "E007" position []
      else Pure.pure ()) := by
    refine .underOptions (n := ⟨"E007", position, [], by decide⟩) Scope.Listed.mem hposition.behind
      (fun _ o => decide (o.strict = .required) && !strict) (fun _ => rfl) (fun _ flag? o => ?_)
      fun s => ?_
    · rw [Options.relax_strict]
    · rw [tell_ite]
      rfl
  -- Whether the code is strict is the same in both runs, so it may be asked for first.
  have hfirst : Lockstep p (isStrict >>= fun strict => options >>= fun o =>
      if decide (o.strict = .required) && !strict then
        Reading.report "E007" position [] >>= fun _ => next else next) :=
    .bind inferInstance fun strict => .askThen (hreport strict) fun _ => hnext
  exact .congr (fun _ => rfl) hfirst

instance (simple : Bool) : Lockstep p (functionBody self simple) := by
  unfold functionBody
  refine .bind inferInstance fun t => ?_
  split
  · refine .bind inferInstance fun _ => .bind inferInstance fun _ => ?_
    exact .checkRequired t.1.position
  · infer_instance

instance (facts : Scope.FunctionFacts) (position : Position) [Behind p.start position]
    (ownName? : Option BoundName) [Behind p.start ownName?] :
    Lockstep p (functionRest self facts position ownName?) := by
  have hrest {α : Type} [HasPlaces α] {next : Reading α} [Lockstep p next] :
      Lockstep p (tracker >>= fun t => if facts.generator && t.functionFrame.yields == 0 then
        Reading.report "W124" position [] >>= fun _ => next else next) :=
    .look (fun h => by rw [Scope.Frame.field_eq h.functionFrame Scope.Frame.yields]) fun _ =>
      inferInstance
  unfold functionRest
  infer_instance

instance : Lockstep p generatorStar := by
  unfold generatorStar
  infer_instance

instance (async : Bool) (position : Position) [Behind p.start position] :
    Lockstep p (functionWords async position) := by
  unfold functionWords
  infer_instance

instance (position : Position) [Behind p.start position] :
    Lockstep p (reportMisplacedFunction position) := by
  unfold reportMisplacedFunction
  infer_instance

/-- A function of a block is declared there or out of place, after a report. -/
theorem declareInBlock (name : String) {bound position : Position} (hbound : p.start.Passes bound)
    (hposition : p.start.Passes position) : Lockstep p (options >>= fun o =>
      if o.edition.isModern then Reading.inScopes (.declareBlockFunction name bound)
      else reportMisplacedFunction position >>= fun _ =>
        Reading.inScopes (.declare name .function bound)) := by
  let n : Notice := ⟨"W082", position, [], by decide⟩
  have hadvisory : Advisory p.start fun o => if !o.edition.isModern then some n else none := by
    refine .of_plain (fun o n' hn' => ?_) fun flag? o => by rw [Options.relax_edition]
    split at hn' <;> cases hn'
    exact ⟨(by decide : "W082" ∈ plainCodes), hposition⟩
  have : Behind p.start bound := ⟨hbound⟩
  refine .remark (options >>= fun o =>
    Reading.inScopes (.declareInBlock name bound o.edition.isModern)) _ (fun _ => rfl)
    (fun _ => hadvisory) fun s => ?_
  change (if s.options.edition.isModern = true then _
    else reportMisplacedFunction position >>= fun _ => _ : Reading Unit).run.run s = _
  cases hmodern : s.options.edition.isModern with
  | true =>
      change _ = (Reading.inScopes (.declareInBlock name bound s.options.edition.isModern)).run.run s
      rw [hmodern]
      rfl
  | false =>
      change (tell (some n) >>= fun _ => Reading.inScopes (.declare name .function bound)).run.run s =
        (tell (some n) >>= fun _ => _).run.run s
      rw [run_bind, run_bind, run_tell]
      rcases ((Scope.Action.say (some n) s.session.tracker.functionName).run.run s.session).1 with _ | _
      · rfl
      · change _ = (Reading.inScopes
          (.declareInBlock name bound s.options.edition.isModern)).run.run _
        rw [hmodern]
        rfl

instance (bound : BoundName) (position : Position) [hbound : Behind p.start bound]
    [hposition : Behind p.start position] : Lockstep p (declareFunction bound position) := by
  have : Behind p.start bound.position := ⟨hbound.behind⟩
  unfold declareFunction
  refine .look (fun h => by rw [h.currentKind]) fun t => ?_
  dsimp only
  generalize (decide (t.current.kind = .block) || decide (t.current.kind = .catchClause)) = inBlock
  cases inBlock with
  | true => exact declareInBlock bound.name hbound.behind hposition.behind
  | false =>
      have hdeclare : Lockstep p (Reading.inScopes (.declare bound.name .function bound.position)) :=
        inferInstance
      exact .congr (fun _ => rfl) hdeclare

instance (async anonymous : Bool) : Lockstep p (functionDeclaration self async anonymous) := by
  unfold functionDeclaration
  infer_instance

instance (async : Bool) : Lockstep p (functionExpression self async) := by
  unfold functionExpression
  infer_instance

instance : Lockstep p (arrowParameters self) := by
  unfold arrowParameters
  infer_instance

instance (async : Bool) : Lockstep p (arrowFunction self async) := by
  unfold arrowFunction
  infer_instance

/-! ## Properties -/

instance : Lockstep p modifierWord := by
  unfold modifierWord
  refine .bind inferInstance fun t => ?_
  split
  · infer_instance
  · refine .bind inferInstance fun next => ?_
    split
    · infer_instance
    · split
      · infer_instance
      · refine .askThen ?_ fun _ => inferInstance
        exact .inOldest (n := ⟨"E034", t.1.position, [], by decide⟩) Scope.Listed.mem
          t.2.start.passes

instance : Lockstep p modifiers := by
  unfold modifiers
  infer_instance

instance : Lockstep p (propertyKey self) := by
  unfold propertyKey
  refine .bind inferInstance fun t => ?_
  split
  · infer_instance
  · infer_instance
  next name _ =>
    refine .askThen ?_ fun _ => inferInstance
    exact .inOldest (n := ⟨"W024", t.1.position, [name], by decide⟩) Scope.Listed.mem
      t.2.start.passes
  · infer_instance
  · infer_instance
  · infer_instance
  · infer_instance

instance (key? : Option String) (m : Modifiers) (constructor : Bool) :
    Lockstep p (method self key? m constructor) := by
  unfold method
  dsimp only
  refine .bind inferInstance fun t => .bind inferInstance fun ps => ?_
  split <;> infer_instance

/-! ## Classes -/

instance (position : Position) [Behind p.start position] : Lockstep p (staticBlock self position) := by
  unfold staticBlock
  infer_instance

instance (key? : Option String) (position : Position) [Behind p.start position] :
    Lockstep p (fieldValue self key? position) := by
  unfold fieldValue
  infer_instance

instance (isStatic : Bool) (position : Position) [Behind p.start position] :
    Lockstep p (methodOrField self isStatic position) := by
  unfold methodOrField
  infer_instance

instance : Lockstep p (classMember self) := by
  unfold classMember
  infer_instance

instance : Lockstep p (classRound self) := by
  unfold classRound
  infer_instance

instance (anonymous : Bool) : Lockstep p (className anonymous) := by
  unfold className
  infer_instance

instance (bound? : Option BoundName) [Behind p.start bound?] : Lockstep p (declareClass bound?) := by
  unfold declareClass
  infer_instance

instance (bound? : Option BoundName) [Behind p.start bound?] :
    Lockstep p (classRest self bound?) := by
  unfold classRest
  infer_instance

instance (declaration anonymous : Bool) : Lockstep p (readClass self declaration anonymous) := by
  unfold readClass
  infer_instance

end ScriptLint.Reading.Lockstep

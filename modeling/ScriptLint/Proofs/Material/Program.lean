import ScriptLint.Proofs.Analysis.Limit
import ScriptLint.Proofs.Lexing.Line
import ScriptLint.Proofs.Material.Expression
import ScriptLint.Proofs.Reading.Program

/-! # Texts in statements and programs

The last productions that keep to a material, and what follows for all that an analysis reports.
-/

/-! ## Texts in statements

Statements keep to the material if the productions they are written over do, and so does the table
of all productions, to any depth.
-/

set_option synthInstance.maxSize 65536

namespace ScriptLint.Material.Keeps

open Reading

variable {m : Material} [hm : m.Lawful] (self : Productions) [hself : self.Keeps m]

/-! ## Branches -/

instance : Keeps m (block self) := by
  unfold block
  infer_instance

instance : Keeps m (subject self) := by
  unfold subject
  infer_instance

omit hm in
instance (e : Expression) : Keeps m (checkCondition e) := by
  unfold checkCondition
  infer_instance

instance : Keeps m (condition self) := by
  unfold condition
  infer_instance

instance : Keeps m (ifStatement self) := by
  unfold ifStatement
  infer_instance

instance : Keeps m (withStatement self) := by
  unfold withStatement
  infer_instance

instance (before : Clause) : Keeps m (clauseHead self before) := by
  unfold clauseHead
  infer_instance

instance (clause : Clause) : Keeps m (switchRound self clause) := by
  unfold switchRound
  infer_instance

instance : Keeps m (switchStatement self) := by
  unfold switchStatement
  infer_instance

instance : Keeps m (catchClause self) := by
  unfold catchClause
  infer_instance

instance : Keeps m (tryStatement self) := by
  unfold tryStatement
  infer_instance

/-! ## Declarations -/

omit hm in
instance (name : String) (position : Position) [Made m name] :
    Keeps m (reportUninitialized name position) := by
  unfold reportUninitialized
  infer_instance

omit hm in
instance (name : String) (position : Position) [Made m name] :
    Keeps m (reportUndefinedValue name position) := by
  unfold reportUndefinedValue
  infer_instance

instance (fault : String → Position → Reading Unit) (names : List BoundName)
    [hnames : Made m names]
    [hfault : ∀ (name : Texts String m) position, Keeps m (fault name.1 position)] :
    Keeps m (reportFirst fault names) := by
  cases names with
  | nil => exact inferInstanceAs (Keeps m (pure _))
  | cons first rest => exact hfault ⟨first.name, hm.shown (hnames.made first List.mem_cons_self)⟩ _

instance (kind : Scope.BindingKind) (target : BindingTarget) [Made m target]
    (value : Expression) [hvalue : Made m value] :
    Keeps m (checkInitializer kind target value) := by
  unfold checkInitializer
  refine .iteThen inferInstance fun _ => ?_
  split
  next name _ hkind =>
    have : Made m name := ⟨text_of_shown value (by rw [hkind]; rfl)⟩
    infer_instance
  next => infer_instance

instance (kind : Scope.BindingKind) (target : BindingTarget) [Made m target] :
    Keeps m (initializer self kind target) := by
  unfold initializer
  infer_instance

instance (kind : Scope.BindingKind) (inHead : Bool) (ds : Declarations) [Made m ds] :
    Keeps m (declarator self kind inHead ds) := by
  unfold declarator
  infer_instance

instance (kind : Scope.BindingKind) (inHead : Bool) (ds : Declarations) [Made m ds] :
    Keeps m (declaratorRound self kind inHead ds) := by
  unfold declaratorRound
  infer_instance

instance (kind : Scope.BindingKind) (inHead : Bool) :
    Keeps m (declarations self kind inHead) := by
  unfold declarations
  infer_instance

/-! ## Jumps -/

instance (priority := low) jumpWord (word : String) [h : Scope.Listed word jumpWords] :
    Named m word :=
  ⟨hm.own word ((by decide : jumpWords ⊆ ownWords) h.mem)⟩

instance (word : String) [Scope.Listed word jumpWords] (inList : Bool) :
    Keeps m (checkReached word inList) := by
  unfold checkReached
  infer_instance

instance (word : String) [Scope.Listed word jumpWords] (inList : Bool) :
    Keeps m (endJump word inList) := by
  unfold endJump
  infer_instance

omit hm in
instance (word name : String) [Made m word] [Made m name] (position : Position) :
    Keeps m (checkLabel word name position) := by
  unfold checkLabel
  refine .bind inferInstance fun t => ?_
  split <;> infer_instance

omit hm in
instance (word : String) [Made m word] (position : Position) :
    Keeps m (checkSurroundings word position) := by
  unfold checkSurroundings
  infer_instance

instance (word : String) [Scope.Listed word jumpWords] (inList : Bool) :
    Keeps m (breakStatement word inList) := by
  unfold breakStatement
  infer_instance

instance (inList : Bool) : Keeps m (returnStatement self inList) := by
  unfold returnStatement
  infer_instance

instance (inList : Bool) : Keeps m (throwStatement self inList) := by
  unfold throwStatement
  infer_instance

/-! ## Loops -/

instance : Keeps m (loopBody self) := by
  unfold loopBody
  infer_instance

instance : Keeps m (whileStatement self) := by
  unfold whileStatement
  infer_instance

instance : Keeps m (doStatement self) := by
  unfold doStatement
  infer_instance

instance : Keeps m declarationKind? := by
  unfold declarationKind?
  infer_instance

instance : Keeps m atLoopPattern := by
  unfold atLoopPattern
  infer_instance

instance : Keeps m (loopHead self) := by
  unfold loopHead
  refine .bind inferInstance fun empty => ?_
  split
  · infer_instance
  · refine .bind inferInstance fun kind? => ?_
    split <;> infer_instance

omit hm in
instance : Keeps m iteration? := by
  unfold iteration?
  infer_instance

instance (kind : Scope.BindingKind) (ds : Declarations) (iteration : Iteration)
    (position : Position) : Keeps m (checkLoopDeclarations kind ds iteration position) := by
  unfold checkLoopDeclarations
  infer_instance

omit hm in
instance (target : Expression) [htarget : Made m target] : Keeps m (loopTarget target) := by
  unfold loopTarget
  split
  next name _ hkind _ =>
    have : Made m name := ⟨text_of_shown target (by rw [hkind])⟩
    infer_instance
  next => infer_instance

instance (iteration : Iteration) (position : Position) :
    Keeps m (iterationRest self iteration position) := by
  unfold iterationRest
  cases iteration <;> infer_instance

instance : Keeps m (countedRest self) := by
  unfold countedRest
  infer_instance

instance (position : Position) (head : LoopHead) [hhead : Made m head] :
    Keeps m (forRest self position head) := by
  unfold forRest
  refine .bind inferInstance fun iteration? => ?_
  rcases iteration? with ⟨_ | iteration, hiteration⟩ <;> rcases head with _ | ⟨kind, ds⟩ | e
  · dsimp only
    infer_instance
  · have : Made m ds := ⟨hhead.made⟩
    cases kind <;> dsimp only <;> infer_instance
  · dsimp only
    infer_instance
  · dsimp only
    infer_instance
  · dsimp only
    infer_instance
  · have : Made m e := ⟨hhead.made⟩
    dsimp only
    infer_instance

instance : Keeps m (forStatement self) := by
  unfold forStatement
  infer_instance

/-! ## Modules -/

instance (word feature : String) [Made m word] [Named m feature] :
    Keeps m (moduleItem word feature) := by
  unfold moduleItem
  infer_instance

instance : Keeps m moduleName := by
  unfold moduleName
  infer_instance

instance : Keeps m fromModule := by
  unfold fromModule
  infer_instance

instance : Keeps m moduleWord? := by
  unfold moduleWord?
  infer_instance

instance : Keeps m importBinding := by
  unfold importBinding
  infer_instance

instance (u : Unit) : Keeps m (importItem u) := by
  unfold importItem
  refine .bind inferInstance fun word? => ?_
  split <;> infer_instance

instance : Keeps m importClause := by
  unfold importClause
  infer_instance

instance : Keeps m importDeclaration := by
  unfold importDeclaration
  infer_instance

omit hm in
instance (name : String) [Made m name] (position : Position) :
    Keeps m (addExport name position) := by
  have : Keeps m (modify fun s => { s with exports := name :: s.exports } : Reading Unit) :=
    .change fun hs => hs
  unfold addExport
  infer_instance

omit hm in
instance (name : String) : Keeps m (exportVariable name) := by
  unfold exportVariable
  infer_instance

instance (items : List ExportItem) [Made m items] : Keeps m (exportItem items) := by
  unfold exportItem
  refine .bind inferInstance fun word? => ?_
  rcases word? with ⟨_ | t, ht⟩
  · dsimp only
    infer_instance
  · have : Made m t := ⟨ht t rfl⟩
    dsimp only
    infer_instance

instance : Keeps m exportNames := by
  unfold exportNames
  infer_instance

instance : Keeps m exportAll := by
  unfold exportAll
  infer_instance

instance : Keeps m atAsyncFunction := by
  unfold atAsyncFunction
  infer_instance

instance (position : Position) : Keeps m (exportDefault self position) := by
  unfold exportDefault
  infer_instance

instance (kind : Scope.BindingKind) : Keeps m (exportedVariables self kind) := by
  unfold exportedVariables
  infer_instance

instance : Keeps m (exportedDeclaration self) := by
  unfold exportedDeclaration
  infer_instance

instance : Keeps m (exportDeclaration self) := by
  unfold exportDeclaration
  infer_instance

/-! ## Statements -/

omit hm in
instance (word : String) [Made m word] (inList : Bool) : Keeps m (checkInList word inList) := by
  unfold checkInList
  infer_instance

instance (kind : Scope.BindingKind) : Keeps m (variableStatement self kind) := by
  unfold variableStatement
  infer_instance

instance (async inList : Bool) : Keeps m (functionStatement self async inList) := by
  unfold functionStatement
  infer_instance

omit hm in
instance (e : Expression) : Keeps m (checkEffect e) := by
  unfold checkEffect
  infer_instance

instance : Keeps m (expressionStatement self) := by
  unfold expressionStatement
  infer_instance

instance : Keeps m debuggerStatement := by
  unfold debuggerStatement
  infer_instance

instance (inList : Bool) : Keeps m (emptyStatement inList) := by
  unfold emptyStatement
  infer_instance

instance : Keeps m (importStatement self) := by
  unfold importStatement
  infer_instance

instance (inList : Bool) (form : StatementForm) : Keeps m (statementOf self inList form) := by
  cases form <;> unfold statementOf <;> dsimp only <;> infer_instance

instance : Keeps m statementStart := by
  unfold statementStart
  refine .bind inferInstance fun t => .bind inferInstance fun next => ?_
  dsimp only
  split
  · infer_instance
  split
  · infer_instance
  split
  · infer_instance
  split <;> infer_instance

/-- A label is read where an identifier comes next. -/
theorem isIdentifier_of_label {s s' : State}
    (hrun : statementStart.run.run s = (.ok .label, s')) : s'.lookahead.isIdentifier := by
  have hother {first second third : Bool} {other : Reading StatementStart}
      (hnot : other.run.run s ≠ (.ok .label, s'))
      (h : (if first then pure .label else if second then pure .letDeclaration else
        if third then pure .asyncFunction else other : Reading StatementStart).run.run s =
          (.ok .label, s')) : first = true ∧ s' = s := by
    split at h
    next hfirst => exact ⟨hfirst, (Prod.mk.inj h).2.symm⟩
    next =>
      split at h
      next => cases h
      next =>
        split at h
        next => cases h
        next => exact absurd h hnot
  obtain ⟨hname, rfl⟩ := hother (by split <;> nofun) hrun
  exact (Bool.and_eq_true_iff.mp hname).1

/-- A label is a name, which a report may show in front of what comes next. -/
theorem exists_labelled : ∃ next, labelledStatement self = Reading.token >>= next ∧
    ∀ t : Texts Token m, t.1.isIdentifier → Keeps m (next t.1) := by
  refine ⟨_, rfl, fun t hname => ?_⟩
  have : Named m t.1.name := ⟨hm.bound t.2 (Token.isPropertyName_of_isIdentifier hname)⟩
  infer_instance

instance (inList : Bool) : Keeps m (readStatement self inList) := by
  obtain ⟨next, hnext, hkeeps⟩ := exists_labelled (m := m) self
  have hlabel : Keeps m (Reading.token >>= fun t =>
      if t.isIdentifier then next t else throw .outOfFuel) := by
    refine .bind inferInstance fun t => ?_
    split
    next hname => exact hkeeps t hname
    next => exact .stop _
  have hstart : Keeps m (statementStart >>= fun start => match start with
      | .label => labelledStatement self
      | .letDeclaration => do
        checkInList "Let" inList
        variableStatement self .letName
      | .asyncFunction => functionStatement self true inList
      | .form form => statementOf self inList form
      | .expression => expressionStatement self) := by
    refine .bind_at inferInstance fun {s s'} start hrun => ?_
    rcases start with ⟨_ | _ | _ | form | _, hstart⟩
    · refine ⟨_, hlabel, ?_⟩
      have hname := isIdentifier_of_label hrun
      rw [hnext]
      change _ = ((if s'.lookahead.isIdentifier then _ else _ : Reading Statement)).run.run s'
      rw [if_pos hname]
      rfl
    all_goals exact ⟨_, by infer_instance, rfl⟩
  exact .nested

/-! ## Programs -/

omit hself in
theorem productions (fuel : Nat) : (productions fuel).Keeps m := by
  induction fuel with
  | zero => constructor <;> intros <;> exact .stop _
  | succ fuel ih =>
      refine ⟨fun power => ?_, ?_, fun inList => ?_, ?_, ?_⟩
      · rw [productions_expression]
        infer_instance
      · rw [productions_operand]
        infer_instance
      · rw [productions_statement]
        infer_instance
      · rw [productions_bindingTarget]
        infer_instance
      · rw [productions_assignmentPattern]
        infer_instance

instance program : Keeps m (program self) := by
  unfold Reading.program
  infer_instance

end ScriptLint.Material.Keeps

/-! ## Texts in analyses

All that an analysis reports is made of words of its own and of what the tokens of the source show,
and each code is reported with arguments such as it takes. A line ends in an argument only
where it ends in a string or a piece of a template that the argument shows.
-/

namespace ScriptLint

open Analysis (startState)

namespace Material

variable {m : Material} [hm : m.Lawful] {source : String}

/-- The state in front of the first token carries nothing but that token. -/
theorem made_startState (o : Options) (known : KnownGlobals)
    (hfirst : m.token (Token.next (.ofSource source))) :
    HasTexts.Made m (startState source o known) := by
  refine ⟨hfirst, ?_, ?_, ?_⟩
  · exact fun t hmem => absurd hmem List.not_mem_nil
  · exact .start known _ o.module _ (hm.shown (hm.own "" (by decide)))
  · exact fun d hmem => absurd hmem List.not_mem_nil

/-- All that an analysis reports is of a material to which parsers keep, if the first token is. -/
theorem made_diagnostics (o : Options) (known : KnownGlobals)
    (hfirst : m.token (Token.next (.ofSource source))) :
    HasTexts.Made m (Analysis.ofSource source o known).diagnostics := by
  have := Keeps.productions (m := m) (Reading.nestingBound source.utf8ByteSize)
  have hreading : Keeps m (Analysis.reading source) := by
    unfold Analysis.reading
    infer_instance
  have hend : HasTexts.Made m (Analysis.lastSink source o known).entries :=
    (hreading.state (made_startState o known hfirst)).2.2.2
  intro d hd
  refine hend d ?_
  rcases List.mem_append.mp hd with hd | hd
  · exact List.mem_append_left _ (List.mem_of_mem_filter hd)
  · exact List.mem_append_right _ hd

/-! ## Line ends and places -/

/-- The text is the spelling or the value of a string or a piece of a template of the source. -/
def IsShownText (source text : String) : Prop :=
  ∃ t, (Token.next (.ofSource source)).LeadsTo t ∧ t.holdsText ∧ (text = t.raw ∨ text = t.display)

/-- The tokens of a source, and the texts that hold no line end or are shown by a token that may run
over lines. Such a text is a name if it has no place for a second argument. -/
def lines (source : String) : Material where
  token t := (Token.next (.ofSource source)).LeadsTo t
  text x := '\n' ∈ x.toList → IsShownText source x
  name x := ¬ Message.Places 'b' x.toList ∧ ('\n' ∈ x.toList → IsShownText source x)

theorem name_of_isPlain {word : String} (hword : IsPlain word) : (lines source).name word :=
  ⟨hword.placeless, fun hline => absurd hline hword.line⟩

theorem text_raw {t : Token} (ht : (Token.next (.ofSource source)).LeadsTo t) :
    (lines source).text t.raw := fun hline =>
  ht.inLine_or_holdsText.elim (fun h => absurd hline h.raw) fun h => ⟨t, ht, h, .inl rfl⟩

theorem text_display {t : Token} (ht : (Token.next (.ofSource source)).LeadsTo t) :
    (lines source).text t.display := fun hline =>
  ht.inLine_or_holdsText.elim (fun h => absurd hline h.display) fun h => ⟨t, ht, h, .inr rfl⟩

theorem text_name {t : Token} (ht : (Token.next (.ofSource source)).LeadsTo t) :
    (lines source).text t.name := fun hline =>
  ht.inLine_or_holdsText.elim (fun h => absurd hline h.name)
    fun h => ⟨t, ht, h, .inl (Token.name_of_holdsText h)⟩

instance lines_lawful (source : String) : (lines source).Lawful where
  shown h := h.2
  own word hmem := name_of_isPlain (isPlain_of_mem_ownWords word hmem)
  feature name hmem := name_of_isPlain (isPlain_of_mem_featureNames name hmem)
  bound ht hname := ⟨Message.not_places_of_not_mem (ht.hasCleanName hname), text_name ht⟩
  raw := text_raw
  display := text_display
  name := text_name
  issues ht issue hmem :=
    have hissue := ht.allInLine_issues issue hmem
    ⟨hissue.takes, fun a ha hline => absurd hline (hissue.arguments a ha),
      fun a b heq => .inl (name_of_isPlain (hissue.leads a b heq))⟩
  directives _ d _ item hitem :=
    have hline := d.not_mem_items item hitem
    ⟨fun h => absurd h hline.1, fun value hvalue h => absurd h (hline.2 value hvalue)⟩
  next := .next
  rescanRegexp := .regexp
  rescanTemplate := .template

end Material

namespace Analysis

variable (source : String) (o : Options) (known : KnownGlobals)

/-- What is reported has arguments such as its code takes. -/
theorem takes_arguments {d : Diagnostic} (hd : d ∈ (ofSource source o known).diagnostics) :
    Message.Takes d.code d.arguments :=
  (Material.made_diagnostics (m := .lines source) o known .refl d hd).1

/-- An argument that holds a line end shows a string or a piece of a template. -/
theorem isShownText_of_mem {d : Diagnostic} (hd : d ∈ (ofSource source o known).diagnostics)
    {text : String} (htext : text ∈ d.arguments) (hline : '\n' ∈ text.toList) :
    Material.IsShownText source text :=
  (Material.made_diagnostics (m := .lines source) o known .refl d hd).2.1 text htext hline

/-- Of two arguments the first one has no place for the second, unless this one is the jump that
leaves the first one unreached. -/
theorem not_places_or_unreached {d : Diagnostic}
    (hd : d ∈ (ofSource source o known).diagnostics) {a b : String} (hargs : d.arguments = [a, b]) :
    ¬ Message.Places 'b' a.toList ∨ d.code = "W027" ∧ b ∈ jumpWords :=
  ((Material.made_diagnostics (m := .lines source) o known .refl d hd).2.2 a b hargs).imp_left
    And.left

end Analysis

end ScriptLint

import ScriptLint.Proofs.Reading.Declarator
import ScriptLint.Proofs.Scope.Stepwise
import ScriptLint.Proofs.Scope.Operation

/-! # Invariants of reading

What holds of the state between any two steps is shown once for each kind of step: for reports, for
tokens that are taken, and for the operations on the scopes that productions perform. Whatever is put
together from such steps upholds it. An invariant may speak of what is open around the place that
reading has come to, so a step is said to lead from some open constructs to others; the search for
instances finds out which, along the definition of the step.
-/

set_option synthInstance.maxSize 4096

namespace ScriptLint

/-- What may be open around a place of a program. -/
inductive Bracket where
  | scope
  | loop
  | switch
  | label
deriving Repr, DecidableEq

namespace Scope.Operation

/-- A production performs the operation where the first constructs are open, innermost first, and
afterwards the second ones are. References are recorded apart, for they need a token. -/
class inductive Turns : Operation → List Bracket → outParam (List Bracket) → Prop
  | enterScope (kind : FrameKind) (start : Position) (bs : List Bracket) :
      Turns (.enterScope kind start) bs (.scope :: bs)
  | enterFunction (facts : FunctionFacts) (start : Position) (bs : List Bracket) :
      Turns (.enterFunction facts start) bs (.scope :: bs)
  | exitScope (bs : List Bracket) : Turns .exitScope (.scope :: bs) bs
  | enterLoop (bs : List Bracket) : Turns .enterLoop bs (.loop :: bs)
  | exitLoop (bs : List Bracket) : Turns .exitLoop (.loop :: bs) bs
  | enterSwitch (bs : List Bracket) : Turns .enterSwitch bs (.switch :: bs)
  | exitSwitch (bs : List Bracket) : Turns .exitSwitch (.switch :: bs) bs
  | pushLabel (label : Label) (bs : List Bracket) : Turns (.pushLabel label) bs (.label :: bs)
  | popLabel (bs : List Bracket) : Turns .popLabel (.label :: bs) bs
  | declare (name : String) (kind : BindingKind) (position : Position) (bs : List Bracket) :
      Turns (.declare name kind position) bs bs
  | declareBlockFunction (name : String) (position : Position) (bs : List Bracket) :
      Turns (.declareBlockFunction name position) bs bs
  | declareParameter (name : String) (position : Position) (distinct : Bool)
      (bs : List Bracket) : Turns (.declareParameter name position distinct) bs bs
  | declareFunctionName (name : String) (position : Position) (bs : List Bracket) :
      Turns (.declareFunctionName name position) bs bs
  | markInitialized (name : String) (offset : Nat) (bs : List Bracket) :
      Turns (.markInitialized name offset) bs bs
  | markExported (name : String) (bs : List Bracket) : Turns (.markExported name) bs bs
  | setAccess (id : Nat) (access : Access) (bs : List Bracket) :
      Turns (.setAccess id access) bs bs
  | setStrict (bs : List Bracket) : Turns .setStrict bs bs
  | recordYield (bs : List Bracket) : Turns .recordYield bs bs

attribute [instance] Turns.enterScope Turns.enterFunction Turns.exitScope Turns.enterLoop
  Turns.exitLoop Turns.enterSwitch Turns.exitSwitch Turns.pushLabel Turns.popLabel Turns.declare
  Turns.declareBlockFunction Turns.declareParameter Turns.declareFunctionName
  Turns.markInitialized Turns.markExported Turns.setAccess Turns.setStrict Turns.recordYield

end Scope.Operation

namespace Reading

open Scope (Operation)

variable {α β σ : Type}

/-- The step is an operation on the scopes. -/
class Performs (step : Reading Unit) (operation : outParam Operation) : Prop where
  run : ∀ s, step.run.run s = (inScopes operation.perform).run.run s

namespace Performs

instance (kind : Scope.FrameKind) (start : Position) :
    Performs (track (·.enterScope kind start)) (.enterScope kind start) := ⟨fun _ => rfl⟩

instance (facts : Scope.FunctionFacts) (start : Position) :
    Performs (track (·.enterFunction facts start)) (.enterFunction facts start) := ⟨fun _ => rfl⟩

instance : Performs (inScopes Scope.Action.exitScope) .exitScope := ⟨fun _ => rfl⟩

instance : Performs (track (·.enterLoop)) .enterLoop := ⟨fun _ => rfl⟩

instance : Performs (track (·.exitLoop)) .exitLoop := ⟨fun _ => rfl⟩

instance : Performs (track (·.enterSwitch)) .enterSwitch := ⟨fun _ => rfl⟩

instance : Performs (track (·.exitSwitch)) .exitSwitch := ⟨fun _ => rfl⟩

instance (label : Scope.Label) : Performs (track (·.pushLabel label)) (.pushLabel label) :=
  ⟨fun _ => rfl⟩

instance : Performs (track (·.popLabel)) .popLabel := ⟨fun _ => rfl⟩

instance (name : String) (kind : Scope.BindingKind) (position : Position) :
    Performs (inScopes (Scope.Action.declare name kind position)) (.declare name kind position) :=
  ⟨fun _ => rfl⟩

instance (name : String) (position : Position) :
    Performs (inScopes (Scope.Action.declareBlockFunction name position))
      (.declareBlockFunction name position) := ⟨fun _ => rfl⟩

instance (name : String) (position : Position) (distinct : Bool) :
    Performs (inScopes (Scope.Action.declareParameter name position distinct))
      (.declareParameter name position distinct) := ⟨fun _ => rfl⟩

instance (name : String) (position : Position) :
    Performs (track (·.declareFunctionName name position)) (.declareFunctionName name position) :=
  ⟨fun _ => rfl⟩

instance (name : String) (offset : Nat) :
    Performs (track (·.markInitialized name offset)) (.markInitialized name offset) :=
  ⟨fun _ => rfl⟩

instance (name : String) : Performs (track (·.markExported name)) (.markExported name) :=
  ⟨fun _ => rfl⟩

instance (id : Nat) (access : Scope.Access) :
    Performs (track (·.setAccess id access)) (.setAccess id access) := ⟨fun _ => rfl⟩

instance : Performs (track (·.setStrict)) .setStrict := ⟨fun _ => rfl⟩

instance : Performs (track (·.recordYield)) .recordYield := ⟨fun _ => rfl⟩

end Performs

/-- The codes with which productions report by themselves, apart from the keys of object literals,
what comes with tokens and what the scopes have to say. -/
abbrev grammarCodes : List String :=
  ["E006", "E007", "E010", "E012", "E016", "E021", "E022", "E024", "E030", "E031", "E034",
    "E048", "E053", "E058", "E060", "E062", "E063", "E064", "E065", "E068", "E069", "E070", "E071",
    "W009", "W010", "W017", "W019", "W024", "W027", "W028", "W030", "W031", "W032", "W033", "W034",
    "W046", "W051", "W052", "W053", "W054", "W058", "W061", "W066", "W069", "W070", "W076", "W077",
    "W080", "W082", "W084", "W085", "W086", "W087", "W088", "W089", "W090", "W093",
    "W097", "W104", "W115", "W116", "W119", "W120", "W124", "W128", "W130", "W131", "W133", "W137",
    "W138", "W139", "W144"]

/-- The codes with which object literals report the keys of their properties. -/
abbrev keyCodes : List String := ["W075", "W078"]

/-- What may hold between two steps where some constructs are open, innermost first. -/
abbrev Invariant := List Bracket → State → Prop

/-- Where the step goes through, it leads from one state of the invariant to another. -/
class Upholds (I : Invariant) (bs : List Bracket) (step : Reading α)
    (bs' : outParam (List Bracket)) : Prop where
  leads {s : State} : I bs s → Leads step s fun _ s' => I bs' s'

/-- Reports, tokens that are taken and what only productions look at uphold the invariant. -/
class Invariant.Scanning (I : Invariant) : Prop where
  /-- What only productions look at may be set at any time. -/
  adjust {bs : List Bracket} {s : State} (depth : Nat) (inExcluded : Bool)
    (exports : List String) : I bs s → I bs { s with depth, inExcluded, exports }
  report {bs : List Bracket} {s : State} {code : String} (position : Position)
    (arguments : List String) (hcode : Halt.IsRegular code) : code ∈ grammarCodes → I bs s →
      Leads (report code position arguments hcode) s fun _ s' => I bs s'
  /-- A key is reported where the next token was at some time, once that has been taken. -/
  reportKey {bs : List Bracket} {s₀ s : State} {code : String} (arguments : List String)
    (hcode : Halt.IsRegular code) : code ∈ keyCodes → I bs s₀ → I bs s →
      s₀.lookahead.position.offset < s.lookahead.position.offset →
      Leads (Reading.report code s₀.lookahead.position arguments hcode) s fun _ s' => I bs s'
  advance {bs : List Bracket} {s : State} : I bs s →
    Leads advance s fun _ s' => I bs s'
  rescanRegexp {bs : List Bracket} {s : State} : isSlash s.lookahead → I bs s →
    I bs { s with lookahead := s.lookahead.rescanRegexp }
  rescanTemplate {bs : List Bracket} {s : State} : s.lookahead.isPunctuator "\x7d" →
    I bs s → Leads rescanTemplate s fun _ s' => I bs s'

/-- The place was that of the next token when the invariant held, and the token has been taken. -/
def Invariant.Passed (I : Invariant) (bs : List Bracket) (p : Position) (s : State) : Prop :=
  ∃ s₀, I bs s₀ ∧ s₀.lookahead.position = p ∧ p.offset < s.lookahead.position.offset

theorem Invariant.Passed.of_le {I : Invariant} {bs : List Bracket} {p : Position} {s s' : State}
    (hp : I.Passed bs p s) (hle : s.lookahead.position.offset ≤ s'.lookahead.position.offset) :
    I.Passed bs p s' := by
  obtain ⟨s₀, hs₀, hposition, hlt⟩ := hp
  exact ⟨s₀, hs₀, hposition, Nat.lt_of_lt_of_le hlt hle⟩

/-- The kinds of steps that record no reference uphold the invariant. -/
class Invariant.Basic (I : Invariant) : Prop extends Invariant.Scanning I where
  perform {bs bs' : List Bracket} {s : State} {operation : Operation} :
    operation.Turns bs bs' → I bs s →
      Leads (inScopes operation.perform) s fun _ s' => I bs' s'

namespace Upholds

variable {I : Invariant} {bs bs' bs'' : List Bracket}

/-! ## Sequences and choices -/

instance (a : α) : Upholds I bs (Pure.pure a : Reading α) bs := ⟨fun hs => .pure hs⟩

protected theorem bind {first : Reading α} {next : α → Reading β}
    (hfirst : Upholds I bs first bs') (hnext : ∀ a, Upholds I bs' (next a) bs'') :
    Upholds I bs (first >>= next) bs'' :=
  ⟨fun hs => .bind fun a s' hrun => (hnext a).leads (hfirst.leads hs a s' hrun)⟩

instance {first : Reading α} {next : α → Reading β} [hfirst : Upholds I bs first bs']
    [hnext : ∀ a, Upholds I bs' (next a) bs''] :
    Upholds I bs (first >>= next) bs'' := .bind hfirst hnext

instance {c : Prop} [Decidable c] {first second : Reading α}
    [hfirst : Upholds I bs first bs'] [hsecond : Upholds I bs second bs'] :
    Upholds I bs (if c then first else second) bs' := by
  split <;> infer_instance

instance {items : List α} {step : α → Reading PUnit}
    [hstep : ∀ a, Upholds I bs (step a) bs] : Upholds I bs (items.forM step) bs := by
  induction items with
  | nil => exact inferInstanceAs (Upholds I bs (Pure.pure _) bs)
  | cons a rest ih => exact .bind (hstep a) fun _ => ih

instance {item? : Option α} {step : α → Reading PUnit}
    [hstep : ∀ a, Upholds I bs (step a) bs] : Upholds I bs (item?.forM step) bs := by
  cases item? with
  | none => exact inferInstanceAs (Upholds I bs (Pure.pure _) bs)
  | some a => exact hstep a

/-! ## What is known -/

/-- A step that only looks. -/
theorem look {step : Reading α} (hstep : ∀ s, (step.run.run s).2 = s) :
    Upholds I bs step bs where
  leads {s} hs a s' hrun := by
    obtain rfl : s = s' := by rw [← hstep s, hrun]
    exact hs

/-- A step that gives no answer. -/
theorem of_fails {step : Reading α} (hstep : ∀ s a s', step.run.run s ≠ (.ok a, s')) :
    Upholds I bs step bs' := ⟨fun {s} _ a s' hrun => absurd hrun (hstep s a s')⟩

instance : Upholds I bs (get : Reading State) bs := look fun _ => rfl

instance : Upholds I bs token bs := look fun _ => rfl

instance : Upholds I bs previous bs := look fun _ => rfl

instance : Upholds I bs options bs := look fun _ => rfl

instance : Upholds I bs tracker bs := look fun _ => rfl

instance : Upholds I bs isStrict bs := look fun _ => rfl

instance (edition : Edition) : Upholds I bs (isBefore edition) bs := look fun _ => rfl

instance (p : String) : Upholds I bs (atPunctuator p) bs := look fun _ => rfl

instance (word : String) : Upholds I bs (atKeyword word) bs := look fun _ => rfl

instance (word : String) : Upholds I bs (atWord word) bs := look fun _ => rfl

instance : Upholds I bs peek bs := look fun _ => rfl

instance (c : Cursor) : Upholds I bs (tokenAfterGroupFrom c) bs := by
  unfold tokenAfterGroupFrom
  refine .bind inferInstance fun _ => ?_
  dsimp only
  split
  · infer_instance
  · exact of_fails fun _ _ _ => nofun

instance : Upholds I bs tokenAfterGroup bs := .bind inferInstance fun _ => inferInstance

instance : Upholds I bs inGenerator bs := look fun _ => rfl

instance : Upholds I bs inAsync bs := look fun _ => rfl

instance (name : String) : Upholds I bs (isReserved name) bs := by
  unfold isReserved
  refine .bind inferInstance fun o => ?_
  split <;> infer_instance

/-! ## Scopes -/

section

variable [hI : I.Basic]

instance {step : Reading Unit} {operation : Operation} [hstep : Performs step operation]
    [hturns : operation.Turns bs bs'] : Upholds I bs step bs' where
  leads hs a s' hrun := hI.perform hturns hs a s' ((hstep.run _).symm.trans hrun)

instance (kind : Scope.BindingKind) (names : List BoundName) :
    Upholds I bs (declareAll kind names) bs := by
  unfold declareAll
  infer_instance

end

/-! ## Reports and ends -/

variable [hI : I.Scanning]

instance (code : String) (position : Position) (arguments : List String)
    (hcode : Halt.IsRegular code) [hlisted : Scope.Listed code grammarCodes] :
    Upholds I bs (report code position arguments hcode) bs :=
  ⟨hI.report position arguments hcode hlisted.mem⟩

instance (issue : LexicalIssue) [Scope.Listed issue.code grammarCodes] :
    Upholds I bs (reportIssue issue) bs := by
  unfold reportIssue
  infer_instance

instance (feature : String) (since : Edition) (position : Position) :
    Upholds I bs (requireEdition feature since position) bs := by
  have hgated : Scope.Listed (LexicalIssue.gated feature since position).code grammarCodes :=
    inferInstanceAs (Scope.Listed "W119" grammarCodes)
  unfold requireEdition
  infer_instance

instance (feature : String) (position : Position) :
    Upholds I bs (requireModern feature position) bs := by
  unfold requireModern
  infer_instance

omit hI in
instance (reason : Halt) (position : Position) :
    Upholds I bs (halt reason position : Reading α) bs := of_fails fun _ _ _ hrun => nomatch hrun

instance (excluded : Bool) : Upholds I bs (setInExcluded excluded) bs where
  leads hs := by
    rintro _ _ ⟨⟩
    exact hI.adjust _ excluded _ hs

/-! ## Consuming tokens -/

instance : Upholds I bs advance bs := ⟨hI.advance⟩

instance : Upholds I bs rescanRegexp bs where
  leads hs := .bind <| by
    rintro _ _ ⟨⟩
    refine .ite (fun hslash => ?_) fun _ => .pure hs
    rintro _ _ ⟨⟩
    exact hI.rescanRegexp hslash hs

omit hI in
theorem earlyEnd_leads {s : State} {post : α → State → Prop} : Leads earlyEnd s post :=
  .after fun _ _ => .after fun _ _ _ _ hrun => nomatch hrun

omit hI in
instance : Upholds I bs (earlyEnd : Reading α) bs := ⟨fun _ => earlyEnd_leads⟩

instance (shown : String) (position : Position) :
    Upholds I bs (reportUnexpected shown position) bs := by
  have hunexpected : Scope.Listed (LexicalIssue.unexpected shown position).code grammarCodes :=
    inferInstanceAs (Scope.Listed "E024" grammarCodes)
  unfold reportUnexpected
  infer_instance

instance (wanted : String) (t : Token) : Upholds I bs (reportInstead wanted t) bs := by
  unfold reportInstead
  infer_instance

instance (t : Token) : Upholds I bs (reportNoName t) bs := by
  unfold reportNoName
  infer_instance

instance (name : String) (position : Position) :
    Upholds I bs (reportReserved name position) bs := by
  unfold reportReserved
  infer_instance

instance (position : Position) : Upholds I bs (reportExtraComma position) bs := by
  unfold reportExtraComma
  infer_instance

instance (wanted : String) : Upholds I bs (unexpectedInstead wanted) bs := by
  unfold unexpectedInstead
  infer_instance

instance (p : String) : Upholds I bs (expectPunctuator p) bs := by
  unfold expectPunctuator
  infer_instance

instance (word : String) : Upholds I bs (expectKeyword word) bs := by
  unfold expectKeyword
  infer_instance

instance (word : String) : Upholds I bs (expectWord word) bs := by
  unfold expectWord
  infer_instance

instance (p : String) : Upholds I bs (acceptPunctuator p) bs := by
  unfold acceptPunctuator
  infer_instance

instance (afterDo : Bool) : Upholds I bs (endStatement afterDo) bs := by
  unfold endStatement
  infer_instance

instance : Upholds I bs semicolon bs := by
  unfold semicolon
  infer_instance

instance : Upholds I bs bindingName bs := by
  unfold bindingName
  infer_instance

/-! ## Bounds and loops -/

protected theorem nested {step : Reading α} (hstep : Upholds I bs step bs) :
    Upholds I bs (nested step) bs := by
  have hdepth (change : Nat → Nat) :
      Upholds I bs (modify fun s : State => { s with depth := change s.depth }) bs := by
    refine ⟨fun hs => ?_⟩
    rintro _ _ ⟨⟩
    exact hI.adjust _ _ _ hs
  have hdeeper := hdepth (· + 1)
  have hback := hdepth (· - 1)
  unfold Reading.nested
  infer_instance

instance {step : Reading α} [hstep : Upholds I bs step bs] : Upholds I bs (nested step) bs :=
  .nested hstep

instance {step : Reading α} [hstep : Upholds I bs step bs] :
    Upholds I bs (allowingIn step) bs := by
  unfold allowingIn
  infer_instance

instance {step : Reading α} [hstep : Upholds I bs step bs] :
    Upholds I bs (excludingIn step) bs := by
  unfold excludingIn
  infer_instance

omit hI in
theorem iterate {round : σ → Reading (Round σ α)}
    (hround : ∀ state, Upholds I bs (round state) bs) (fuel : Nat) (state : σ) :
    Upholds I bs (iterate round fuel state) bs := by
  induction fuel generalizing state with
  | zero => exact of_fails fun _ _ _ => nofun
  | succ fuel ih =>
      unfold Reading.iterate
      refine .bind (hround state) fun r => ?_
      cases r with
      | again state => exact ih state
      | done answer => infer_instance

omit hI in
instance {state : σ} {round : σ → Reading (Round σ α)}
    [hround : ∀ state, Upholds I bs (round state) bs] :
    Upholds I bs (repeatFrom state round) bs :=
  .bind inferInstance fun _ => .iterate hround _ _

omit hI in
instance {round : Reading Bool} [hround : Upholds I bs round bs] :
    Upholds I bs (repeatWhile round) bs := by
  unfold repeatWhile
  infer_instance

instance {closer : String} {item : σ → Reading (Round σ σ)}
    {afterComma : σ → Position → Reading Unit} {state : σ}
    [hitem : ∀ state, Upholds I bs (item state) bs]
    [hcomma : ∀ state comma, Upholds I bs (afterComma state comma) bs] :
    Upholds I bs (commaRound closer item afterComma state) bs := by
  unfold commaRound
  refine .bind inferInstance fun _ => ?_
  split
  · infer_instance
  · refine .bind (hitem state) fun r => ?_
    cases r <;> infer_instance

instance {closer : String} {state : σ} {item : σ → Reading (Round σ σ)}
    {afterComma : σ → Position → Reading Unit}
    [hitem : ∀ state, Upholds I bs (item state) bs]
    [hcomma : ∀ state comma, Upholds I bs (afterComma state comma) bs] :
    Upholds I bs (commaList closer state item afterComma) bs := by
  unfold commaList
  infer_instance

omit hI in
instance (state : σ) (comma : Position) : Upholds I bs (noTrailingCheck state comma) bs := by
  unfold noTrailingCheck
  infer_instance

end Upholds

/-! ## Lists -/

/-- The state or the answer of a round, where they are of one type. -/
def Round.state : Round σ σ → σ
  | .again state | .done state => state

/-- A list in which each item is read under what the ones before it say. -/
theorem commaList_leads {closer : String} {item : σ → Reading (Round σ σ)}
    {afterComma : σ → Position → Reading Unit} {state : σ} {s : State} {Holds : σ → State → Prop}
    (hcomma : ∀ a s comma, Holds a s →
      Leads (advance >>= fun _ => afterComma a comma) s fun _ s' => Holds a s')
    (hitem : ∀ a s, Holds a s → Leads (item a) s fun r s' => Holds r.state s')
    (hs : Holds state s) :
    Leads (commaList closer state item afterComma) s Holds := by
  have hround (a : σ) {s : State} (hs : Holds a s) :
      Leads (commaRound closer item afterComma a) s fun r s' => Holds r.state s' := by
    refine .bind ?_
    rintro _ _ ⟨⟩
    refine .ite (fun _ => .pure hs) fun _ => .bind fun r s₁ hrun => ?_
    have hs₁ := hitem a s hs r s₁ hrun
    cases r with
    | done b => exact .pure hs₁
    | again b =>
        refine .bind ?_
        rintro _ _ ⟨⟩
        refine .ite (fun _ => .bind ?_) fun _ => .pure hs₁
        rintro _ _ ⟨⟩
        refine .bind fun _ s₂ hrun => .bind fun _ s₃ hrun' => .pure ?_
        refine hcomma b s₁ s₁.lookahead.position hs₁ () s₃ ?_
        rw [run_bind, hrun]
        exact hrun'
  have hiterate (fuel : Nat) (a : σ) {s : State} (hs : Holds a s) :
      Leads (Reading.iterate (commaRound closer item afterComma) fuel a) s Holds := by
    induction fuel generalizing a s with
    | zero => exact fun _ _ => nofun
    | succ fuel ih =>
        refine .bind fun r s₁ hrun => ?_
        have hs₁ := hround a hs r s₁ hrun
        cases r with
        | again b => exact ih b hs₁
        | done b => exact .pure hs₁
  refine .bind ?_
  rintro _ _ ⟨⟩
  exact hiterate _ state hs

end Reading

end ScriptLint

import ScriptLint.Proofs.Balance.Around

/-! # Balanced steps

What a step of reading does to the tracker is a list of operations, and each of them finds what it
relies on. A step that goes through has closed what it opened, or has left open what it is meant to
leave open; one that is cut short has not closed more than it opened. That this is so is found by
the search for instances along the definition of the step, whatever the state is: nothing is assumed
of the tokens, of the options or of what was reported before.
-/

set_option synthInstance.maxSize 4096

namespace ScriptLint.Reading

open Scope (Operation Tracker)

variable {α β σ : Type} {base : Tracker} {bs bs' bs'' : List Bracket} {s : State}

/-! ## The operations of a step -/

/-- The operations that a step performs from a state on, each with the tracker that it meets. A part
that changes no tracker whatever the state performs none. -/
inductive Logs : {α : Type} → Reading α → State → List (Tracker × Operation) → Prop
  | nothing {α : Type} {step : Reading α} (s : State) :
      (∀ s, (step.run.run s).2.session.tracker = s.session.tracker) → Logs step s []
  | operation {step : Reading Unit} {operation : Operation} (s : State) :
      (∀ s, step.run.run s = (inScopes operation.perform).run.run s) →
      Logs step s [(s.session.tracker, operation)]
  | stops {α β : Type} {first : Reading α} {next : α → Reading β} {s s' : State} {stop : Stop}
      {log : List (Tracker × Operation)} :
      first.run.run s = (.error stop, s') → Logs first s log → Logs (first >>= next) s log
  | bind {α β : Type} {first : Reading α} {next : α → Reading β} {s s' : State} {a : α}
      {log log' : List (Tracker × Operation)} :
      first.run.run s = (.ok a, s') → Logs first s log → Logs (next a) s' log' →
      Logs (first >>= next) s (log ++ log')

/-- The step performs operations that find what they rely on, while all frames of the first tracker
are open. -/
def Performed (base : Tracker) (step : Reading α) (s : State) : Prop :=
  ∃ log, Logs step s log ∧ ∀ entry ∈ log,
    entry.1.Stacked ∧ base.stack <:+ entry.1.stack ∧ entry.2.Finds entry.1

/-- The step performs what finds what it relies on. If it goes through, it leads to what is said,
and if it is cut short, all frames of the first tracker are open still. -/
def Plays (base : Tracker) (step : Reading α) (s : State) (post : α → State → Prop) : Prop :=
  Performed base step s ∧
  match step.run.run s with
  | (.ok a, s') => post a s'
  | (.error _, s') => ∃ bs, base.Holds bs s'.session.tracker

namespace Plays

variable {step : Reading α} {post post' : α → State → Prop}

theorem bind {first : Reading α} {next : α → Reading β} {post : β → State → Prop}
    (hfirst : Plays base first s fun a s' => Plays base (next a) s' post) :
    Plays base (first >>= next) s post := by
  obtain ⟨⟨log, hlog, hmet⟩, houtcome⟩ := hfirst
  unfold Plays
  rw [run_bind]
  rcases hrun : first.run.run s with ⟨stop | a, s'⟩ <;> rw [hrun] at houtcome
  · exact ⟨⟨log, .stops hrun hlog, hmet⟩, houtcome⟩
  · obtain ⟨⟨log', hlog', hmet'⟩, hrest⟩ := houtcome
    refine ⟨⟨log ++ log', .bind hrun hlog hlog', fun entry hmem => ?_⟩, hrest⟩
    exact (List.mem_append.mp hmem).elim (hmet entry) (hmet' entry)

theorem mono (hstep : Plays base step s post) (himp : ∀ a s', post a s' → post' a s') :
    Plays base step s post' := by
  obtain ⟨hlog, houtcome⟩ := hstep
  refine ⟨hlog, ?_⟩
  rcases hrun : step.run.run s with ⟨stop | a, s'⟩ <;> rw [hrun] at houtcome
  · exact houtcome
  · exact himp a s' houtcome

/-- A step that changes no tracker. -/
theorem quiet (hstep : ∀ s, (step.run.run s).2.session.tracker = s.session.tracker)
    (hs : base.Holds bs s.session.tracker)
    (hpost : ∀ a s', step.run.run s = (.ok a, s') → post a s') : Plays base step s post := by
  refine ⟨⟨[], .nothing s hstep, fun _ hmem => absurd hmem List.not_mem_nil⟩, ?_⟩
  have htracker := hstep s
  rcases hrun : step.run.run s with ⟨stop | a, s'⟩ <;> rw [hrun] at htracker
  · exact ⟨bs, htracker ▸ hs⟩
  · exact hpost a s' hrun

end Plays

/-! ## Balance -/

/-- Where the first constructs are open, innermost first, the step leaves the second ones open if it
goes through, and the depth of nesting is the same. -/
class Balances (bs : List Bracket) (step : Reading α) (bs' : outParam (List Bracket)) : Prop where
  plays {base : Tracker} {s : State} : base.Holds bs s.session.tracker →
    Plays base step s fun _ s' => base.Holds bs' s'.session.tracker ∧ s'.depth = s.depth

namespace Balances

/-! ## Sequences and choices -/

/-- A step that changes neither the tracker nor the depth. -/
theorem quiet {step : Reading α} (hstep : ∀ s, (step.run.run s).2.session.tracker =
    s.session.tracker ∧ (step.run.run s).2.depth = s.depth) : Balances bs step bs where
  plays {base s} hs := .quiet (fun s => (hstep s).1) hs fun a s' hrun => by
    obtain ⟨htracker, hdepth⟩ := hstep s
    rw [hrun] at htracker hdepth
    exact ⟨htracker ▸ hs, hdepth⟩

instance (a : α) : Balances bs (Pure.pure a : Reading α) bs := quiet fun _ => ⟨rfl, rfl⟩

protected theorem bind {first : Reading α} {next : α → Reading β}
    (hfirst : Balances bs first bs') (hnext : ∀ a, Balances bs' (next a) bs'') :
    Balances bs (first >>= next) bs'' where
  plays hs := .bind <| (hfirst.plays hs).mono fun a _ h =>
    ((hnext a).plays h.1).mono fun _ _ h' => ⟨h'.1, h'.2.trans h.2⟩

instance {first : Reading α} {next : α → Reading β} [hfirst : Balances bs first bs']
    [hnext : ∀ a, Balances bs' (next a) bs''] : Balances bs (first >>= next) bs'' :=
  .bind hfirst hnext

instance {c : Prop} [Decidable c] {first second : Reading α} [hfirst : Balances bs first bs']
    [hsecond : Balances bs second bs'] : Balances bs (if c then first else second) bs' := by
  split <;> infer_instance

instance {items : List α} {step : α → Reading PUnit} [hstep : ∀ a, Balances bs (step a) bs] :
    Balances bs (items.forM step) bs := by
  induction items with
  | nil => exact inferInstanceAs (Balances bs (Pure.pure _) bs)
  | cons a rest ih => exact .bind (hstep a) fun _ => ih

instance {item? : Option α} {step : α → Reading PUnit} [hstep : ∀ a, Balances bs (step a) bs] :
    Balances bs (item?.forM step) bs := by
  cases item? with
  | none => exact inferInstanceAs (Balances bs (Pure.pure _) bs)
  | some a => exact hstep a

/-! ## What is known -/

instance : Balances bs (get : Reading State) bs := quiet fun _ => ⟨rfl, rfl⟩

instance : Balances bs token bs := quiet fun _ => ⟨rfl, rfl⟩

instance : Balances bs previous bs := quiet fun _ => ⟨rfl, rfl⟩

instance : Balances bs options bs := quiet fun _ => ⟨rfl, rfl⟩

instance : Balances bs tracker bs := quiet fun _ => ⟨rfl, rfl⟩

instance : Balances bs isStrict bs := quiet fun _ => ⟨rfl, rfl⟩

instance (edition : Edition) : Balances bs (isBefore edition) bs := quiet fun _ => ⟨rfl, rfl⟩

instance (p : String) : Balances bs (atPunctuator p) bs := quiet fun _ => ⟨rfl, rfl⟩

instance (word : String) : Balances bs (atKeyword word) bs := quiet fun _ => ⟨rfl, rfl⟩

instance (word : String) : Balances bs (atWord word) bs := quiet fun _ => ⟨rfl, rfl⟩

instance : Balances bs peek bs := quiet fun _ => ⟨rfl, rfl⟩

instance : Balances bs peekSecond bs := quiet fun _ => ⟨rfl, rfl⟩

instance : Balances bs inGenerator bs := quiet fun _ => ⟨rfl, rfl⟩

instance : Balances bs inAsync bs := quiet fun _ => ⟨rfl, rfl⟩

instance (stop : Stop) : Balances bs (throw stop : Reading α) bs := quiet fun _ => ⟨rfl, rfl⟩

instance (c : Cursor) : Balances bs (tokenAfterGroupFrom c) bs := by
  unfold tokenAfterGroupFrom
  refine .bind inferInstance fun _ => ?_
  dsimp only
  split <;> infer_instance

instance : Balances bs tokenAfterGroup bs := .bind inferInstance fun _ => inferInstance

instance : Balances bs tokenAfterNextGroup bs := .bind inferInstance fun _ => inferInstance

instance (name : String) : Balances bs (isReserved name) bs := by
  unfold isReserved
  refine .bind inferInstance fun o => ?_
  split <;> infer_instance

/-! ## Scopes -/

/-- A step that performs an operation which finds what it relies on. -/
theorem of_perform {step : Reading Unit} {operation : Operation}
    (hrun : ∀ s, step.run.run s = (inScopes operation.perform).run.run s)
    (hperform : ∀ {base : Tracker} {s : Scope.Session}, base.Holds bs s.tracker →
      operation.Finds s.tracker ∧ base.Holds bs' (operation.perform.run.run s).2.tracker) :
    Balances bs step bs' where
  plays {base s} hs := by
    obtain ⟨hfinds, hholds⟩ := hperform hs
    refine ⟨⟨_, .operation s hrun, fun entry hmem => ?_⟩, ?_⟩
    · rw [List.mem_singleton.mp hmem]
      exact ⟨hs.stacked, hs.outer, hfinds⟩
    · rw [hrun, run_inScopes]
      rcases houtcome : operation.perform.run.run s.session with ⟨reason | a, session⟩ <;>
        rw [houtcome] at hholds
      · exact ⟨bs', hholds⟩
      · exact ⟨hholds, rfl⟩

instance {step : Reading Unit} {operation : Operation} [hstep : Performs step operation]
    [hturns : operation.Turns bs bs'] : Balances bs step bs' :=
  of_perform hstep.run fun hs => hs.perform hturns

/-- A change that concerns no frame. -/
theorem still {change : Tracker → Tracker} (operation : Operation)
    (hperform : ∀ s, (track change).run.run s = (inScopes operation.perform).run.run s)
    (hshift : ∀ es, operation.shift es = es)
    (hstack : ∀ size ids, operation.stackAfter size ids = ids)
    (hfinds : ∀ t, operation.Finds t) : Balances bs (track change) bs :=
  of_perform hperform fun hs => ⟨hfinds _, hs.still hshift hstack⟩

instance (name : String) (writable : Bool) : Balances bs (track (·.addKnown name writable)) bs :=
  still (.addKnown name writable) (fun _ => rfl) (fun _ => rfl) (fun _ _ => rfl)
    fun _ => trivial

instance (name : String) : Balances bs (track (·.removeKnown name)) bs :=
  still (.removeKnown name) (fun _ => rfl) (fun _ => rfl) (fun _ _ => rfl) fun _ => trivial

instance (rules : Scope.Rules) : Balances bs (track (·.setRules rules)) bs :=
  still (.setRules rules) (fun _ => rfl) (fun _ => rfl) (fun _ _ => rfl) fun _ => trivial

instance (name : String) (position : Position) (access : Scope.Access) :
    Balances bs (addReference name position access) bs := by
  have hadd : Balances bs (track (·.addReference name position access)) bs :=
    still (.addReference name position access) (fun _ => rfl) (fun _ => rfl) (fun _ _ => rfl)
      fun _ => trivial
  unfold addReference
  infer_instance

instance (kind : Scope.BindingKind) (names : List BoundName) :
    Balances bs (declareAll kind names) bs := by
  unfold declareAll
  infer_instance

/-! ## Reports, ends and options -/

instance (code : String) (position : Position) (arguments : List String)
    (hcode : Halt.IsRegular code) : Balances bs (report code position arguments hcode) bs := by
  have hreport (scope : String) : Balances bs
      (inScopes (Scope.Action.report code position arguments scope hcode)) bs :=
    quiet fun s => by rw [run_inScopes, Scope.Action.run_report]; exact ⟨rfl, rfl⟩
  unfold report
  infer_instance

instance (issue : LexicalIssue) : Balances bs (reportIssue issue) bs := by
  unfold reportIssue
  infer_instance

instance (change : Sink → Sink) : Balances bs (adjustSink change) bs := quiet fun _ => ⟨rfl, rfl⟩

instance (change : Options → Options) : Balances bs (adjustOptions change) bs :=
  quiet fun _ => ⟨rfl, rfl⟩

instance (reason : Halt) (position : Position) :
    Balances bs (halt reason position : Reading α) bs := by
  unfold halt
  infer_instance

instance (feature : String) (since : Edition) (position : Position) :
    Balances bs (requireEdition feature since position) bs := by
  unfold requireEdition
  infer_instance

instance (feature : String) (position : Position) :
    Balances bs (requireModern feature position) bs := by
  unfold requireModern
  infer_instance

instance (target : Expression) (access : Scope.Access) :
    Balances bs (assignmentTarget target access) bs := by
  unfold assignmentTarget
  split <;> infer_instance

/-! ## Bounds and loops -/

/-- One level deeper, the step is on the same level as before once it has gone through. -/
protected theorem nested {step : Reading α} (hstep : Balances bs step bs) :
    Balances bs (nested step) bs where
  plays {base s} hs := by
    refine .bind (.quiet (fun _ => rfl) hs ?_)
    rintro _ _ ⟨⟩
    refine .bind (.quiet (fun _ => rfl) hs ?_)
    rintro _ _ ⟨⟩
    dsimp only
    split
    · exact .quiet (fun _ => rfl) hs fun _ _ hrun => nomatch hrun
    · have hdeeper := hstep.plays (s := { s with depth := s.depth + 1 }) hs
      refine .bind (hdeeper.mono fun a s' h => .bind (.quiet (fun _ => rfl) h.1 ?_))
      rintro _ _ ⟨⟩
      refine .quiet (fun _ => rfl) h.1 ?_
      rintro _ _ ⟨⟩
      exact ⟨h.1, Nat.sub_eq_of_eq_add h.2⟩

instance {step : Reading α} [hstep : Balances bs step bs] : Balances bs (nested step) bs :=
  .nested hstep

instance (excluded : Bool) : Balances bs (setInExcluded excluded) bs := quiet fun _ => ⟨rfl, rfl⟩

instance {step : Reading α} [Balances bs step bs] : Balances bs (allowingIn step) bs := by
  unfold allowingIn
  infer_instance

instance {step : Reading α} [Balances bs step bs] : Balances bs (excludingIn step) bs := by
  unfold excludingIn
  infer_instance

theorem iterate {round : σ → Reading (Round σ α)}
    (hround : ∀ state, Balances bs (round state) bs) (fuel : Nat) (state : σ) :
    Balances bs (iterate round fuel state) bs := by
  induction fuel generalizing state with
  | zero => exact quiet fun _ => ⟨rfl, rfl⟩
  | succ fuel ih =>
      unfold Reading.iterate
      refine .bind (hround state) fun r => ?_
      cases r with
      | again state => exact ih state
      | done answer => infer_instance

instance {state : σ} {round : σ → Reading (Round σ α)}
    [hround : ∀ state, Balances bs (round state) bs] :
    Balances bs (repeatFrom state round) bs :=
  .bind inferInstance fun _ => .iterate hround _ _

instance {round : Reading Bool} [Balances bs round bs] : Balances bs (repeatWhile round) bs := by
  unfold repeatWhile
  infer_instance

/-! ## Comments -/

instance (name : String) (position : Position) : Balances bs (badOption name position) bs := by
  unfold badOption
  infer_instance

instance {rule : Type} (name : String) (position : Position) (found : Except OptionError rule)
    (change : rule → Options → Options) :
    Balances bs (applyRule name position found change) bs := by
  unfold applyRule
  split <;> infer_instance

instance (name value : String) (position : Position) :
    Balances bs (applyFlag name value position) bs := by
  unfold applyFlag
  dsimp only
  split <;> infer_instance

instance (value : String) (position : Position) : Balances bs (applyLimit value position) bs := by
  unfold applyLimit
  split <;> infer_instance

instance (value : String) (position : Position) : Balances bs (applyIgnore value position) bs := by
  unfold applyIgnore
  split <;> infer_instance

instance (name value : String) (position : Position) :
    Balances bs (applyValue name value position) bs := by
  unfold applyValue
  dsimp only
  split
  case h_2 => split <;> infer_instance
  all_goals infer_instance

instance (position : Position) (item : String × Option String) :
    Balances bs (applyItem position item) bs := by
  unfold applyItem
  dsimp only
  split
  · infer_instance
  · split <;> infer_instance

instance (item : String × Option String) : Balances bs (applyGlobal item) bs := by
  unfold applyGlobal
  split <;> infer_instance

instance (d : Directive) : Balances bs (applyDirective d) bs := by
  unfold applyDirective
  split <;> infer_instance

/-! ## Consuming tokens -/

instance (issues : List LexicalIssue) : Balances bs (reportIssues issues) bs := by
  unfold reportIssues
  infer_instance

instance : Balances bs checkFatal bs := by
  unfold checkFatal
  refine .bind inferInstance fun t => ?_
  split <;> infer_instance

instance : Balances bs acceptLookahead bs := by
  unfold acceptLookahead
  infer_instance

instance : Balances bs advance bs := by
  have (t : Token) : Balances bs (modify fun s : State =>
      { s with consumed := t :: s.consumed, lookahead := Token.next t.stop } : Reading Unit) bs :=
    quiet fun _ => ⟨rfl, rfl⟩
  unfold advance
  infer_instance

instance (t : Token) : Balances bs (replaceLookahead t) bs := quiet fun _ => ⟨rfl, rfl⟩

instance : Balances bs rescanRegexp bs := by
  unfold rescanRegexp
  infer_instance

instance : Balances bs rescanTemplate bs := by
  unfold rescanTemplate
  infer_instance

instance : Balances bs (earlyEnd : Reading α) bs := by
  unfold earlyEnd
  infer_instance

/-! ## Expected tokens -/

instance (shown : String) (position : Position) :
    Balances bs (reportUnexpected shown position) bs := by
  unfold reportUnexpected
  infer_instance

instance (wanted : String) (t : Token) : Balances bs (reportInstead wanted t) bs := by
  unfold reportInstead
  infer_instance

instance (t : Token) : Balances bs (reportNoName t) bs := by
  unfold reportNoName
  infer_instance

instance (name : String) (position : Position) :
    Balances bs (reportReserved name position) bs := by
  unfold reportReserved
  infer_instance

instance (position : Position) : Balances bs (reportExtraComma position) bs := by
  unfold reportExtraComma
  infer_instance

instance (wanted : String) : Balances bs (unexpectedInstead wanted) bs := by
  unfold unexpectedInstead
  infer_instance

instance (p : String) : Balances bs (expectPunctuator p) bs := by
  unfold expectPunctuator
  infer_instance

instance (word : String) : Balances bs (expectKeyword word) bs := by
  unfold expectKeyword
  infer_instance

instance (word : String) : Balances bs (expectWord word) bs := by
  unfold expectWord
  infer_instance

instance (p : String) : Balances bs (acceptPunctuator p) bs := by
  unfold acceptPunctuator
  infer_instance

instance (afterDo : Bool) : Balances bs (endStatement afterDo) bs := by
  unfold endStatement
  infer_instance

instance : Balances bs semicolon bs := by
  unfold semicolon
  infer_instance

instance : Balances bs bindingName bs := by
  unfold bindingName
  infer_instance

instance {closer : String} {item : σ → Reading (Round σ σ)}
    {afterComma : σ → Position → Reading Unit} {state : σ}
    [hitem : ∀ state, Balances bs (item state) bs]
    [hcomma : ∀ state comma, Balances bs (afterComma state comma) bs] :
    Balances bs (commaRound closer item afterComma state) bs := by
  unfold commaRound
  refine .bind inferInstance fun _ => ?_
  split
  · infer_instance
  · refine .bind (hitem state) fun r => ?_
    cases r <;> infer_instance

instance {closer : String} {state : σ} {item : σ → Reading (Round σ σ)}
    {afterComma : σ → Position → Reading Unit} [hitem : ∀ state, Balances bs (item state) bs]
    [hcomma : ∀ state comma, Balances bs (afterComma state comma) bs] :
    Balances bs (commaList closer state item afterComma) bs := by
  unfold commaList
  infer_instance

instance (state : σ) (comma : Position) : Balances bs (noTrailingCheck state comma) bs := by
  unfold noTrailingCheck
  infer_instance

end Balances

end ScriptLint.Reading

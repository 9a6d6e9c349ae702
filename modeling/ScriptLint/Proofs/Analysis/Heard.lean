import ScriptLint.Proofs.Analysis.Ending
import ScriptLint.Proofs.Analysis.Flag
import ScriptLint.Proofs.Analysis.Implied
import ScriptLint.Proofs.Lockstep.Tolerance

/-! # From a source to a place in it

An analysis comes across the head of a loop, or hears a comment, after all that stands in front. What
follows from there is told by the tokens of the source.
-/

/-! ## The heads of loops

In the first part of the head of a `for` loop `in` is no operator. Brackets of any kind lift this
restriction for what stands in them, but the bodies of functions and of classes do not, so it
reaches into them; and a loop in such a body lifts it for the rest of the head around. What it can
change is how the word `in` is read, and nothing else.
-/

namespace ScriptLint.Reading

/-- The steps that read a part of a program which may stand in the head of a loop. -/
inductive ReadsPart (self : Productions) : {α : Type} → Reading α → Prop
  | functionExpression (async : Bool) : ReadsPart self (functionExpression self async)
  | arrowFunction (async : Bool) : ReadsPart self (arrowFunction self async)
  | classExpression : ReadsPart self (readClass self false true)
  | expression (power : Nat) : ReadsPart self (self.expression power)
  | operand : ReadsPart self self.operand
  | statement (inList : Bool) : ReadsPart self (self.statement inList)
  | bindingTarget : ReadsPart self self.bindingTarget
  | assignmentPattern : ReadsPart self self.assignmentPattern

theorem ReadsPart.steady {self : Productions} {n : Nat} [self.Steady n] {α : Type}
    {step : Reading α} (hstep : ReadsPart self step) : Steady n step := by
  cases hstep <;> infer_instance

/-- Where the source does not spell out the word, none of the tokens is the word. -/
theorem startState_freeOfIn {source : String} (hsource : ¬ "in".toList <:+: source.toList)
    (o : Options) (known : KnownGlobals) (s : State) :
    (Analysis.startState source o known).FreeOfIn s := by
  intro t ht _
  by_contra hword
  exact hsource (Token.LeadsTo.isInfix_of_isKeyword ht (by simpa using hword))

/-- In a function the word makes a difference, and behind a loop in one it makes none. -/
example :
    let codes (source : String) :=
      (Analysis.ofSource source { edition := .es2015 } {}).diagnostics.map (·.code)
    codes "var f=()=>\x7breturn 0 in 0;\x7d;" = [] ∧
      codes "for(var f=()=>\x7breturn 0 in 0;\x7d;;);" = ["E058", "E024", "E058", "W030"] ∧
      codes "for(var f=()=>\x7bfor(var i=0;;);\x7d,x=0 in 0;;);" = [] := by
  decide +kernel

end ScriptLint.Reading

/-! ## Comments heard in the course of reading

A comment that sets a flag is heard once the token behind it comes next, while checks about what
stands in front of it may still have to be made: a statement is judged when it is over, and a missing
semicolon when another token has come. So the comment may change the reports about earlier places.
But wherever it is heard, it takes nothing back, and among all that is reported from then on it
changes nothing but the reports of the codes that the flag decides about.
-/

namespace ScriptLint

/-- The comment that gives a flag a value. -/
def Flag.comment (flag : Flag) (value : Bool) (position : Position) : Directive :=
  ⟨.jshint, s!"{flag.name}: {value}", position⟩

/-- The comment as it is written. -/
theorem Directive.ofComment?_flag (flag : Flag) (value : Bool) (position : Position) :
    ofComment? s!" jshint {flag.name}: {value} ".toList true position =
      some (flag.comment value position) := by
  cases flag <;> cases value <;> rfl

theorem Flag.comment_items (flag : Flag) (value : Bool) (position : Position) :
    (flag.comment value position).items = [(flag.name, some (toString value))] := by
  change (flag.comment value .start).items = _
  cases flag <;> cases value <;> decide +kernel

namespace Reading

variable {α : Type}

/-- The pieces of which a program is read in turn. -/
inductive Piece (self : Productions) : {α : Type} → Reading α → Prop
  | directives (simpleParameters? : Option Bool) : Piece self (directives simpleParameters?)
  | token : Piece self advance
  | expected (p : String) : Piece self (expectPunctuator p)
  | semicolon : Piece self semicolon
  | part {α : Type} {step : Reading α} : ReadsPart self step → Piece self step
  | statements (top : Bool) : Piece self (statementList self top)

/-- Reading goes on with pieces, one after another, each of which may depend on what came before. -/
inductive ReadsOn (self : Productions) : Reading Unit → Prop
  | nothing : ReadsOn self (pure ())
  | piece {α : Type} {first : Reading α} {next : α → Reading Unit} : Piece self first →
      (∀ a, ReadsOn self (next a)) → ReadsOn self (first >>= next)

/-- The answer of a step may be forgotten. -/
theorem Lockstep.forget {p : Pairing} [HasPlaces α] {step : Reading α} (hstep : Lockstep p step) :
    @Lockstep α noPlaces p step := by
  refine @Lockstep.mk α noPlaces p step (fun hs => ?_) hstep.run
  have h := hstep.proceeds hs
  exact @Proceeds.mk α noPlaces _ _ _ h.comments h.within fun _ _ => trivial

section

variable {self : Productions}

theorem Piece.lockstep {p : Pairing} [p.Lawful] [self.Lockstep p] {step : Reading α}
    (hstep : Piece self step) : @Lockstep α noPlaces p step := by
  cases hstep with
  | part hpart => cases hpart <;> exact Lockstep.forget inferInstance
  | _ => exact Lockstep.forget inferInstance

theorem Piece.stepwise [self.Steady 0] {step : Reading α} (hstep : Piece self step) :
    Stepwise step := by
  cases hstep with
  | part hpart => exact (hpart.steady (n := 0)).stepwise
  | _ => exact Steady.stepwise 0

theorem Piece.upholds {I : Invariant} [I.Lawful] [self.Upholds I] {step : Reading α}
    (hstep : Piece self step) : Upholds I [] step [] := by
  cases hstep with
  | part hpart => cases hpart <;> infer_instance
  | _ => infer_instance

end

/-! ### A comment about a flag -/

section

variable {flag : Flag} (value : Bool) (position : Position)

/-- The comment sets the flag and reports nothing. -/
theorem run_comment (s : State) : (applyDirective (flag.comment value position)).run.run s =
    (.ok (), { s with
      options := s.options.set flag value
      session.tracker := s.session.tracker.setRules (.ofOptions (s.options.set flag value)) }) := by
  change ((flag.comment value position).items.forM (applyItem position) >>= fun _ =>
    options >>= fun o => track (·.setRules (Scope.Rules.ofOptions o))).run.run s = _
  rw [Flag.comment_items]
  cases flag <;> cases value <;> rfl

/-- To set a flag makes no difference under its tolerant value. -/
theorem relax_set (hcodes : flag.codes ≠ []) (o : Options) :
    (o.set flag value).relax (some flag) = o.relax (some flag) := by
  rw [← Options.set_eq_relax o hcodes]
  exact (if_neg hcodes).symm

/-- The states before and after the comment belong together. -/
theorem relates_comment {c : Cursor} (hcodes : flag.codes ≠ []) {s : State}
    (hs : (Pairing.varied c (some flag)).Relates s s) (hruled : s.Ruled) :
    (Pairing.varied c (some flag)).Relates s
      ((applyDirective (flag.comment value position)).run.run s).2 := by
  rw [run_comment]
  obtain ⟨m, h, -⟩ := hs.session
  refine ⟨relax_set value hcodes s.options, ⟨m, h, ?_, h.anchored.of_frames_eq rfl rfl, h.sink⟩, hs.within,
    rfl, rfl, rfl, rfl, rfl, rfl⟩
  rw [h.tracker, Scope.Tracker.relax, hruled, ← Scope.Rules.ofOptions_relax,
    ← relax_set value hcodes s.options, Scope.Rules.ofOptions_relax]
  rfl

end

end Reading

namespace Sink

/-- What is left in the end apart from some codes can be told without the reports of these codes. -/
theorem finish_filter (codes : List String) (a : Sink) :
    a.finish.filter (·.code ∉ codes) = (a.silence codes).finish.filter (·.code ∉ codes) := by
  unfold finish
  rw [List.filter_append, List.filter_append]
  simp only [silence, Array.toList_filter, List.filter_filter]
  refine congrArg (· ++ _) (List.filter_congr fun d _ => ?_)
  cases decide (d.code ∉ codes) <;> simp

end Sink

namespace Reading

/-- A program that is read in pieces, with something in between. -/
def inPieces (first between rest : Reading Unit) : Reading Unit := do
  acceptLookahead
  first
  between
  rest
  inScopes Scope.Action.finish

theorem run_inPieces (first between rest : Reading Unit) (s : State) :
    (inPieces first between rest).run.run s =
      match (acceptLookahead >>= fun _ => first).run.run s with
      | (.ok _, s') => (between >>= fun _ => rest >>= fun _ => inScopes .finish).run.run s'
      | (.error stop, s') => (.error stop, s') := by
  have hassoc : inPieces first between rest = (acceptLookahead >>= fun _ => first) >>= fun _ =>
      between >>= fun _ => rest >>= fun _ => inScopes .finish := by
    rw [bind_assoc]
    rfl
  rw [hassoc, run_bind]
  rcases (acceptLookahead >>= fun _ => first).run.run s with ⟨_ | _, s'⟩ <;> rfl

theorem ReadsOn.lockstep {p : Pairing} [p.Lawful] {self : Productions} [self.Lockstep p]
    {step : Reading Unit} (hstep : ReadsOn self step) : Lockstep p step := by
  induction hstep with
  | nothing => infer_instance
  | piece hfirst hnext ih => exact @Lockstep.bind _ _ p noPlaces _ _ _ hfirst.lockstep fun a => ih a.1

theorem ReadsOn.stepwise {self : Productions} [self.Steady 0] {step : Reading Unit}
    (hstep : ReadsOn self step) : Stepwise step := by
  induction hstep with
  | nothing => exact .pure ()
  | piece hfirst hnext ih => exact .bind hfirst.stepwise ih

theorem ReadsOn.upholds {I : Invariant} [I.Lawful] {self : Productions} [self.Upholds I]
    {step : Reading Unit} (hstep : ReadsOn self step) : Upholds I [] step [] := by
  induction hstep with
  | nothing => infer_instance
  | piece hfirst hnext ih => exact .bind hfirst.upholds ih

/-- The second run has reported what the first one has, up to some codes. -/
structure SpareCodes (codes : List String) (before : Sink) (result result' : Except Stop Unit × State) :
    Prop where
  outcome : result'.1 = result.1
  consumed : result'.2.consumed = result.2.consumed
  summary : result'.2.session.tracker.summary = result.2.session.tracker.summary
  diagnostics : result'.2.session.sink.finish.filter (·.code ∉ codes) =
    result.2.session.sink.finish.filter (·.code ∉ codes)
  added : ∃ added added', result.2.session.sink.accepted.toList = before.accepted.toList ++ added ∧
    result'.2.session.sink.accepted.toList = before.accepted.toList ++ added' ∧
    added'.filter (·.code ∉ codes) = added.filter (·.code ∉ codes)

theorem SpareCodes.of_agree {c : Cursor} {flag? : Option Flag} {before : Sink}
    {result result' : Except Stop Unit × State}
    (hagree : (Pairing.varied c flag?).Agree result result')
    (hgrows : before.Grows result.2.session.sink) (hgrows' : before.Grows result'.2.session.sink) :
    SpareCodes (Flag.spared flag?) before result result' := by
  obtain ⟨houtcome, hstate⟩ := hagree
  obtain ⟨m, h, h'⟩ := hstate.session
  have hsummary {s : Scope.Session} (h : s.Twins c flag? m) : s.tracker.summary = m.tracker.summary := by
    rw [h.tracker]
    rfl
  have hsilence : result'.2.session.sink.silence (Flag.spared flag?) =
      result.2.session.sink.silence (Flag.spared flag?) := h'.sink.eq.symm.trans h.sink.eq
  refine ⟨houtcome, hstate.consumed, (hsummary h').trans (hsummary h).symm, ?_, ?_⟩
  · rw [Sink.finish_filter, hsilence, ← Sink.finish_filter]
  · obtain ⟨added, hadded⟩ := hgrows.accepted
    obtain ⟨added', hadded'⟩ := hgrows'.accepted
    refine ⟨added, added', hadded.symm, hadded'.symm, ?_⟩
    have hfilter := congrArg (·.accepted.toList) hsilence
    simp only [Sink.silence, Array.toList_filter, ← hadded, ← hadded', List.filter_append] at hfilter
    exact List.append_cancel_left hfilter

end Reading

namespace Analysis

open Reading

variable {source : String} {o : Options} {known : KnownGlobals}

end Analysis

end ScriptLint

import ScriptLint.Proofs.Invariant.Program
import ScriptLint.Proofs.Lexing.Space
import ScriptLint.Proofs.Lockstep.Basic
import ScriptLint.Proofs.Scope.Unlimited

/-! # Reports of spaces

The problems of a token are reported when it is consumed, so at any time the non-breaking spaces that
were told are those that consumed tokens note. All else that happens on the way tells of other things,
as long as no comment sets options.
-/

set_option synthInstance.maxSize 4096

namespace ScriptLint

open Scope (Operation)

namespace Scope.Operation.Turns

open Action (ReportsOnly scopeCodes)

variable {operation : Operation} {bs bs' : List Bracket}

/-- What productions perform is put together from steps, and it reports with codes of its own. -/
theorem reports (hturns : operation.Turns bs bs') :
    operation.perform.Stepwise ∧ ReportsOnly scopeCodes operation.perform := by
  have hupdate (change : Tracker → Tracker) : (Action.update change).Stepwise ∧
      ReportsOnly scopeCodes (Action.update change) := ⟨inferInstance, inferInstance⟩
  have hdeclare (action : Action Unit) [hsteps : action.Stepwise]
      [hreports : ReportsOnly scopeCodes action] :
      action.Stepwise ∧ ReportsOnly scopeCodes action := ⟨hsteps, hreports⟩
  cases hturns with
  | exitScope => exact hdeclare Action.exitScope
  | declare name kind position => exact hdeclare (Action.declare name kind position)
  | declareBlockFunction name position => exact hdeclare (Action.declareBlockFunction name position)
  | declareParameter name position distinct =>
      exact hdeclare (Action.declareParameter name position distinct)
  | _ => exact hupdate _

end Scope.Operation.Turns

namespace Reading

variable {α β σ : Type} {code : String} {New New' : Nat × Nat → Prop} {s s' s'' : State}

/-! ## What a step tells -/

/-- Between the states nothing was consumed, no option was set and no line was ignored, and of one
code new places were told. -/
structure State.Gains (code : String) (New : Nat × Nat → Prop) (s s' : State) : Prop where
  lookahead : s'.lookahead = s.lookahead
  consumed : s'.consumed = s.consumed
  options : s'.options = s.options
  ignoredLines : s'.session.sink.ignoredLines = s.session.sink.ignoredLines
  sink : s.session.sink.Gains code New s'.session.sink

namespace State.Gains

theorem refl (s : State) : s.Gains code (fun _ => False) s := ⟨rfl, rfl, rfl, rfl, .refl _⟩

theorem trans (hfirst : s.Gains code New s') (hsecond : s'.Gains code New' s'') :
    s.Gains code (fun place => New place ∨ New' place) s'' :=
  ⟨hsecond.lookahead.trans hfirst.lookahead, hsecond.consumed.trans hfirst.consumed,
    hsecond.options.trans hfirst.options, hsecond.ignoredLines.trans hfirst.ignoredLines,
    hfirst.sink.trans hsecond.sink⟩

theorem congr (hgains : s.Gains code New s') (hnew : ∀ place, New place ↔ New' place) :
    s.Gains code New' s' :=
  ⟨hgains.lookahead, hgains.consumed, hgains.options, hgains.ignoredLines, hgains.sink.congr hnew⟩

end State.Gains

/-- The step stays where it is and tells nothing of the code. -/
class Spares (code : String) (step : Reading α) : Prop where
  leads (s : State) : Leads step s fun _ s' => s.Gains code (fun _ => False) s'

namespace Spares

instance (a : α) : Spares code (Pure.pure a : Reading α) := ⟨fun s => .pure (.refl s)⟩

protected theorem bind {first : Reading α} {next : α → Reading β} (hfirst : Spares code first)
    (hnext : ∀ a, Spares code (next a)) : Spares code (first >>= next) where
  leads s := .bind fun a s' hrun b s'' hrun' => by
    have hgains := (hfirst.leads s a s' hrun).trans ((hnext a).leads s' b s'' hrun')
    exact hgains.congr fun _ => or_self_iff

theorem forM {items : List α} {step : α → Reading PUnit} (hstep : ∀ a, Spares code (step a)) :
    Spares code (items.forM step) := by
  induction items with
  | nil => exact inferInstanceAs (Spares code (Pure.pure _))
  | cons a rest ih => exact .bind (hstep a) fun _ => ih

instance (name : String) (position : Position) (access : Scope.Access) :
    Spares code (addReference name position access) :=
  ⟨fun _ => .tracker (.bind (.track (.pure ⟨rfl, rfl, rfl, rfl, .refl _⟩)))⟩

instance (change : Scope.Tracker → Scope.Tracker) : Spares code (track change) :=
  ⟨fun _ => .track ⟨rfl, rfl, rfl, rfl, .refl _⟩⟩

/-- What an action reports does not matter if it is something else. -/
theorem inScopes {codes : List String} {action : Scope.Action α}
    (hreports : Scope.Action.ReportsOnly codes action) (haction : action.Stepwise)
    (hcode : code ∉ codes) : Spares code (inScopes action) where
  leads s a s' hrun := by
    have hlines := haction.relates (R := fun a b => b.ignoredLines = a.ignoredLines)
      (fun _ => rfl) (fun hab hbc => hbc.trans hab)
      (fun a code position arguments scope => by
        obtain ⟨_, _, hframe⟩ := Sink.report_frame a code position arguments scope
        rw [hframe]) s.session
    rw [run_inScopes] at hrun
    obtain ⟨-, rfl⟩ := Prod.mk.inj hrun
    exact ⟨rfl, rfl, rfl, hlines, hreports.spares_sink haction hcode s.session⟩

/-- A comment that sets no option changes only which names are known or exported. -/
theorem applyDirective {d : Directive} (hd : d.kind ≠ .jshint ∧ d.kind ≠ .jslint) :
    Spares code (applyDirective d) := by
  have hglobal (item : String × Option String) : Spares code (applyGlobal item) := by
    unfold applyGlobal
    split <;> infer_instance
  unfold Reading.applyDirective
  split
  next hkind => exact absurd hkind hd.1
  next hkind => exact absurd hkind hd.2
  next => exact .forM hglobal
  next => exact .forM fun _ => inferInstance
  next => infer_instance

instance : Spares code checkFatal where
  leads s := by
    unfold checkFatal
    refine .bind ?_
    rintro _ _ ⟨⟩
    split
    · exact .pure (.refl s)
    · refine .after fun _ _ _ _ hrun => ?_
      cases hrun

end Spares

/-- A report that goes on changes the sink and nothing else. -/
theorem report_leads {code : String} {position : Position} {arguments : List String}
    {hregular : Halt.IsRegular code} (s : State) :
    Leads (report code position arguments hregular) s fun _ s' => ∃ scope,
      s' = { s with session.sink := (s.session.sink.report code position arguments scope).2 } := by
  refine .tracker fun _ s' hrun => ?_
  rw [run_inScopes, Scope.Action.run_report] at hrun
  obtain ⟨-, rfl⟩ := Prod.mk.inj hrun
  exact ⟨_, rfl⟩

theorem report_gains (code' : String) (position : Position) (arguments : List String)
    (hcode : Halt.IsRegular code') (s : State) :
    Leads (report code' position arguments hcode) s fun _ s' =>
      s.Gains code (fun place => code' = code ∧ position.place = place) s' := by
  refine (report_leads s).mono ?_
  rintro _ _ ⟨scope, rfl⟩
  obtain ⟨_, _, hframe⟩ := Sink.report_frame s.session.sink code' position arguments scope
  exact ⟨rfl, rfl, rfl, by rw [hframe], .report s.session.sink code' position arguments scope⟩

theorem Spares.report {code' : String} (hother : code' ≠ code) (position : Position)
    (arguments : List String) (hcode : Halt.IsRegular code') :
    Spares code (report code' position arguments hcode) where
  leads s a s' hrun :=
    (report_gains code' position arguments hcode s a s' hrun).congr fun _ => by simp [hother]

/-- All spaces among the problems are told if they are to be reported. -/
theorem reportIssues_gains (issues : List LexicalIssue) (hspaces : s.options.nonbsp = true) :
    Leads (reportIssues issues) s fun _ s' => s.Gains "W125"
      (fun place => ∃ issue ∈ issues, issue.code = "W125" ∧ issue.position.place = place) s' := by
  induction issues generalizing s with
  | nil => exact .pure ((State.Gains.refl s).congr fun place => by simp)
  | cons issue issues ih =>
      have hissue : Leads (do if !tolerates (← options) issue then reportIssue issue) s fun _ s' =>
          s.Gains "W125" (fun place => issue.code = "W125" ∧ issue.position.place = place) s' := by
        refine .bind ?_
        rintro _ _ ⟨⟩
        refine .ite (fun _ => report_gains _ _ _ issue.regular s) fun htolerated => .pure ?_
        refine (State.Gains.refl s).congr fun place => (iff_of_false id ?_)
        rintro ⟨hcode, -⟩
        refine htolerated ?_
        simp [tolerates, hcode, hspaces]
      refine .bind fun _ s₁ hrun => ?_
      have hgains := hissue _ s₁ hrun
      refine (ih (hgains.options ▸ hspaces)).mono fun _ s₂ hrest => ?_
      exact (hgains.trans hrest).congr fun place => by simp

theorem acceptLookahead_gains (hplain : ∀ d ∈ s.lookahead.directives,
    d.kind ≠ .jshint ∧ d.kind ≠ .jslint) :
    Leads acceptLookahead s fun _ s' => s.Gains code (fun _ => False) s' := by
  have hdirectives (ds : List Directive) (hds : ∀ d ∈ ds, d.kind ≠ .jshint ∧ d.kind ≠ .jslint) :
      Spares code (ds.forM applyDirective) := by
    induction ds with
    | nil => exact inferInstanceAs (Spares code (Pure.pure _))
    | cons d ds ih =>
        exact .bind (.applyDirective (hds d List.mem_cons_self)) fun _ =>
          ih fun d' hmem => hds d' (List.mem_cons_of_mem _ hmem)
  refine .bind ?_
  rintro _ _ ⟨⟩
  have hrest : Spares code (do s.lookahead.directives.forM applyDirective; checkFatal) :=
    .bind (hdirectives _ hplain) fun _ => inferInstance
  exact hrest.leads s

/-- When a token is consumed, the spaces that it notes are told. -/
theorem advance_gains (hspaces : s.options.nonbsp = true)
    (hplain : ∀ d ∈ s.behind.lookahead.directives, d.kind ≠ .jshint ∧ d.kind ≠ .jslint) :
    Leads advance s fun _ s' => s.behind.Gains "W125"
      (fun place => ∃ p, s.lookahead.NotesSpace p ∧ p.place = place) s' := by
  refine .bind ?_
  rintro _ _ ⟨⟩
  refine .bind ?_
  rintro _ _ ⟨⟩
  refine .bind fun _ s₁ hrun => ?_
  have hgains := reportIssues_gains s.lookahead.issues (s := s.behind) hspaces _ s₁ hrun
  have hrest : Leads acceptLookahead s₁ fun _ s' => s₁.Gains "W125" (fun _ => False) s' :=
    acceptLookahead_gains (hgains.lookahead ▸ hplain)
  refine hrest.mono fun _ s₂ hrest => ?_
  refine (hgains.trans hrest).congr fun place => ?_
  rw [or_false]
  constructor
  · rintro ⟨issue, hmem, hcode, hplace⟩
    exact ⟨_, ⟨issue, hmem, hcode, rfl⟩, hplace⟩
  · rintro ⟨_, ⟨issue, hmem, hcode, rfl⟩, hplace⟩
    exact ⟨issue, hmem, hcode, hplace⟩

/-! ## What is told so far -/

/-- No comment set options so far. -/
def State.Plain (s : State) : Prop := ∀ d ∈ s.comments, d.kind ≠ .jshint ∧ d.kind ≠ .jslint

/-- The spaces that are told are those that consumed tokens note. -/
structure TellsSpaces (o : Options) (sink : Sink) (consumed : List Token) : Prop where
  nonbsp : o.nonbsp = true
  ignoredLines : sink.ignoredLines = []
  shows : sink.isHalted = false → sink.Shows "W125"
  tells : sink.isHalted = false → ∀ place, sink.Tells "W125" place ↔
    ∃ t ∈ consumed, ∃ p, t.NotesSpace p ∧ p.place = place

/-- What is told in addition has to be what more consumed tokens note. -/
theorem TellsSpaces.of_gains {o : Options} {sink sink' : Sink} {consumed consumed' : List Token}
    (hs : TellsSpaces o sink consumed) (hlines : sink'.ignoredLines = sink.ignoredLines)
    (hgains : sink.Gains "W125" New sink')
    (hnew : ∀ place, (∃ t ∈ consumed', ∃ p, t.NotesSpace p ∧ p.place = place) ↔
      (∃ t ∈ consumed, ∃ p, t.NotesSpace p ∧ p.place = place) ∨ New place) :
    TellsSpaces o sink' consumed' := by
  have hopen (hsink : sink'.isHalted = false) : sink.isHalted = false := by
    refine Bool.eq_false_iff.mpr fun hhalted => ?_
    simp [hgains.halted hhalted] at hsink
  refine ⟨hs.nonbsp, hlines.trans hs.ignoredLines, fun hsink => ?_, fun hsink place => ?_⟩
  · exact hgains.shows hsink (hs.shows (hopen hsink))
  · rw [hgains.tells hsink (hs.shows (hopen hsink)), hs.tells (hopen hsink), hnew]

/-- The tokens are those of the source, and unless a comment set options, the spaces in front of the
consumed ones are told. -/
structure Spaced (source : String) (_ : List Bracket) (s : State) : Prop where
  tokens : Token.Run source (s.consumed.reverse ++ [s.lookahead])
  spaces : s.Plain → TellsSpaces s.options s.session.sink s.consumed

namespace Spaced

variable {source : String} {bs bs' : List Bracket}

theorem of_gains (hs : Spaced source bs s) (hgains : s.Gains "W125" (fun _ => False) s') :
    Spaced source bs' s' := by
  have hcomments : s'.comments = s.comments := by
    unfold State.comments
    rw [hgains.lookahead, hgains.consumed]
  refine ⟨by rw [hgains.lookahead, hgains.consumed]; exact hs.tokens, fun hplain => ?_⟩
  rw [State.Plain, hcomments] at hplain
  rw [hgains.options, hgains.consumed]
  exact (hs.spaces hplain).of_gains hgains.ignoredLines hgains.sink (by simp)

theorem behind (hs : Spaced source bs s) :
    Token.Run source (s.behind.consumed.reverse ++ [s.behind.lookahead]) := by
  have hnext := hs.tokens.next
  rw [Token.frontier, List.getLast?_concat] at hnext
  change Token.Run source ((s.lookahead :: s.consumed).reverse ++ _)
  rwa [List.reverse_cons]

theorem advance (hs : Spaced source bs s) :
    Leads advance s fun _ s' => Spaced source bs s' := by
  intro _ s' hrun
  have hissues : ∀ issue ∈ s.lookahead.issues,
      issue.code ∈ commentCodes ++ s.lookahead.issues.map (·.code) := fun issue hmem =>
    List.mem_append_right _ (List.mem_map_of_mem hmem)
  have hattends := advance_attends (List.subset_append_left _ _) hissues _ s' hrun
  have hcomments : s'.comments = s.behind.comments := by
    unfold State.comments
    rw [hattends.lookahead, hattends.consumed]
  refine ⟨by rw [hattends.lookahead, hattends.consumed]; exact hs.behind, fun hplain => ?_⟩
  rw [State.Plain, hcomments] at hplain
  have htells := hs.spaces fun d hmem => hplain d (List.mem_append_right _ hmem)
  have hgains := advance_gains htells.nonbsp
    (fun d hmem => hplain d (List.mem_append_left _ hmem)) _ s' hrun
  rw [hgains.options, hgains.consumed]
  refine htells.of_gains hgains.ignoredLines hgains.sink fun place => ?_
  change (∃ t ∈ s.lookahead :: s.consumed, _) ↔ _
  rw [List.exists_mem_cons_iff, or_comm]

theorem acceptLookahead (hs : Spaced source bs s) :
    Leads Reading.acceptLookahead s fun _ s' => Spaced source bs s' := by
  intro _ s' hrun
  have haccept : Attends commentCodes Reading.acceptLookahead := .acceptLookahead (List.Subset.refl _)
  have hattends := haccept.leads s _ s' hrun
  refine ⟨by rw [hattends.lookahead, hattends.consumed]; exact hs.tokens, fun hplain => ?_⟩
  have hdirectives : ∀ d ∈ s.lookahead.directives, d.kind ≠ .jshint ∧ d.kind ≠ .jslint := by
    rw [← hattends.lookahead]
    exact fun d hmem => hplain d (List.mem_append_left _ hmem)
  have hgains : s.Gains "W125" (fun _ => False) s' := acceptLookahead_gains hdirectives _ s' hrun
  have hspaced : Spaced source bs s' := hs.of_gains hgains
  exact hspaced.spaces hplain

/-- The token is read again in its place. -/
theorem of_lookahead (hs : Spaced source bs s) {t : Token}
    (hrun : Token.Run source (s.consumed.reverse ++ [t]))
    (hdirectives : t.directives = s.lookahead.directives) :
    Spaced source bs { s with lookahead := t } := by
  refine ⟨hrun, fun hplain => hs.spaces ?_⟩
  intro d hmem
  refine hplain d ?_
  change d ∈ t.directives ++ _
  rwa [hdirectives]

theorem perform (hs : Spaced source bs s) {operation : Operation}
    (hturns : operation.Turns bs bs') :
    Leads (inScopes operation.perform) s fun _ s' => Spaced source bs' s' := by
  obtain ⟨hsteps, hreports⟩ := hturns.reports
  have hspares : Spares "W125" (inScopes operation.perform) :=
    .inScopes hreports hsteps (by decide)
  exact fun _ s' hrun => hs.of_gains (hspares.leads s _ s' hrun)

theorem report (hs : Spaced source bs s) {code : String} (hother : code ≠ "W125")
    (position : Position) (arguments : List String) (hcode : Halt.IsRegular code) :
    Leads (Reading.report code position arguments hcode) s fun _ s' => Spaced source bs s' :=
  ((Spares.report hother position arguments hcode).leads s).mono fun _ _ => hs.of_gains

instance (source : String) : Invariant.Basic (Spaced source) where
  adjust _ _ _ hs := ⟨hs.tokens, hs.spaces⟩
  report position arguments hcode hlisted hs :=
    hs.report (by rintro rfl; revert hlisted; decide) position arguments hcode
  reportKey arguments hcode hlisted _ hs _ :=
    hs.report (by rintro rfl; revert hlisted; decide) _ arguments hcode
  perform hturns hs := hs.perform hturns
  advance hs := hs.advance
  rescanRegexp hslash hs := hs.of_lookahead (hs.tokens.regexp hslash) rfl
  rescanTemplate {_ s} hbrace hs := by
    refine .bind ?_
    rintro _ _ ⟨⟩
    refine .bind ?_
    rintro _ _ ⟨⟩
    have hpiece := hs.of_lookahead (hs.tokens.template hbrace) rfl
    have hfatal : Spares "W125" checkFatal := inferInstance
    exact (hfatal.leads _).mono fun _ s' hgains => hpiece.of_gains hgains

/-- With the references in order, the invariant is one of all steps. -/
instance (source : String) : Invariant.Lawful fun bs s => Spaced source bs s ∧ InOrder [] bs s where
  inOrder hs := hs.2
  record {_ s p} name access hs hoffers := by
    have hspares : Spares "W125" (addReference name p access) := inferInstance
    exact ((hspares.leads _).mono fun _ s' hgains => hs.1.of_gains hgains).and
      (hoffers.record name access)

end Spaced

end Reading

end ScriptLint

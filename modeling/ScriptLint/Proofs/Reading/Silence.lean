import ScriptLint.Proofs.Diagnostic.Sides
import ScriptLint.Proofs.Reading.Stepwise

/-! # Reading in silence

A step that leaves a quiet sink behind has reported nothing, nor has any part of it. What it does
then has nothing to do with the sink: with any other one it goes the same way, and reports nothing
either.

An empty sink says that nothing was reported only if it would have taken a report. A sink that hides
nothing takes each one, so it is empty in the end if nothing was reported, and only then; no comment
that hides something can come in between, for the sink keeps its toggles and regions.
-/

namespace ScriptLint.Sink

/-- The sink holds nothing and hides nothing. -/
structure Quiet (a : Sink) : Prop where
  accepted : a.accepted = #[]
  terminal? : a.terminal? = none
  disabled : ∀ code, a.disabled.contains code = false
  toggles : ∀ toggle ∈ a.toggles, toggle.enabled = true
  regions : a.regions = []

namespace Quiet

variable {a : Sink}

theorem not_drops (ha : a.Quiet) (d : Diagnostic) : ¬ a.Drops d := by
  rintro (hsuppressed | ⟨e, hmem, -⟩)
  · unfold suppresses at hsuppressed
    rw [ha.regions, ha.disabled] at hsuppressed
    cases hfound : a.toggles.find? fun toggle =>
        toggle.code == d.code && toggle.line ≤ d.position.line with
    | none => simp [hfound] at hsuppressed
    | some toggle =>
        have henabled := ha.toggles toggle (List.mem_of_find?_eq_some hfound)
        simp [hfound, henabled] at hsuppressed
  · simp [ha.accepted] at hmem

/-- What a comment does to the sink does not make it quiet. -/
theorem of_filter {change : Sink → Sink} (hchange : Filter change) (h : (change a).Quiet) :
    a.Quiet := by
  cases hchange with
  | setLimit | ignoreLine => exact ⟨h.accepted, h.terminal?, h.disabled, h.toggles, h.regions⟩
  | toggle code line enabled =>
      exact ⟨h.accepted, h.terminal?, h.disabled,
        fun toggle hmem => h.toggles toggle (List.mem_cons_of_mem _ hmem), h.regions⟩
  | beginIgnore line =>
      have hquiet : (a.beginIgnore line).Quiet := h
      unfold Sink.beginIgnore at hquiet
      split at hquiet
      · exact hquiet
      next => cases hquiet.regions
  | endIgnore line =>
      have hquiet : (a.endIgnore line).Quiet := h
      unfold Sink.endIgnore at hquiet
      split at hquiet
      next => cases hquiet.regions
      · exact hquiet

end Quiet

theorem not_quiet_terminate (a : Sink) (code : String) (position : Position) (scope : String) :
    ¬ (a.terminate code position scope).Quiet := by
  intro h
  have hterminal := h.terminal?
  cases hopen : a.terminal? with
  | none =>
      rw [terminate_of_open hopen] at hterminal
      cases hterminal
  | some last =>
      rw [terminate_of_isHalted (by simp [isHalted, hopen]), hopen] at hterminal
      cases hterminal

/-- A report is heard. -/
theorem not_quiet_report (a : Sink) (code : String) (position : Position)
    (arguments : List String) (scope : String) :
    ¬ (a.report code position arguments scope).2.Quiet := by
  intro h
  by_cases hdropped : a.isHalted = true ∨ a.Drops { code, arguments, position, scope }
  · rw [report_of_dropped hdropped] at h
    rcases hdropped with hhalted | hdrops
    · rw [isHalted, show a.terminal? = none from h.terminal?] at hhalted
      cases hhalted
    · exact Quiet.not_drops h _ hdrops
  · obtain ⟨hhalted, hdrops⟩ := not_or.mp hdropped
    have hopen : a.terminal? = none := by simpa [isHalted] using hhalted
    have haccepted := h.accepted
    rw [report_of_accepted hopen hdrops] at haccepted
    split at haccepted <;> simp at haccepted

end ScriptLint.Sink

namespace ScriptLint

namespace Scope.Action.Stepwise

variable {α : Type} {action : Action α}

/-- What was quiet in the end was so in the beginning. -/
theorem quiet (haction : action.Stepwise) {s : Session}
    (hquiet : (action.run.run s).2.sink.Quiet) : s.sink.Quiet := by
  have hback : (action.run.run s).2.sink.Quiet → s.sink.Quiet :=
    haction.relates (R := fun a b => b.Quiet → a.Quiet) (fun _ h => h)
      (fun hab hbc h => hab (hbc h))
      (fun a code position arguments scope h =>
        absurd h (a.not_quiet_report code position arguments scope)) s
  exact hback hquiet

/-- Nothing is reported to any other sink. -/
theorem silent (haction : action.Stepwise) {s s' : Session} {a : α}
    (hrun : action.run.run s = (.ok a, s')) (hquiet : s'.sink.Quiet) (sink : Sink) :
    action.run.run { s with sink } = (.ok a, { s' with sink }) := by
  induction haction generalizing s s' with
  | pure | tracker | update =>
      cases hrun
      rfl
  | report code position arguments scope hcode =>
      rw [run_report] at hrun
      obtain ⟨-, rfl⟩ := Prod.mk.inj hrun
      exact absurd hquiet (s.sink.not_quiet_report code position arguments scope)
  | @bind α β first next hfirst hnext ihfirst ihnext =>
      rw [run_bind] at hrun
      rcases hmiddle : first.run.run s with ⟨reason | b, s''⟩ <;> rw [hmiddle] at hrun
      · cases hrun
      · have hrest : (next b).run.run s'' = (.ok a, s') := hrun
        have hquiet' : s''.sink.Quiet := (hnext b).quiet (by rwa [hrest])
        rw [run_bind, ihfirst hmiddle hquiet']
        exact ihnext b hrest hquiet

end Scope.Action.Stepwise

namespace Reading.Stepwise

variable {α : Type} {step : Reading α} {s s' : State} {a : α}

/-- What was quiet in the end was so in the beginning. -/
theorem quiet (hstep : Stepwise step) (hquiet : (step.run.run s).2.session.sink.Quiet) :
    s.session.sink.Quiet := by
  have hback : (step.run.run s).2.session.sink.Quiet → s.session.sink.Quiet :=
    hstep.relates (R := fun a b => b.Quiet → a.Quiet) (fun _ h => h)
      (fun hab hbc h => hab (hbc h))
      (fun hchange _ h => .of_filter hchange h)
      (fun a code position arguments scope h =>
        absurd h (a.not_quiet_report code position arguments scope))
      (fun a code position scope h => absurd h (a.not_quiet_terminate code position scope)) s
  exact hback hquiet

/-- The sink is not looked at, and nothing is reported to any other one. -/
theorem silent (hstep : Stepwise step) (hrun : step.run.run s = (.ok a, s'))
    (hquiet : s'.session.sink.Quiet) (h : Hidden) :
    ∃ h', step.run.run (s.hide h) = (.ok a, s'.hide h') := by
  induction hstep generalizing s s' h with
  | pure =>
      cases hrun
      exact ⟨h, rfl⟩
  | outOfFuel => cases hrun
  | halt => cases hrun
  | @observe α next hblind hnext ih =>
      change ∃ h', (next (s.hide h)).run.run (s.hide h) = _
      rw [hblind s h]
      exact ih s hrun hquiet h
  | @adjust change hblind =>
      cases hrun
      obtain ⟨maxErrors, hchange⟩ := hblind s h
      exact ⟨{ h with maxErrors }, congrArg (Prod.mk _) hchange⟩
  | @filter change hfilter =>
      cases hrun
      exact ⟨{ h with sink := change h.sink }, rfl⟩
  | @scopes α action haction =>
      rw [run_inScopes] at hrun
      rcases hresult : action.run.run s.session with ⟨reason | b, session⟩ <;> rw [hresult] at hrun
      · cases hrun
      · cases hrun
        refine ⟨h, ?_⟩
        have hother := haction.silent hresult hquiet h.sink
        rw [run_inScopes, show (s.hide h).session = { s.session with sink := h.sink } from rfl,
          hother]
        rfl
  | @bind α β first next hfirst hnext ihfirst ihnext =>
      rw [run_bind] at hrun
      rcases hmiddle : first.run.run s with ⟨stop | b, s''⟩ <;> rw [hmiddle] at hrun
      · cases hrun
      · have hrest : (next b).run.run s'' = (.ok a, s') := hrun
        have hquiet' : s''.session.sink.Quiet := (hnext b).quiet (by rwa [hrest])
        obtain ⟨h', hother⟩ := ihfirst hmiddle hquiet' h
        rw [run_bind, hother]
        exact ihnext b hrest hquiet h'

end Reading.Stepwise

end ScriptLint

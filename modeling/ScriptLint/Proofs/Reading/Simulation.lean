import ScriptLint.Proofs.Diagnostic.Sides
import ScriptLint.Proofs.Reading.Stepwise

/-! # Two runs side by side

Reading sees nothing of the sink, so two runs that differ in it only take the same steps, until one
of them is cut short by its limit. How the two sinks stay in step is a matter of the sinks alone;
what it takes is said in `Sink.Simulation`. Comments can bring the sinks out of step, so a run is
said to follow a path if its comments do only what is allowed.
-/

namespace ScriptLint

variable {α : Type}

/-- How two sinks stay in step: reports and early ends keep the relation `Beside`, and so do the
allowed comments. The second sink may end the analysis on its own; from then on `Behind` holds,
whatever the first one goes through. -/
structure Sink.Simulation (Allowed : (Sink → Sink) → Prop) (Beside Behind : Sink → Sink → Prop) :
    Prop where
  filter : ∀ {a b change}, Beside a b → Sink.Filter change → Allowed change →
    Beside (change a) (change b)
  terminate : ∀ {a b} (code : String) (position : Position) (scope : String), Beside a b →
    Beside (a.terminate code position scope) (b.terminate code position scope)
  report : ∀ {a b} (code : String) (position : Position) (arguments : List String)
    (scope : String), Beside a b →
    let result := a.report code position arguments scope
    let result' := b.report code position arguments scope
    (result'.1 = result.1 ∧ Beside result.2 result'.2) ∨
      (result'.1 = .error .tooManyErrors ∧ Behind result.2 result'.2)
  grows : ∀ {a a' b}, Behind a b → a.Grows a' → Behind a' b

variable {Allowed : (Sink → Sink) → Prop} {Beside Behind : Sink → Sink → Prop}

namespace Scope.Action

/-- No step of scope analysis takes anything back from the sink. -/
theorem Stepwise.grows {action : Action α} (haction : action.Stepwise) (s : Session) :
    s.sink.Grows (action.run.run s).2.sink :=
  haction.relates .refl .trans .report s

/-- The results of an action on two sessions: the same but for the sinks, or the second was cut. -/
inductive Alike (Beside Behind : Sink → Sink → Prop) (result : Except Halt α × Session) :
    Except Halt α × Session → Prop
  | same (sink : Sink) : Beside result.2.sink sink →
      Alike Beside Behind result (result.1, { result.2 with sink })
  | cut (s : Session) : Behind result.2.sink s.sink →
      Alike Beside Behind result (.error .tooManyErrors, s)

theorem Stepwise.simulates {action : Action α} (haction : action.Stepwise)
    (hsim : Sink.Simulation Allowed Beside Behind) {s : Session} {sink : Sink}
    (hs : Beside s.sink sink) :
    Alike Beside Behind (action.run.run s) (action.run.run { s with sink }) := by
  induction haction generalizing s sink with
  | pure | tracker | update => exact .same sink hs
  | report code position arguments scope hcode =>
      rw [run_report, run_report]
      rcases hsim.report code position arguments scope hs with ⟨houtcome, hnext⟩ | ⟨houtcome, hcut⟩
      · rw [houtcome]
        exact .same _ hnext
      · rw [houtcome]
        exact .cut _ hcut
  | @bind α β first next hfirst hnext ihfirst ihnext =>
      have hmiddle := ihfirst hs
      rw [run_bind, run_bind]
      generalize first.run.run { s with sink } = result' at hmiddle ⊢
      rcases hrun : first.run.run s with ⟨reason | a, s'⟩ <;> rw [hrun] at hmiddle
      · rcases hmiddle with ⟨sink', hbeside⟩ | ⟨s'', hbehind⟩
        · exact .same sink' hbeside
        · exact .cut s'' hbehind
      · rcases hmiddle with ⟨sink', hbeside⟩ | ⟨s'', hbehind⟩
        · exact ihnext a hbeside
        · exact .cut s'' (hsim.grows hbehind ((hnext a).grows s'))

end Scope.Action

namespace Reading

/-- The run of a step from a state changes the sink by reports and early ends, and otherwise in
allowed ways only. -/
inductive Path (Allowed : (Sink → Sink) → Prop) : {α : Type} → Reading α → State → Prop
  | pure {α : Type} (a : α) (s : State) : Path Allowed (Pure.pure a : Reading α) s
  | bind {α β : Type} {first : Reading α} {next : α → Reading β} {s : State} :
      Path Allowed first s →
      (∀ a s', first.run.run s = (.ok a, s') → Path Allowed (next a) s') →
      Path Allowed (first >>= next) s
  | observe {α : Type} {next : State → Reading α} {s : State}
      (hblind : ∀ s h, next (s.hide h) = next s) : Path Allowed (next s) s →
      Path Allowed (get >>= next) s
  | adjust {change : State → State} {s : State}
      (hblind : ∀ s h, ∃ maxErrors, change (s.hide h) = (change s).hide { h with maxErrors }) :
      Path Allowed (modify change) s
  | filter {change : Sink → Sink} {s : State} : Sink.Filter change → Allowed change →
      Path Allowed (adjustSink change) s
  | scopes {α : Type} {action : Scope.Action α} {s : State} : action.Stepwise →
      Path Allowed (inScopes action) s
  | halt {α : Type} (reason : Halt) (position : Position) (s : State) :
      Path Allowed (halt reason position : Reading α) s
  | outOfFuel {α : Type} (s : State) : Path Allowed (throw .outOfFuel : Reading α) s

/-- The results of a step from two states: the same but for what is hidden, or the second was
cut. -/
inductive Alike (Beside Behind : Sink → Sink → Prop) (result : Except Stop α × State) :
    Except Stop α × State → Prop
  | same (h : Hidden) : Beside result.2.session.sink h.sink →
      Alike Beside Behind result (result.1, result.2.hide h)
  | cut (s : State) : Behind result.2.session.sink s.session.sink →
      Alike Beside Behind result (.error (.halted .tooManyErrors), s)

namespace Path

theorem grows {step : Reading α} {s : State} (hstep : Path Allowed step s) :
    s.session.sink.Grows (step.run.run s).2.session.sink := by
  induction hstep with
  | pure | outOfFuel => exact .refl _
  | @bind α β first next s hfirst hnext ihfirst ihnext =>
      rw [run_bind]
      rcases hrun : first.run.run s with ⟨stop | a, s'⟩ <;> rw [hrun] at ihfirst
      · exact ihfirst
      · exact ihfirst.trans (ihnext a s' hrun)
  | observe hblind hnext ih => exact ih
  | @adjust change s hblind =>
      have hsink : (change s).session.sink = s.session.sink := State.sink_of_blind hblind s
      change s.session.sink.Grows (change s).session.sink
      rw [hsink]
      exact .refl _
  | filter hfilter hallowed => exact .filter hfilter _
  | @scopes α action s haction =>
      rw [run_inScopes]
      exact haction.grows s.session
  | halt reason position s => exact .terminate _ reason.code position _

/-- Two runs that are in step in the beginning stay in step. -/
theorem simulates {step : Reading α} {s : State} (hstep : Path Allowed step s)
    (hsim : Sink.Simulation Allowed Beside Behind) {h : Hidden}
    (hs : Beside s.session.sink h.sink) :
    Alike Beside Behind (step.run.run s) (step.run.run (s.hide h)) := by
  induction hstep generalizing h with
  | pure | outOfFuel => exact .same h hs
  | @bind α β first next s hfirst hnext ihfirst ihnext =>
      have hmiddle := ihfirst hs
      rw [run_bind, run_bind]
      generalize first.run.run (s.hide h) = result' at hmiddle ⊢
      rcases hrun : first.run.run s with ⟨stop | a, s'⟩ <;> rw [hrun] at hmiddle
      · rcases hmiddle with ⟨h', hbeside⟩ | ⟨s'', hbehind⟩
        · exact .same h' hbeside
        · exact .cut s'' hbehind
      · rcases hmiddle with ⟨h', hbeside⟩ | ⟨s'', hbehind⟩
        · exact ihnext a s' hrun hbeside
        · exact .cut s'' (hsim.grows hbehind (hnext a s' hrun).grows)
  | @observe α next s hblind hnext ih =>
      change Alike Beside Behind ((next s).run.run s) ((next (s.hide h)).run.run (s.hide h))
      rw [hblind s h]
      exact ih hs
  | @adjust change s hblind =>
      obtain ⟨maxErrors, hchange⟩ := hblind s h
      have hrun : (modify change : Reading Unit).run.run (s.hide h) =
          (.ok (), (change s).hide { h with maxErrors }) := congrArg (Prod.mk _) hchange
      have hsink : (change s).session.sink = s.session.sink := State.sink_of_blind hblind s
      rw [hrun]
      exact .same { h with maxErrors } (hsink ▸ hs)
  | @filter change s hfilter hallowed =>
      exact .same ⟨change h.sink, h.maxErrors, h.disabled⟩ (hsim.filter hs hfilter hallowed)
  | @scopes α action s haction =>
      have hresult := haction.simulates hsim (s := s.session) hs
      rw [run_inScopes, run_inScopes]
      change Alike Beside Behind _
        ((action.run.run { s.session with sink := h.sink }).1.mapError .halted,
          { s.hide h with session := (action.run.run { s.session with sink := h.sink }).2 })
      generalize action.run.run { s.session with sink := h.sink } = result' at hresult ⊢
      rcases hresult with ⟨sink, hbeside⟩ | ⟨session, hbehind⟩
      · exact .same ⟨sink, h.maxErrors, h.disabled⟩ hbeside
      · exact .cut _ hbehind
  | halt reason position s =>
      have hnext := hsim.terminate reason.code position s.session.tracker.functionName hs
      exact .same ⟨h.sink.terminate reason.code position _, h.maxErrors, h.disabled⟩ hnext

/-- What the end of a run shows not to have happened did not happen on the way. -/
theorem refine {step : Reading α} {s : State} (hstep : Path Allowed step s)
    {Kept : Sink → Prop} {Wanted : (Sink → Sink) → Prop}
    (hgrows : ∀ {a a'}, a.Grows a' → Kept a' → Kept a)
    (hwanted : ∀ {change} a, Sink.Filter change → Allowed change → Kept (change a) → Wanted change)
    (hend : Kept (step.run.run s).2.session.sink) : Path Wanted step s := by
  induction hstep with
  | pure a s => exact .pure a s
  | outOfFuel s => exact .outOfFuel s
  | halt reason position s => exact .halt reason position s
  | @bind α β first next s hfirst hnext ihfirst ihnext =>
      rw [run_bind] at hend
      rcases hrun : first.run.run s with ⟨stop | a, s'⟩ <;> rw [hrun] at hend ihfirst
      · exact .bind (ihfirst hend) fun a s'' heq => by rw [hrun] at heq; cases heq
      · refine .bind (ihfirst (hgrows (hnext a s' hrun).grows hend)) fun a' s'' heq => ?_
        rw [hrun] at heq
        cases heq
        exact ihnext a s' hrun hend
  | observe hblind hnext ih => exact .observe hblind (ih hend)
  | adjust hblind => exact .adjust hblind
  | filter hfilter hallowed => exact .filter hfilter (hwanted _ hfilter hallowed hend)
  | scopes haction => exact .scopes haction

end Path

/-! ## Runs with a limit -/

/-- No step of reading takes anything back from the sink. -/
theorem Stepwise.grows {step : Reading α} (hstep : Stepwise step) (s : State) :
    s.session.sink.Grows (step.run.run s).2.session.sink :=
  hstep.relates .refl .trans (fun hchange => .filter hchange) .report .terminate s

/-- Every run follows a path on which everything is allowed. -/
theorem Stepwise.path {step : Reading α} (hstep : Stepwise step) (s : State) :
    Path (fun _ => True) step s := by
  induction hstep generalizing s with
  | pure a => exact .pure a s
  | bind hfirst hnext ihfirst ihnext => exact .bind (ihfirst s) fun a s' _ => ihnext a s'
  | observe hblind hnext ih => exact .observe hblind (ih s s)
  | adjust hblind => exact .adjust hblind
  | filter hfilter => exact .filter hfilter trivial
  | scopes haction => exact .scopes haction
  | halt reason position => exact .halt reason position s
  | outOfFuel => exact .outOfFuel s

theorem simulation_eq : Sink.Simulation (fun _ => True) Eq fun _ _ => False where
  filter heq _ _ := by rw [heq]
  terminate _ _ _ heq := by rw [heq]
  report _ _ _ _ heq := by subst heq; exact .inl ⟨rfl, rfl⟩
  grows hbehind _ := hbehind

theorem simulation_limited (k : Nat) :
    Sink.Simulation Sink.KeepsLimit (Sink.Limited k) (Sink.Truncated k) where
  filter hlimited hfilter hkeeps := hlimited.filter hfilter hkeeps
  terminate code position scope hlimited := hlimited.terminate code position scope
  report code position arguments scope hlimited := hlimited.report code position arguments scope
  grows htruncated hgrows := htruncated.grows hgrows

/-- With a limit that is never reached, a run is the same as without. -/
theorem Path.of_unreached {step : Reading α} {s : State} (hstep : Path Sink.KeepsLimit step s)
    (hs : s.session.sink.limit = 0) {h : Hidden} {k : Nat}
    (hh : h.sink = s.session.sink.setLimit k)
    (hsize : (step.run.run s).2.session.sink.accepted.size < k) :
    ∃ h', step.run.run (s.hide h) = ((step.run.run s).1, (step.run.run s).2.hide h') ∧
      Sink.Limited k (step.run.run s).2.session.sink h'.sink := by
  have hbelow : s.session.sink.accepted.size < k :=
    Nat.lt_of_le_of_lt hstep.grows.accepted.length_le hsize
  have hresult := hstep.simulates (simulation_limited k) (h := h) ⟨hh, hs, hbelow⟩
  generalize step.run.run (s.hide h) = result' at hresult ⊢
  rcases hresult with ⟨h', hlimited⟩ | ⟨s', htruncated⟩
  · exact ⟨h', rfl, hlimited⟩
  · exact absurd htruncated.reached (Nat.not_le_of_lt hsize)

theorem Path.limit_eq_zero {step : Reading α} {s : State} (hstep : Path Sink.KeepsLimit step s)
    (hs : s.session.sink.limit = 0) : (step.run.run s).2.session.sink.limit = 0 := by
  obtain ⟨_, _, hlimited⟩ := hstep.of_unreached hs
    (h := { s.hidden with sink := s.session.sink.setLimit _ }) rfl (Nat.lt_succ_self _)
  exact hlimited.unlimited

/-- Whatever limit a run starts with, if it is not reached early, a comment overrides it. -/
def Overrides (step : Reading α) (s : State) : Prop :=
  ∀ (h : Hidden) (k : Nat), h.sink = s.session.sink.setLimit k →
    (step.run.run s).2.session.sink.accepted.size < k →
    ∃ h', step.run.run (s.hide h) = ((step.run.run s).1, (step.run.run s).2.hide h') ∧
      (step.run.run s).2.session.sink = h'.sink

theorem keepsLimit_or_eq_setLimit {change : Sink → Sink} (hchange : Sink.Filter change) :
    Sink.KeepsLimit change ∨ ∃ limit, change = (·.setLimit limit) := by
  cases hchange with
  | setLimit limit => exact .inr ⟨limit, rfl⟩
  | toggle | ignoreLine => exact .inl fun _ _ => rfl
  | beginIgnore line =>
      left
      intro a limit
      simp only [Sink.beginIgnore, Sink.setLimit]
      split <;> rfl
  | endIgnore line =>
      left
      intro a limit
      simp only [Sink.endIgnore, Sink.setLimit]
      split <;> rfl

/-- Either no comment sets the limit, or it does not matter what the limit was before. -/
theorem Stepwise.path_or_overrides {step : Reading α} (hstep : Stepwise step) {s : State}
    (hs : s.session.sink.limit = 0) : Path Sink.KeepsLimit step s ∨ Overrides step s := by
  induction hstep generalizing s with
  | pure a => exact .inl (.pure a s)
  | outOfFuel => exact .inl (.outOfFuel s)
  | halt reason position => exact .inl (.halt reason position s)
  | adjust hblind => exact .inl (.adjust hblind)
  | scopes haction => exact .inl (.scopes haction)
  | @filter change hfilter =>
      rcases keepsLimit_or_eq_setLimit hfilter with hkeeps | ⟨limit, rfl⟩
      · exact .inl (.filter hfilter hkeeps)
      · right
        intro h k hh _
        refine ⟨⟨h.sink.setLimit limit, h.maxErrors, h.disabled⟩, rfl, ?_⟩
        rw [hh]
        rfl
  | @observe α next hblind hnext ih =>
      rcases ih s hs with hpath | hoverrides
      · exact .inl (.observe hblind hpath)
      · right
        intro h k hh hsize
        change ∃ h', (next (s.hide h)).run.run (s.hide h) = _ ∧ _
        rw [hblind s h]
        exact hoverrides h k hh hsize
  | @bind α β first next hfirst hnext ihfirst ihnext =>
      rcases hrun : first.run.run s with ⟨stop | a, s'⟩
      · -- The first step stops, so nothing comes after it.
        have htotal : (first >>= next).run.run s = (.error stop, s') := by rw [run_bind, hrun]
        rcases ihfirst hs with hpath | hoverrides
        · exact .inl (.bind hpath fun a s'' heq => by rw [hrun] at heq; cases heq)
        · right
          intro h k hh hsize
          rw [htotal] at hsize ⊢
          obtain ⟨h', hresult, hsink⟩ := hoverrides h k hh (by rw [hrun]; exact hsize)
          rw [hrun] at hresult hsink
          exact ⟨h', by rw [run_bind, hresult], hsink⟩
      · have htotal : (first >>= next).run.run s = (next a).run.run s' := by rw [run_bind, hrun]
        have hgrows : s'.session.sink.Grows ((next a).run.run s').2.session.sink :=
          (hnext a).grows s'
        have hsize' {k : Nat} (hsize : ((next a).run.run s').2.session.sink.accepted.size < k) :
            (first.run.run s).2.session.sink.accepted.size < k := by
          rw [hrun]
          exact Nat.lt_of_le_of_lt hgrows.accepted.length_le hsize
        rcases ihfirst hs with hpath | hoverrides
        · have hlimit : s'.session.sink.limit = 0 := by
            simpa only [hrun] using hpath.limit_eq_zero hs
          rcases ihnext a hlimit with hpath' | hoverrides
          · left
            refine .bind hpath fun a' s'' heq => ?_
            rw [hrun] at heq
            cases heq
            exact hpath'
          · right
            intro h k hh hsize
            rw [htotal] at hsize ⊢
            obtain ⟨h', hresult, hlimited⟩ := hpath.of_unreached hs hh (hsize' hsize)
            rw [hrun] at hresult hlimited
            rw [run_bind, hresult]
            exact hoverrides h' k hlimited.eq hsize
        · right
          intro h k hh hsize
          rw [htotal] at hsize ⊢
          obtain ⟨h', hresult, hsink⟩ := hoverrides h k hh (hsize' hsize)
          rw [hrun] at hresult hsink
          -- From here on the two runs differ in the options only, which nothing looks at.
          have hrest := ((hnext a).path s').simulates simulation_eq hsink
          rw [run_bind, hresult]
          dsimp only
          generalize (next a).run.run (s'.hide h') = result' at hrest ⊢
          rcases hrest with ⟨h'', heq⟩ | ⟨_, hbehind⟩
          · exact ⟨h'', rfl, heq⟩
          · exact hbehind.elim

end Reading

end ScriptLint

import ScriptLint.Reading.Program
import ScriptLint.Proofs.Diagnostic.History
import ScriptLint.Proofs.Scope.Stepwise

/-! # The steps of reading

Reading a program is put together from a few kinds of steps. Most of them do not touch the sink and
go on in the same way whatever it holds, and whatever the options say about the limit and about
disabled codes; a comment may move the limit of the sink or change what it drops; everything else
happens to it in reports and in early ends. No step takes back an early end.
-/

namespace ScriptLint

namespace Options

/-- The options with other values for what only the sink uses. -/
@[reducible] def hide (o : Options) (maxErrors : Nat) (disabled : Text.NameSet) : Options :=
  { o with maxErrors, disabled }

/-- A change of the options that has nothing to do with what only the sink uses, and none with the
bound on nesting. -/
class Visible (change : Options → Options) : Prop where
  hide (o : Options) (maxErrors : Nat) (disabled : Text.NameSet) :
    change (o.hide maxErrors disabled) = (change o).hide maxErrors disabled
  maxDepth (o : Options) : (change o).maxDepth = o.maxDepth

namespace Visible

instance (edition : Edition) : Visible fun o => { o with edition } :=
  ⟨fun _ _ _ => rfl, fun _ => rfl⟩

instance (strict : StrictRule) : Visible fun o => { o with strict } :=
  ⟨fun _ _ _ => rfl, fun _ => rfl⟩

instance (unused : UnusedRule) : Visible fun o => { o with unused } :=
  ⟨fun _ _ _ => rfl, fun _ => rfl⟩

instance (shadow : ShadowRule) : Visible fun o => { o with shadow } :=
  ⟨fun _ _ _ => rfl, fun _ => rfl⟩

instance (generatorSent : Bool) : Visible fun o => { o with generatorSent } :=
  ⟨fun _ _ _ => rfl, fun _ => rfl⟩

instance (flag : Flag) (value : Bool) : Visible (·.set flag value) := by
  constructor <;> cases flag <;> intros <;> rfl

end Visible

end Options

namespace Reading

theorem run_bind {α β : Type} (first : Reading α) (next : α → Reading β) (s : State) :
    (first >>= next).run.run s =
      match first.run.run s with
      | (.ok a, s') => (next a).run.run s'
      | (.error stop, s') => (.error stop, s') := by
  change (match first.run.run s with | (outcome, s') => ExceptT.bindCont next outcome s') = _
  rcases first.run.run s with ⟨_ | _, s'⟩ <;> rfl

theorem run_inScopes {α : Type} (action : Scope.Action α) (s : State) :
    (inScopes action).run.run s =
      ((action.run.run s.session).1.mapError .halted,
        { s with session := (action.run.run s.session).2 }) := by
  have hget : (get : Reading State).run.run s = (.ok s, s) := rfl
  unfold inScopes
  rw [run_bind, hget]
  dsimp only
  rcases action.run.run s.session with ⟨_ | _, session⟩ <;> rfl

/-- The parts of a state that reading never looks at: the sink and what the options say about it. -/
structure Hidden where
  sink : Sink
  maxErrors : Nat
  disabled : Text.NameSet

/-- The state with other hidden parts. -/
def State.hide (s : State) (h : Hidden) : State :=
  { s with options := s.options.hide h.maxErrors h.disabled, session.sink := h.sink }

def State.hidden (s : State) : Hidden :=
  ⟨s.session.sink, s.options.maxErrors, s.options.disabled⟩

theorem State.hide_hidden (s : State) : s.hide s.hidden = s := rfl

/-- A change that does not see the sink does not change it. -/
theorem State.sink_of_blind {change : State → State}
    (hblind : ∀ s h, ∃ maxErrors, change (s.hide h) = (change s).hide { h with maxErrors })
    (s : State) : (change s).session.sink = s.session.sink := by
  obtain ⟨_, hchange⟩ := hblind s s.hidden
  rw [s.hide_hidden] at hchange
  rw [hchange]
  rfl

/-- Two terms that the search for instances can see to be the same. -/
class Same {α : Type} (a b : α) : Prop where
  eq : a = b

instance {α : Type} (a : α) : Same a a := ⟨rfl⟩

/-- A step of reading that leaves the sink to reports, to comments and to early ends. -/
inductive Stepwise : {α : Type} → Reading α → Prop
  | pure {α : Type} (a : α) : Stepwise (Pure.pure a : Reading α)
  | bind {α β : Type} {first : Reading α} {next : α → Reading β} :
      Stepwise first → (∀ a, Stepwise (next a)) → Stepwise (first >>= next)
  | observe {α : Type} {next : State → Reading α} (hblind : ∀ s h, next (s.hide h) = next s) :
      (∀ s, Stepwise (next s)) → Stepwise (get >>= next)
  /-- A change may set the limit of the options, whatever it was before. -/
  | adjust {change : State → State}
      (hblind : ∀ s h, ∃ maxErrors, change (s.hide h) = (change s).hide { h with maxErrors }) :
      Stepwise (modify change)
  | filter {change : Sink → Sink} : Sink.Filter change → Stepwise (adjustSink change)
  | scopes {α : Type} {action : Scope.Action α} : action.Stepwise → Stepwise (inScopes action)
  | halt {α : Type} (reason : Halt) (position : Position) :
      Stepwise (halt reason position : Reading α)
  | outOfFuel {α : Type} : Stepwise (throw .outOfFuel : Reading α)

/-- What comments, reports and early ends do to the sink, in steps that add up, a step does. -/
theorem Stepwise.relates {R : Sink → Sink → Prop} (hrefl : ∀ a, R a a)
    (htrans : ∀ {a b c}, R a b → R b c → R a c)
    (hfilter : ∀ {change}, Sink.Filter change → ∀ a, R a (change a))
    (hreport : ∀ a code position arguments scope,
      R a (a.report code position arguments scope).2)
    (hterminate : ∀ a code position scope, R a (a.terminate code position scope))
    {α : Type} {step : Reading α} (hstep : Stepwise step) (s : State) :
    R s.session.sink (step.run.run s).2.session.sink := by
  induction hstep generalizing s with
  | pure | outOfFuel => exact hrefl _
  | observe hblind hnext ih => exact ih s s
  | @adjust change hblind =>
      have hsink : (change s).session.sink = s.session.sink := State.sink_of_blind hblind s
      change R s.session.sink (change s).session.sink
      rw [hsink]
      exact hrefl _
  | filter hchange => exact hfilter hchange _
  | scopes haction =>
      rw [run_inScopes]
      exact haction.relates hrefl htrans hreport s.session
  | halt reason position => exact hterminate _ reason.code position _
  | @bind α β first next hfirst hnext ihfirst ihnext =>
      have hmiddle := ihfirst s
      rw [run_bind]
      rcases hrun : first.run.run s with ⟨stop | a, s'⟩ <;> rw [hrun] at hmiddle
      · exact hmiddle
      · exact htrans hmiddle (ihnext a s')

end Reading

end ScriptLint

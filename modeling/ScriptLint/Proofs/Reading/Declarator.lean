import ScriptLint.Analysis.Basic
import ScriptLint.Proofs.Reading.Stepwise
import ScriptLint.Proofs.Scope.DeadZone
import ScriptLint.Reading.Function
import ScriptLint.Reading.Statement

/-! # Dead zones of patterns

All names of a pattern that is declared have one dead zone, whatever their order: it ends with the
initial value of the pattern, or with the default of the parameter. A default inside the pattern
stands in front of that end, so it finds all names of the pattern in their dead zones, those to its
left included.
-/

namespace ScriptLint.Reading

open Scope (BindingKind)

variable {α β : Type} {self : Productions} {s : State}

/-- Whenever the step succeeds, its answer and the state after it satisfy `post`. -/
def Leads (step : Reading α) (s : State) (post : α → State → Prop) : Prop :=
  ∀ a s', step.run.run s = (.ok a, s') → post a s'

namespace Leads

variable {post : α → State → Prop}

theorem pure {a : α} (hpost : post a s) : Leads (Pure.pure a) s post := by
  rintro _ _ ⟨⟩
  exact hpost

theorem bind {first : Reading β} {next : β → Reading α}
    (hfirst : Leads first s fun b s' => Leads (next b) s' post) :
    Leads (first >>= next) s post := by
  intro a s' hrun
  rw [run_bind] at hrun
  rcases hmiddle : first.run.run s with ⟨stop | b, s''⟩ <;> rw [hmiddle] at hrun
  · cases hrun
  · exact hfirst b s'' hmiddle a s' hrun

/-- Whatever the first step does, the rest is to show. -/
theorem after {first : Reading β} {next : β → Reading α} (hnext : ∀ b s', Leads (next b) s' post) :
    Leads (first >>= next) s post := .bind fun b s' _ => hnext b s'

theorem ite {c : Prop} [Decidable c] {first second : Reading α} (hfirst : c → Leads first s post)
    (hsecond : ¬ c → Leads second s post) : Leads (if c then first else second) s post := by
  split
  next hc => exact hfirst hc
  next hc => exact hsecond hc

theorem previous {next : Token → Reading α} (hnext : Leads (next s.previous) s post) :
    Leads (Reading.previous >>= next) s post := by
  refine .bind ?_
  rintro _ _ ⟨⟩
  exact hnext

theorem tracker {next : Scope.Tracker → Reading α} (hnext : Leads (next s.session.tracker) s post) :
    Leads (Reading.tracker >>= next) s post := by
  refine .bind ?_
  rintro _ _ ⟨⟩
  exact hnext

theorem track {change : Scope.Tracker → Scope.Tracker} {post : Unit → State → Prop}
    (hpost : post () { s with session.tracker := change s.session.tracker }) :
    Leads (Reading.track change) s post := by
  rintro _ _ ⟨⟩
  exact hpost

theorem inScopes {action : Scope.Action α} {post : α → Scope.Tracker → Prop}
    (haction : action.Ensures s.session.tracker post) :
    Leads (Reading.inScopes action) s fun a s' => post a s'.session.tracker := by
  intro a s' hrun
  rw [run_inScopes] at hrun
  rcases hresult : action.run.run s.session with ⟨reason | a', session⟩ <;> rw [hresult] at hrun
  · cases hrun
  · cases hrun
    exact haction s.session.sink a session hresult

end Leads

/-! ## Declarators -/

theorem markAll_leads (names : List BoundName) (stop : Nat) (s : State) :
    Leads (names.forM fun bound => track (·.markInitialized bound.name stop)) s fun _ s' =>
      s' = { s with session.tracker := s.session.tracker.markAll (names.map (·.name)) stop } := by
  induction names generalizing s with
  | nil => exact .pure rfl
  | cons bound names ih => exact .bind (.track (ih _))

/-- With an initial value, the dead zones of all names of a target end where that does. -/
theorem initializer_zoneEnds {kind : BindingKind} (hkind : kind.isLexical)
    (target : BindingTarget) :
    Leads (initializer self kind target) s fun _ s' => ∀ bound ∈ target.names,
      s'.session.tracker.ZoneEndsAt bound.name s'.previous.endPosition.offset := by
  refine .after fun _ _ => .after fun value _ => .after fun _ s => ?_
  rw [if_pos hkind]
  refine .previous fun _ s' hrun bound hbound => ?_
  obtain rfl := markAll_leads target.names _ s _ s' hrun
  exact Scope.Tracker.markAll_zoneEndsAt (List.mem_map_of_mem hbound)

/-- If it has an initial value, the dead zones of all names of a declarator end where that does. -/
theorem declarator_zoneEnds {kind : BindingKind} (hkind : kind.isLexical) (inHead : Bool)
    (ds : Declarations) :
    Leads (declarator self kind inHead ds) s fun ds' s' => ∃ names initialized,
      ds'.names = ds.names ++ names ∧ ds'.initialized = (ds.initialized || initialized) ∧
        (initialized → ∀ bound ∈ names,
          s'.session.tracker.ZoneEndsAt bound.name s'.previous.endPosition.offset) := by
  refine .after fun target _ => .after fun _ _ => .after fun initialized s => ?_
  cases initialized with
  | true =>
      refine .bind fun _ s' hrun => .pure ⟨target.names, true, rfl, rfl, fun _ => ?_⟩
      exact initializer_zoneEnds hkind target _ s' hrun
  | false =>
      suffices hpure : ∀ s, Leads _ s _ from
        .ite nofun fun _ => .ite (fun _ => .after fun _ s => hpure s) fun _ => hpure s
      exact fun s => .pure ⟨target.names, false, rfl, rfl, nofun⟩

/-- The default of the second name uses the first one, which is bound before it. -/
example :
    (Analysis.ofSource "let \x7ba,b=a\x7d=\x7b\x7d;" { edition := .es2015 } {}).diagnostics.map
      (fun d => (d.code, d.position.place)) = [("E056", 1, 10)] := by decide +kernel

/-! ## Parameters -/

theorem parameterDefault_leads (rest : Bool) :
    Leads (parameterDefault self rest) s fun end? s' =>
      ∀ stop ∈ end?, stop = s'.previous.endPosition.offset := by
  refine .after fun t _ => .ite (fun _ => ?_) fun _ => .pure nofun
  suffices hdefault : ∀ s, Leads _ s _ from
    .ite (fun _ => .after fun _ s => hdefault s) fun _ => hdefault _
  refine fun _ => .after fun _ _ => .after fun _ _ => .after fun _ s => .previous (.pure ?_)
  rintro stop ⟨⟩
  rfl

/-- The names of a parameter have one end of their dead zones, which is that of its default. -/
theorem parameter_leads (ps : Parameters) :
    Leads (parameter self ps) s fun r s' =>
      ∃ (ps' : Parameters) (names : List BoundName) (end? : Option Nat), r = .again ps' ∧
        ps'.names = ps.names ++ names.map (⟨·, end?⟩) ∧
          ∀ stop ∈ end?, stop = s'.previous.endPosition.offset := by
  refine .after fun t _ => ?_
  suffices hname : ∀ s, Leads _ s _ from .ite (fun _ => .after fun _ s => hname s) fun _ => hname _
  intro s
  suffices htarget : ∀ s, Leads _ s _ from .ite (fun _ => .after fun _ s =>
    .ite (fun _ => .after fun _ _ => .after fun _ s => htarget s) fun _ => htarget s) fun _ =>
    .ite (fun _ => .after fun _ _ => .after fun _ s => htarget s) fun _ => htarget s
  refine fun _ => .after fun target _ => .bind fun end? s' hrun => ?_
  have hend := parameterDefault_leads _ _ s' hrun
  refine .ite (fun hmissing => .after fun _ s => ?_) fun _ => ?_
  · -- What is reported is that there is no default, so there is no end.
    cases end? with
    | none => exact .pure ⟨_, target.names, none, rfl, rfl, nofun⟩
    | some stop => simp at hmissing
  · exact .pure ⟨_, target.names, end?, rfl, rfl, hend⟩

/-- Declare one parameter. -/
def declareOne (distinct : Bool) (p : Parameter) : Reading Unit := do
  inScopes (Scope.Action.declareParameter p.bound.name p.bound.position distinct)
  p.defaultEnd?.forM fun offset => track (·.markInitialized p.bound.name offset)

theorem declareOne_leads (hstack : s.session.tracker.stack ≠ [])
    (hindexed : ∀ i, (s.session.tracker.frame i).Indexed) (distinct : Bool) (p : Parameter)
    (name : String) (stop : Nat) :
    Leads (declareOne distinct p) s fun _ s' => s.session.tracker.Grows s'.session.tracker ∧
      (p.bound.name = name → p.defaultEnd? = some stop → s'.session.tracker.ZoneEndsAt name stop) ∧
      (p.bound.name ≠ name → s.session.tracker.ZoneEndsAt name stop →
        s'.session.tracker.ZoneEndsAt name stop) := by
  have hgrows := Scope.Action.declareParameter_grows hstack p.bound.name p.bound.position distinct
  have hother (hne : p.bound.name ≠ name) := Scope.Action.declareParameter_find?_of_ne hindexed
    hne.symm p.bound.position distinct
  refine .bind fun _ s' hrun => ?_
  have hgrows' : s.session.tracker.Grows s'.session.tracker := Leads.inScopes hgrows _ s' hrun
  have hkept (hne : p.bound.name ≠ name) (hends : s.session.tracker.ZoneEndsAt name stop) :
      s'.session.tracker.ZoneEndsAt name stop :=
    hends.of_find? hgrows' (Leads.inScopes (hother hne) _ s' hrun)
  cases hend : p.defaultEnd? with
  | none => exact .pure ⟨hgrows', nofun, hkept⟩
  | some offset =>
      have hindexed' (i : Nat) := (hgrows'.frame i).indexed (hindexed i)
      have hmarked := Scope.Tracker.markInitialized_grows (t := s'.session.tracker) p.bound.name
        offset
      refine .track ⟨hgrows'.trans hmarked, ?_, fun hne hends => ?_⟩
      · rintro rfl ⟨⟩
        exact Scope.Tracker.markInitialized_zoneEndsAt _ _
      · exact (hkept hne hends).of_find? hmarked
          (Scope.Tracker.find?_markInitialized_of_ne hindexed' hne.symm offset)

/-- The dead zone of a parameter ends where its default does, if it is declared with one default
only. -/
theorem declareParameters_zoneEnds (hstack : s.session.tracker.stack ≠ [])
    (hindexed : ∀ i, (s.session.tracker.frame i).Indexed) {ps : Parameters} (method : Bool)
    {p : Parameter} (hp : p ∈ ps.names) {stop : Nat}
    (hsame : ∀ p' ∈ ps.names, p'.bound.name = p.bound.name → p'.defaultEnd? = some stop) :
    Leads (declareParameters ps method) s fun _ s' =>
      s'.session.tracker.ZoneEndsAt p.bound.name stop := by
  have hall (distinct : Bool) (names : List Parameter) {s : State}
      (hstack : s.session.tracker.stack ≠ [])
      (hindexed : ∀ i, (s.session.tracker.frame i).Indexed)
      (hsame : ∀ p' ∈ names, p'.bound.name = p.bound.name → p'.defaultEnd? = some stop)
      (hdone : p ∈ names ∨ s.session.tracker.ZoneEndsAt p.bound.name stop) :
      Leads (names.forM (declareOne distinct)) s fun _ s' =>
        s'.session.tracker.ZoneEndsAt p.bound.name stop := by
    induction names generalizing s with
    | nil => exact .pure (hdone.resolve_left List.not_mem_nil)
    | cons p' names ih =>
        refine .bind fun _ s' hrun => ?_
        obtain ⟨hgrows, hself, hother⟩ :=
          declareOne_leads hstack hindexed distinct p' p.bound.name stop _ s' hrun
        refine ih (hgrows.stack ▸ hstack) (fun i => (hgrows.frame i).indexed (hindexed i))
          (fun p'' hp'' => hsame p'' (List.mem_cons_of_mem _ hp'')) ?_
        by_cases hname : p'.bound.name = p.bound.name
        · exact .inr (hself hname (hsame p' List.mem_cons_self hname))
        · refine hdone.imp (fun hmem => ?_) (hother hname)
          refine (List.mem_cons.mp hmem).resolve_left ?_
          rintro rfl
          exact hname rfl
  exact .tracker (hall _ ps.names hstack hindexed hsame (.inl hp))

end ScriptLint.Reading

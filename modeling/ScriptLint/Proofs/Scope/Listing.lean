import ScriptLint.Proofs.Scope.Operation
import ScriptLint.Proofs.Scope.Outline

/-! # The rule about unused bindings

Which unused bindings are listed is decided when a frame is closed. Nothing else looks at the rule
or at the list, and what is found out on the way to a listing does not depend on the sink. So two
runs that differ in the rule alone differ at most in what they list, and under the rules `off` and
`lastParam` they do not differ in that either.
-/

namespace ScriptLint.Scope

variable {α β : Type}

namespace Tracker

variable (t : Tracker) (rule : UnusedRule) (unused : List UnusedBinding)

/-- The tracker with another rule about unused bindings and another list of them. -/
def relist : Tracker := { t with rules := { t.rules with unused := rule }, unused }

/-- The tracker that reports what it lists, by the place of parameters. -/
abbrev reporting : Tracker := t.relist .lastParam t.unused

theorem relist_outline : t.SameOutline (t.relist rule unused) := .of_frames_eq rfl rfl rfl

@[simp]
theorem relist_frame : (t.relist rule unused).frame = t.frame := rfl

@[simp]
theorem relist_exported : (t.relist rule unused).exported = t.exported := rfl

@[simp]
theorem relist_currentId : (t.relist rule unused).currentId = t.currentId := rfl

@[simp]
theorem relist_functionIds : (t.relist rule unused).functionIds = t.functionIds :=
  (t.relist_outline rule unused).functionIds

@[simp]
theorem relist_functionId : (t.relist rule unused).functionId = t.functionId :=
  (t.relist_outline rule unused).functionId

@[simp]
theorem relist_innerIds : (t.relist rule unused).innerIds = t.innerIds :=
  congrArg List.dropLast (t.relist_functionIds rule unused)

@[simp]
theorem relist_functionName : (t.relist rule unused).functionName = t.functionName :=
  (t.relist_outline rule unused).functionName

@[simp]
theorem relist_isStrict : (t.relist rule unused).isStrict = t.isStrict :=
  (t.relist_outline rule unused).isStrict

@[simp]
theorem relist_path (i : Nat) : (t.relist rule unused).path i = t.path i :=
  path_congr fun _ _ => rfl

@[simp]
theorem relist_functionNameOf (i : Nat) :
    (t.relist rule unused).functionNameOf i = t.functionNameOf i := by
  unfold functionNameOf
  rw [relist_path]
  rfl

@[simp]
theorem relist_isWithin (i ancestor : Nat) :
    (t.relist rule unused).isWithin i ancestor = t.isWithin i ancestor := by
  unfold isWithin
  rw [relist_path]

@[simp]
theorem relist_isShadowing (name : String) (target : Nat) :
    (t.relist rule unused).isShadowing name target = t.isShadowing name target := by
  unfold isShadowing
  rw [relist_path]
  rfl

@[simp]
theorem relist_redefinesGlobal (name : String) (target : Nat) :
    (t.relist rule unused).redefinesGlobal name target = t.redefinesGlobal name target := rfl

theorem relist_hoistAll (name : String) (ids : List Nat) :
    (t.relist rule unused).hoistAll name ids = (t.hoistAll name ids).relist rule unused := by
  induction ids generalizing t with
  | nil => rfl
  | cons i ids ih => exact ih (t.modifyFrame i (·.hoist name))

theorem relist_modifyFunction (change : Frame → Frame) :
    (t.relist rule unused).modifyFunction change =
      (t.modifyFunction change).relist rule unused := by
  unfold modifyFunction
  rw [relist_functionId]
  rfl

end Tracker

/-- The session with another rule about unused bindings and another list of them. -/
def Session.relist (rule : UnusedRule) (unused : List UnusedBinding) (s : Session) : Session :=
  { s with tracker := s.tracker.relist rule unused }

namespace Action

/-! ## Actions that list nothing -/

/-- The action does the same whatever the rule about unused bindings and the list of them are. -/
class Unlisting (action : Action α) : Prop where
  run (rule : UnusedRule) (unused : List UnusedBinding) (s : Session) :
    action.run.run (s.relist rule unused) =
      ((action.run.run s).1, (action.run.run s).2.relist rule unused)

namespace Unlisting

instance (a : α) : Unlisting (Pure.pure a : Action α) := ⟨fun _ _ _ => rfl⟩

protected theorem bind {first : Action α} {next : α → Action β} (hfirst : Unlisting first)
    (hnext : ∀ a, Unlisting (next a)) : Unlisting (first >>= next) where
  run rule unused s := by
    rw [run_bind, run_bind, hfirst.run]
    rcases first.run.run s with ⟨reason | a, s'⟩
    · rfl
    · exact (hnext a).run rule unused s'

instance {first : Action α} {next : α → Action β} [hfirst : Unlisting first]
    [hnext : ∀ a, Unlisting (next a)] : Unlisting (first >>= next) := .bind hfirst hnext

instance {c : Prop} [Decidable c] {first second : Action α} [hfirst : Unlisting first]
    [hsecond : Unlisting second] : Unlisting (if c then first else second) := by
  split <;> infer_instance

instance {items : List α} {step : α → Action PUnit} [hstep : ∀ a, Unlisting (step a)] :
    Unlisting (items.forM step) := by
  induction items with
  | nil => exact inferInstanceAs (Unlisting (Pure.pure () : Action PUnit))
  | cons a rest ih => exact .bind (hstep a) fun _ => ih

theorem update {change : Tracker → Tracker}
    (hchange : ∀ (t : Tracker) (rule : UnusedRule) (unused : List UnusedBinding),
      change (t.relist rule unused) = (change t).relist rule unused) :
    Unlisting (update change) where
  run rule unused s := by
    change (Except.ok (), { s with tracker := change (s.tracker.relist rule unused) }) = _
    rw [hchange]
    rfl

/-- What is looked up in the tracker may not depend on the rule or the list. -/
theorem look {next : Tracker → Action α} (hblind : ∀ (t : Tracker) (rule : UnusedRule)
      (unused : List UnusedBinding), next (t.relist rule unused) = next t)
    (hnext : ∀ t, Unlisting (next t)) : Unlisting (tracker >>= next) where
  run rule unused s := by
    change (next (s.tracker.relist rule unused)).run.run (s.relist rule unused) = _
    rw [hblind]
    exact (hnext s.tracker).run rule unused s

instance (code : String) (position : Position) (arguments : List String) (scope : String)
    (hcode : Halt.IsRegular code) : Unlisting (report code position arguments scope hcode) :=
  ⟨fun _ _ s => by rw [run_report, run_report]; rfl⟩

/-- Neither the rule nor the list changes. -/
theorem keeps {action : Action α} (haction : Unlisting action) (s : Session) :
    (action.run.run s).2.tracker.rules.unused = s.tracker.rules.unused ∧
      (action.run.run s).2.tracker.unused = s.tracker.unused := by
  have hrun := congrArg (·.2.tracker) (haction.run s.tracker.rules.unused s.tracker.unused s)
  have hself : s.relist s.tracker.rules.unused s.tracker.unused = s := rfl
  rw [hself] at hrun
  exact ⟨congrArg (·.rules.unused) hrun, congrArg (·.unused) hrun⟩

/-! ### Declarations -/

instance (i : Nat) (change : Frame → Frame) : Unlisting (Action.update (·.modifyFrame i change)) :=
  .update fun _ _ _ => rfl

instance (name : String) (target : Nat) (position : Position) :
    Unlisting (checkNew name target position) := by
  refine .look (fun t rule unused => ?_) fun t => inferInstance
  simp only [Tracker.relist_redefinesGlobal, Tracker.relist_functionName,
    Tracker.relist_isShadowing]
  rfl

instance (target : Nat) (binding : Binding) : Unlisting (bindNew target binding) := by
  unfold bindNew
  infer_instance

instance (code name : String) (position : Position) (hcode : Halt.IsRegular code) :
    Unlisting (reject code name position hcode) :=
  .look (fun t rule unused => by simp) fun t => inferInstance

instance (name : String) : Unlisting (Action.update fun t =>
    t.innerIds.foldl (fun t id => t.modifyFrame id (·.hoist name)) t) := by
  refine .update fun t rule unused => ?_
  rw [Tracker.relist_innerIds]
  exact t.relist_hoistAll rule unused name t.innerIds

instance (name : String) (kind : BindingKind) (position : Position) :
    Unlisting (declareHoisted name kind position) := by
  refine .look (fun t rule unused => ?_) fun t => ?_
  · simp only [Tracker.relist_functionId, Tracker.relist_innerIds]
    rfl
  split
  · infer_instance
  · refine .bind inferInstance fun _ => ?_
    dsimp only
    split <;> infer_instance

instance (name : String) (kind : BindingKind) (position : Position) :
    Unlisting (declareLexical name kind position) := by
  refine .look (fun t rule unused => by simp) fun t => ?_
  dsimp only
  split <;> infer_instance

instance (name : String) (position : Position) :
    Unlisting (declareBlockFunction name position) := by
  refine .look (fun t rule unused => by simp) fun t => ?_
  dsimp only
  split <;> infer_instance

instance (name : String) (position : Position) (distinct : Bool) :
    Unlisting (declareParameter name position distinct) := by
  refine .look (fun t rule unused => by simp) fun t => ?_
  dsimp only
  split <;> infer_instance

instance (name : String) (kind : BindingKind) (position : Position) :
    Unlisting (declare name kind position) := by
  unfold declare
  split <;> infer_instance

/-! ### References -/

instance (b : Binding) (r : Reference) (scope : String) : Unlisting (remarkEarly b r scope) :=
  .look (fun _ _ _ => rfl) fun _ => inferInstance

instance (b : Binding) (r : Reference) (scope : String) : Unlisting (remarkWrite b r scope) := by
  unfold remarkWrite
  split <;> infer_instance

instance (b : Binding) (r : Reference) (scope : String) : Unlisting (remarkOutside b r scope) := by
  refine .look (fun t rule unused => ?_) fun t => ?_
  · simp only [Tracker.relist_isWithin]
    rfl
  split <;> infer_instance

instance (frame : Nat) (b : Binding) (r : Reference) : Unlisting (resolveTo frame b r) :=
  .bind inferInstance fun _ => .look (fun t rule unused => by simp) fun t => inferInstance

instance (r : Reference) : Unlisting (resolveGlobal r) := by
  have hnoted : Unlisting (Action.update fun t =>
      { t with implied := addImplied r.name r.position.line t.implied }) := .update fun _ _ _ => rfl
  refine .look (fun t rule unused => ?_) fun t => ?_
  · simp only [Tracker.relist_functionNameOf]
    rfl
  dsimp only
  split <;> infer_instance

instance (frame id : Nat) : Unlisting (resolve frame id) := by
  have hcrossed : Unlisting (Action.update
      (·.modifyReference id fun r => { r with crossedFunction := true })) :=
    .update fun _ _ _ => rfl
  refine .look (fun _ _ _ => rfl) fun t => ?_
  dsimp only
  split <;> infer_instance

instance (frame : Nat) : Unlisting (resolveAll frame) :=
  .look (fun _ _ _ => rfl) fun _ => inferInstance

end Unlisting

/-! ## Two runs -/

/-- What an action leaves behind where it succeeds does not depend on the sink. -/
theorem Stepwise.tracker_eq {action : Action α} (haction : action.Stepwise) {t : Tracker}
    {sink sink' : Sink} {a a' : α} {s s' : Session} (hrun : action.run.run ⟨t, sink⟩ = (.ok a, s))
    (hrun' : action.run.run ⟨t, sink'⟩ = (.ok a', s')) : a' = a ∧ s'.tracker = s.tracker := by
  induction haction generalizing t sink sink' s s' with
  | pure | tracker | update =>
      cases hrun
      cases hrun'
      exact ⟨rfl, rfl⟩
  | report code position arguments scope hcode =>
      rw [run_report] at hrun hrun'
      obtain ⟨-, rfl⟩ := Prod.mk.inj hrun
      obtain ⟨-, rfl⟩ := Prod.mk.inj hrun'
      exact ⟨rfl, rfl⟩
  | @bind β γ first next hfirst hnext ihfirst ihnext =>
      rw [run_bind] at hrun hrun'
      rcases hmiddle : first.run.run ⟨t, sink⟩ with ⟨reason | b, s₁⟩ <;> rw [hmiddle] at hrun
      · cases hrun
      rcases hmiddle' : first.run.run ⟨t, sink'⟩ with ⟨reason | b', s₁'⟩ <;> rw [hmiddle'] at hrun'
      · cases hrun'
      obtain ⟨rfl, htracker⟩ := ihfirst hmiddle hmiddle'
      obtain ⟨t₁', sink₁'⟩ := s₁'
      obtain rfl : t₁' = s₁.tracker := htracker
      obtain ⟨t₁, sink₁⟩ := s₁
      exact ihnext b' hrun hrun'

/-- Where it succeeds, the action does the same to a tracker that reports nothing of what it lists
and to one that reports it. -/
structure Matched (action : Action α) : Prop where
  run {t : Tracker} {sink sink' : Sink} {a a' : α} {s s' : Session} (hoff : t.rules.unused = .off)
    (hrun : action.run.run ⟨t, sink⟩ = (.ok a, s))
    (hrun' : action.run.run ⟨t.reporting, sink'⟩ = (.ok a', s')) :
    a' = a ∧ s'.tracker = s.tracker.reporting ∧ s.tracker.rules.unused = .off

namespace Matched

theorem of_unlisting (action : Action α) [hunlisting : Unlisting action]
    [hstepwise : action.Stepwise] : Matched action where
  run {t sink sink' a a' s s'} hoff hrun hrun' := by
    obtain ⟨hrule, hunused⟩ := hunlisting.keeps ⟨t, sink⟩
    have hrelisted := hunlisting.run .lastParam t.unused ⟨t, sink⟩
    rw [hrun] at hrule hunused hrelisted
    obtain ⟨rfl, htracker⟩ := hstepwise.tracker_eq hrelisted hrun'
    refine ⟨rfl, htracker.trans ?_, hrule.trans hoff⟩
    exact congrArg (s.tracker.relist .lastParam) hunused.symm

theorem bind {first : Action α} {next : α → Action β} (hfirst : Matched first)
    (hnext : ∀ a, Matched (next a)) : Matched (first >>= next) where
  run {t sink sink' b b' s s'} hoff hrun hrun' := by
    rw [run_bind] at hrun hrun'
    rcases hmiddle : first.run.run ⟨t, sink⟩ with ⟨reason | a, s₁⟩ <;> rw [hmiddle] at hrun
    · cases hrun
    rcases hmiddle' : first.run.run ⟨t.reporting, sink'⟩ with ⟨reason | a', s₁'⟩ <;>
      rw [hmiddle'] at hrun'
    · cases hrun'
    obtain ⟨rfl, htracker, hoff'⟩ := hfirst.run hoff hmiddle hmiddle'
    obtain ⟨t₁', sink₁'⟩ := s₁'
    obtain rfl : t₁' = s₁.tracker.reporting := htracker
    obtain ⟨t₁, sink₁⟩ := s₁
    exact (hnext a').run hoff' hrun hrun'

theorem look {next : Tracker → Action α} (hblind : ∀ t, next t.reporting = next t)
    (hnext : ∀ t, Matched (next t)) : Matched (tracker >>= next) where
  run {t sink sink' a a' s s'} hoff hrun hrun' := by
    have hnext' : (next t.reporting).run.run ⟨t.reporting, sink'⟩ = (.ok a', s') := hrun'
    rw [hblind] at hnext'
    exact (hnext t).run hoff hrun hnext'

theorem forM {items : List α} {step : α → Action PUnit} (hstep : ∀ a ∈ items, Matched (step a)) :
    Matched (items.forM step) := by
  induction items with
  | nil => exact .of_unlisting (Pure.pure ⟨⟩ : Action PUnit)
  | cons a rest ih =>
      exact .bind (hstep a List.mem_cons_self) fun _ =>
        ih fun a' hmem => hstep a' (List.mem_cons_of_mem a hmem)

end Matched

end Action

namespace Operation

/-- Whether the operation neither closes a frame nor sets the rules. -/
def opensOnly : Operation → Bool
  | exitScope | setRules _ => false
  | _ => true

theorem perform_unlisting {operation : Operation} (hopens : operation.opensOnly) :
    Action.Unlisting operation.perform := by
  have hfunction (change : Frame → Frame) :
      Action.Unlisting (Action.update (·.modifyFunction change)) :=
    .update fun t rule unused => t.relist_modifyFunction rule unused change
  cases operation with
  | exitScope | setRules => cases hopens
  | declare name kind position =>
      exact inferInstanceAs (Action.Unlisting (Action.declare name kind position))
  | declareBlockFunction name position =>
      exact inferInstanceAs (Action.Unlisting (Action.declareBlockFunction name position))
  | declareParameter name position distinct =>
      exact inferInstanceAs (Action.Unlisting (Action.declareParameter name position distinct))
  | enterScope kind start =>
      refine .update fun t rule unused => ?_
      unfold Tracker.enterScope
      rw [Tracker.relist_functionName]
      rfl
  | enterFunction facts start =>
      refine .update fun t rule unused => ?_
      unfold Tracker.enterFunction
      rw [Tracker.relist_isStrict]
      rfl
  | markInitialized name offset =>
      refine .update fun t rule unused => ?_
      unfold Tracker.markInitialized
      rw [Tracker.relist_functionIds, Tracker.relist_frame]
      split <;> rfl
  | markExported name =>
      refine .update fun t rule unused => ?_
      unfold Tracker.markExported
      rw [Tracker.relist_exported]
      split <;> rfl
  | changeSink change => exact ⟨fun _ _ _ => rfl⟩
  | declareFunctionName | setStrict | pushLabel | popLabel | enterLoop | exitLoop | enterSwitch
  | exitSwitch | recordYield => exact hfunction _
  | addReference | setAccess | addKnown | removeKnown => exact .update fun _ _ _ => rfl

end Operation

end ScriptLint.Scope

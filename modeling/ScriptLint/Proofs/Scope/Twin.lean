import ScriptLint.Proofs.Diagnostic.Spared
import ScriptLint.Proofs.Scope.Anchor
import ScriptLint.Proofs.Scope.Stepwise

/-! # Scope analysis under a tolerant flag

Of the rules of scope analysis three come from flags. Each decides about the reports of one code
and about nothing else: under the tolerant value the scopes and all other reports are the same.
-/

namespace ScriptLint.Scope

variable {α β : Type} {c : Cursor} {flag? : Option Flag}

/-- The second session differs from the first in what a tolerant flag decides about, if there is
one, and all places that are kept or told are behind the cursor. -/
structure Session.Twins (c : Cursor) (flag? : Option Flag) (s s' : Session) : Prop where
  tracker : s'.tracker = s.tracker.relax flag?
  anchored : s.tracker.Anchored c
  sink : s.sink.Spared c (Flag.spared flag?) s'.sink

theorem unusedBindings_subset (rule : UnusedRule) (exported : String → Bool)
    (bindings : List Binding) : unusedBindings rule exported bindings ⊆ bindings := by
  induction bindings with
  | nil => exact List.Subset.refl _
  | cons b rest ih =>
      have hchoice (listed : Bool) : (if listed then b :: unusedBindings rule exported rest
          else unusedBindings rule exported rest) ⊆ b :: rest := by
        split
        · exact List.cons_subset_cons b ih
        · exact fun _ hmem => List.mem_cons_of_mem b (ih hmem)
      exact hchoice _

namespace Action

/-- Two results are the same but for what the flag decides about. -/
structure Agree (c : Cursor) (flag? : Option Flag) (result result' : Except Halt α × Session) : Prop
    where
  outcome : result'.1 = result.1
  session : result.2.Twins c flag? result'.2

/-- An action does the same in sessions that differ in what a flag decides about. -/
structure Twinned (c : Cursor) (flag? : Option Flag) (action : Action α) : Prop where
  run : ∀ {s s'}, s.Twins c flag? s' → Agree c flag? (action.run.run s) (action.run.run s')

namespace Twinned

variable {position : Position}

protected theorem pure (a : α) : Twinned c flag? (Pure.pure a : Action α) := ⟨fun h => ⟨rfl, h⟩⟩

protected theorem bind {first : Action α} {next : α → Action β} (hfirst : Twinned c flag? first)
    (hnext : ∀ a, Twinned c flag? (next a)) : Twinned c flag? (first >>= next) where
  run {s s'} h := by
    obtain ⟨houtcome, hafter⟩ := hfirst.run h
    rw [run_bind, run_bind]
    rcases hrun : first.run.run s with ⟨reason | a, t⟩ <;>
      rcases hrun' : first.run.run s' with ⟨reason' | a', t'⟩ <;>
      rw [hrun, hrun'] at houtcome hafter <;> cases houtcome
    · exact ⟨rfl, hafter⟩
    · exact (hnext a).run hafter

theorem ite {p : Prop} [Decidable p] {first second : Action α} (hfirst : Twinned c flag? first)
    (hsecond : Twinned c flag? second) : Twinned c flag? (if p then first else second) := by
  split
  · exact hfirst
  · exact hsecond

/-- A step that is left out or taken, with another one after it. -/
theorem when {p : Prop} [Decidable p] {first : Action Unit} {next : Unit → Action α}
    (hfirst : Twinned c flag? first) (hnext : Twinned c flag? (next ())) :
    Twinned c flag? (if p then first >>= next else next ()) :=
  .ite (.bind hfirst fun _ => hnext) hnext

theorem forM {items : List α} {step : α → Action PUnit}
    (hstep : ∀ a ∈ items, Twinned c flag? (step a)) : Twinned c flag? (items.forM step) := by
  induction items with
  | nil => exact .pure _
  | cons a rest ih =>
      exact .bind (hstep a List.mem_cons_self) fun _ =>
        ih fun a' hmem => hstep a' (List.mem_cons_of_mem a hmem)

/-- What is looked up in the tracker may not depend on the flag, unless that is seen to. -/
theorem observe {next : Tracker → Action α} (hnext : ∀ {s s'}, s.Twins c flag? s' →
      Agree c flag? ((next s.tracker).run.run s) ((next (s.tracker.relax flag?)).run.run s')) :
    Twinned c flag? (tracker >>= next) where
  run {s s'} h := by
    have hagree := hnext h
    rw [← h.tracker] at hagree
    exact hagree

theorem look {next : Tracker → Action α} (hblind : ∀ t, next (t.relax flag?) = next t)
    (hnext : ∀ t, t.Anchored c → Twinned c flag? (next t)) :
    Twinned c flag? (tracker >>= next) :=
  .observe fun h => by
    rw [hblind]
    exact (hnext _ h.anchored).run h

theorem update {change : Tracker → Tracker}
    (hrelax : ∀ t, change (t.relax flag?) = (change t).relax flag?)
    (hanchored : ∀ t, t.Anchored c → (change t).Anchored c) :
    Twinned c flag? (update change) where
  run {s s'} h := by
    refine ⟨rfl, ?_, hanchored _ h.anchored, h.sink⟩
    change change s'.tracker = _
    rw [h.tracker, hrelax]
    rfl

section

variable {code : String} {arguments : List String} {scope : String}
  {hregular : Halt.IsRegular code}

theorem report [hcode : Listed code plainCodes] (hposition : c.Passes position) :
    Twinned c flag? (report code position arguments scope hregular) where
  run {s s'} h := by
    rw [run_report, run_report]
    obtain ⟨houtcome, hsink⟩ :=
      h.sink.report (Flag.not_mem_spared flag? hcode.mem) hposition arguments scope
    exact ⟨houtcome, h.tracker, h.anchored, hsink⟩

/-- A report under a condition that the flag takes part in: where it spares the code, the second
session lacks what the first has reported. -/
theorem report_if {p p' : Prop} [Decidable p] [Decidable p']
    (hp : p' ↔ p ∧ code ∉ Flag.spared flag?) (hposition : c.Passes position) {s s' : Session}
    (h : s.Twins c flag? s') :
    Agree c flag?
      ((if p then Action.report code position arguments scope hregular else Pure.pure ()).run.run s)
      ((if p' then Action.report code position arguments scope hregular
        else Pure.pure ()).run.run s') := by
  by_cases hcode : code ∈ Flag.spared flag?
  · rw [if_neg fun hp' => (hp.mp hp').2 hcode]
    split
    · rw [run_report]
      obtain ⟨houtcome, hsink⟩ := h.sink.report_left hcode hposition arguments scope
      exact ⟨houtcome.symm, h.tracker, h.anchored, hsink⟩
    · exact ⟨rfl, h⟩
  · by_cases hpos : p
    · rw [if_pos hpos, if_pos (hp.mpr ⟨hpos, hcode⟩), run_report, run_report]
      obtain ⟨houtcome, hsink⟩ := h.sink.report hcode hposition arguments scope
      exact ⟨houtcome, h.tracker, h.anchored, hsink⟩
    · rw [if_neg hpos, if_neg fun hp' => hpos (hp.mp hp').1]
      exact ⟨rfl, h⟩

end

/-! ## Declarations -/

theorem modifyFrame (i : Nat) {change : Frame → Frame}
    (hanchored : ∀ t : Tracker, t.Anchored c → (t.modifyFrame i change).Anchored c) :
    Twinned c flag? (Action.update (·.modifyFrame i change)) :=
  .update (fun _ => rfl) hanchored

theorem insert (target : Nat) {b : Binding} (hb : c.Passes b.declaredAt) :
    Twinned c flag? (Action.update (·.modifyFrame target (·.insert b))) :=
  .modifyFrame target fun _ ht => ht.insert target hb

theorem modify (target : Nat) (name : String) {change : Binding → Binding}
    (hchange : ∀ b, c.Passes b.declaredAt → c.Passes (change b).declaredAt) :
    Twinned c flag? (Action.update (·.modifyFrame target (·.modify name change))) :=
  .modifyFrame target fun _ ht => ht.modify target name hchange

theorem checkNew (name : String) (target : Nat) (hposition : c.Passes position) :
    Twinned c flag? (checkNew name target position) := by
  refine .look (fun t => ?_) fun t _ =>
    .when (.report hposition) (.ite (.report hposition) (.pure ()))
  simp only [Tracker.relax_redefinesGlobal]
  simp

theorem bindNew (target : Nat) {b : Binding} (hb : c.Passes b.declaredAt) :
    Twinned c flag? (bindNew target b) :=
  .bind (.checkNew b.name target hb) fun _ => .insert target hb

theorem reject {code : String} [Listed code plainCodes] (name : String)
    {hregular : Halt.IsRegular code} (hposition : c.Passes position) :
    Twinned c flag? (reject code name position hregular) :=
  .look (fun t => by simp) fun _ _ => .report hposition

theorem hoistAll (name : String) : Twinned c flag? (Action.update fun t =>
    t.innerIds.foldl (fun t id => t.modifyFrame id (·.hoist name)) t) := by
  have hfold (ids : List Nat) (t : Tracker) :
      (t.relax flag?).hoistAll name ids = (t.hoistAll name ids).relax flag? ∧
        (t.Anchored c → (t.hoistAll name ids).Anchored c) := by
    induction ids generalizing t with
    | nil => exact ⟨rfl, id⟩
    | cons i ids ih =>
        have hhoist (f : Frame) : (f.hoist name).bindings = f.bindings := by
          unfold Frame.hoist
          split <;> rfl
        obtain ⟨hrelax, hanchored⟩ := ih (t.modifyFrame i (·.hoist name))
        exact ⟨hrelax, fun ht => hanchored (ht.modifyFrame_same i hhoist)⟩
  refine .update (fun t => ?_) fun t => (hfold t.innerIds t).2
  rw [Tracker.setRules_innerIds]
  exact (hfold t.innerIds t).1

theorem declareHoisted (name : String) (kind : BindingKind) (hposition : c.Passes position) :
    Twinned c flag? (declareHoisted name kind position) := by
  refine .look (fun t => by simp) fun t ht => .ite (.reject name hposition) (.bind (.hoistAll name)
    fun _ => ?_)
  dsimp only
  split
  next => exact .bindNew _ hposition
  next existing hexisting =>
    have hmerged := ht.find? hexisting
    exact .ite (.reject name hposition) (.bind (.modify _ name fun _ _ => hmerged) fun _ =>
      .ite (.reject name hposition) (.pure ()))

theorem declareLexical (name : String) (kind : BindingKind) (hposition : c.Passes position) :
    Twinned c flag? (declareLexical name kind position) := by
  refine .look (fun t => by simp) fun t _ => ?_
  dsimp only
  split
  next => exact .ite (.modify _ name fun _ _ => hposition) (.reject name hposition)
  next => exact .ite (.reject name hposition) (.bindNew _ hposition)

theorem declareBlockFunction (name : String) (hposition : c.Passes position) :
    Twinned c flag? (declareBlockFunction name position) := by
  refine .look (fun t => by simp) fun t _ => ?_
  dsimp only
  split
  next => exact .ite (.reject name hposition) (.pure ())
  next => exact .ite (.reject name hposition) (.bindNew _ hposition)

theorem declareParameter (name : String) (distinct : Bool) (hposition : c.Passes position) :
    Twinned c flag? (declareParameter name position distinct) := by
  refine .look (fun t => by simp) fun t _ => ?_
  dsimp only
  split
  next =>
    exact .ite (.modify _ name fun _ _ => hposition)
      (.ite (.reject name hposition) (.reject name hposition))
  next => exact .bindNew _ hposition

theorem declare (name : String) (kind : BindingKind) (hposition : c.Passes position) :
    Twinned c flag? (declare name kind position) := by
  unfold Action.declare
  split
  · exact .declareHoisted name _ hposition
  · exact .declareHoisted name _ hposition
  · exact .declareParameter name false hposition
  · exact .declareLexical name kind hposition

/-! ## References -/

theorem plain_of_writeRemark? {b : Binding} {remark : Remark} (hremark : b.writeRemark? = some remark) :
    remark.code ∈ plainCodes := by
  unfold Binding.writeRemark? at hremark
  split at hremark <;> cases hremark <;> exact (inferInstance : Listed _ plainCodes).mem

section

variable {b : Binding} {r : Reference} (hr : c.Passes r.position)
include hr

theorem remarkEarly (scope : String) : Twinned c flag? (remarkEarly b r scope) := by
  refine .observe fun {s s'} h => ?_
  by_cases hdead : r.inDeadZone b = true
  · simp only [if_pos hdead]
    exact (report hr).run h
  · simp only [if_neg hdead]
    refine report_if ?_ hr h
    rw [Flag.mem_spared_iff flag? (show "W003" ∈ Flag.codes .latedef from List.mem_cons_self)]
    simp only [Tracker.setRules_rules, Rules.relax_latedef, Bool.and_eq_true, decide_eq_true_eq]
    tauto

theorem remarkWrite (scope : String) : Twinned c flag? (remarkWrite b r scope) := by
  unfold Action.remarkWrite
  split
  next remark hremark =>
    have : Listed remark.code plainCodes := ⟨plain_of_writeRemark? hremark⟩
    exact .ite (.report hr) (.pure ())
  next => exact .pure ()

theorem remarkOutside (scope : String) : Twinned c flag? (remarkOutside b r scope) := by
  refine .observe fun {s s'} h => ?_
  dsimp only
  cases b.block? with
  | none => exact ⟨rfl, h⟩
  | some block =>
      refine report_if ?_ hr h
      rw [Flag.mem_spared_iff flag? (show "W038" ∈ Flag.codes .funcscope from List.mem_cons_self)]
      simp [Rules.relax_funcscope]
      tauto

theorem resolveTo (frame : Nat) : Twinned c flag? (resolveTo frame b r) := by
  refine .bind (.modify frame b.name fun _ hb => hb) fun _ => ?_
  refine .look (fun t => by simp) fun t _ => ?_
  exact .bind (.remarkEarly hr _) fun _ => .bind (.remarkWrite hr _) fun _ => .remarkOutside hr _

theorem resolveGlobal : Twinned c flag? (resolveGlobal r) := by
  refine .observe fun {s s'} h => ?_
  simp only [Tracker.setRules_known, Tracker.setRules_functionNameOf, Tracker.setRules_rules,
    Rules.relax_edition]
  split
  · exact (ite (.report hr) (.pure ())).run h
  · split
    · -- The use is noted before the remark on it, which looks at the rules from before.
      have hnoted : Twinned c flag? (Action.update fun t =>
          { t with implied := addImplied r.name r.position.line t.implied }) :=
        .update (fun _ => rfl) fun _ ht => ht.of_frames_eq rfl rfl
      refine report_if ?_ hr (hnoted.run h).session
      rw [Flag.mem_spared_iff flag? (show "W117" ∈ Flag.codes .undef from List.mem_cons_self)]
      simp [Rules.relax_undef]
    · exact ⟨rfl, h⟩

end

theorem resolve (frame id : Nat) : Twinned c flag? (resolve frame id) := by
  refine .look (fun _ => rfl) fun t ht => ?_
  dsimp only
  split
  · exact .resolveTo (ht.references id) frame
  · refine .when (.update (fun _ => rfl) fun _ ht => ht.modifyReference id fun _ => rfl) ?_
    exact .modifyFrame _ fun _ ht => ht.modifyFrame_same _ fun _ => rfl
  · exact .resolveGlobal (ht.references id)

theorem resolveAll (frame : Nat) : Twinned c flag? (resolveAll frame) := by
  refine .look (fun _ => rfl) fun t _ => .bind ?_ fun _ => .forM fun id _ => .resolve frame id
  exact .modifyFrame _ fun _ ht => ht.modifyFrame_same _ fun _ => rfl

theorem reportUnused (frame : Nat) : Twinned c flag? (reportUnused frame) := by
  refine .look (fun t => by simp) fun t ht => .forM fun b hb => ?_
  have hposition := ht.bindings frame b (unusedBindings_subset _ _ _ hb)
  refine .bind (.update (fun _ => rfl) fun _ ht => ht.of_frames_eq rfl rfl) fun _ => ?_
  exact .ite (.report hposition) (.pure ())

theorem exitScope : Twinned c flag? exitScope := by
  refine .look (fun _ => rfl) fun t _ => ?_
  split
  · exact .pure ()
  next id stack _ =>
    refine .bind ?_ fun _ => .bind (.resolveAll id) fun _ => .bind ?_ fun _ => .reportUnused id
    · refine .update (fun _ => rfl) fun t ht => ?_
      have hstack : Tracker.Anchored c { t with stack } := ht.of_frames_eq rfl rfl
      exact hstack.modifyFrame_same id fun _ => rfl
    · exact .modifyFrame id fun _ ht => ht.modifyFrame_same id fun _ => rfl

theorem finish : Twinned c flag? finish :=
  .look (fun _ => rfl) fun _ _ => .forM fun _ _ => .exitScope

end Twinned

end Action

end ScriptLint.Scope

import ScriptLint.Proofs.Material.Basic
import ScriptLint.Proofs.Scope.Ensures
import ScriptLint.Proofs.Scope.Twin

/-! # What the scopes remember

Between a token and the report that shows its name, the scopes keep the names of bindings and of
references. Operations on the scopes add no name but those they are given, and report no other.
-/

set_option synthInstance.maxSize 4096

namespace ScriptLint

open Scope (Action Binding BindingKind Frame Reference Session Tracker)

instance : HasTexts Binding := ⟨fun m b => m.name b.name⟩

instance : HasTexts Reference := ⟨fun m r => m.text r.name⟩

instance : HasTexts Tracker := ⟨fun m => Tracker.Carries (m.name ·.name) (m.text ·.name)⟩

instance : HasTexts Sink := ⟨fun m s => HasTexts.Made m s.entries⟩

instance : HasTexts Session := ⟨fun m s => HasTexts.Made m s.tracker ∧ HasTexts.Made m s.sink⟩

namespace Material

variable {m : Material}

instance (b : Binding) [h : Made m b] : Named m b.name := ⟨h.made⟩

instance (r : Reference) [h : Made m r] : Made m r.name := ⟨h.made⟩

instance (t : Tracker) [h : Made m t] (id : Nat) : Made m (t.reference id) :=
  ⟨h.made.references id⟩

/-! ## The sink -/

section

variable {s : Sink} (hs : HasTexts.Made m s)
include hs

theorem sink_report {code : String} {arguments : List String}
    (hcode : Message.Takes code arguments) (harguments : HasTexts.Made m arguments)
    (hleads : m.Leads code arguments) (position : Position) (scope : String) :
    HasTexts.Made m (s.report code position arguments scope).2 := by
  have hnew : HasTexts.Made m ({ code, arguments, position, scope } : Diagnostic) :=
    ⟨hcode, harguments, hleads⟩
  have hlimit : HasTexts.Made m (s.limitEntry position scope) :=
    ⟨Message.takes_halt .tooManyErrors, nofun, nofun⟩
  by_cases hdropped : s.isHalted = true ∨ s.Drops { code, arguments, position, scope }
  · rwa [Sink.report_of_dropped hdropped]
  · obtain ⟨hhalted, hdrops⟩ := not_or.mp hdropped
    have hopen : s.terminal? = none := by simpa [Sink.isHalted] using hhalted
    have haccepted : ∀ d ∈ s.accepted, HasTexts.Made m d := fun d hmem =>
      hs d (List.mem_append_left _ (Array.mem_toList_iff.mpr hmem))
    rw [Sink.report_of_accepted hopen hdrops]
    intro d hmem
    split at hmem <;>
      simp only [Sink.entries, Array.toList_push, hopen, Option.toList_none, Option.toList_some,
        List.append_nil, List.mem_append, List.mem_singleton, Array.mem_toList_iff] at hmem
    · rcases hmem with (hmem | rfl) | rfl
      · exact haccepted d hmem
      · exact hnew
      · exact hlimit
    · rcases hmem with hmem | rfl
      · exact haccepted d hmem
      · exact hnew

theorem sink_terminate (reason : Halt) (position : Position) (scope : String) :
    HasTexts.Made m (s.terminate reason.code position scope) := by
  cases hterminal : s.terminal? with
  | some last => rwa [Sink.terminate_of_isHalted (by simp [Sink.isHalted, hterminal])]
  | none =>
      rw [Sink.terminate_of_open hterminal]
      intro d hmem
      rcases List.mem_append.mp hmem with hmem | hmem
      · exact hs d (List.mem_append_left _ hmem)
      · rw [List.mem_singleton.mp hmem]
        exact ⟨Message.takes_halt reason, fun _ h => absurd h List.not_mem_nil, Led.leads⟩

theorem sink_filter {change : Sink → Sink} (hchange : Sink.Filter change) :
    HasTexts.Made m (change s) := by
  obtain ⟨hterminal, haccepted⟩ := hchange.keeps s
  intro d hmem
  rw [Sink.entries, hterminal, haccepted] at hmem
  exact hs d hmem

end

/-! ## Changes of the tracker -/

/-- A change of the tracker that adds no names but those of the material. -/
class Names (m : Material) (change : Tracker → Tracker) : Prop where
  made {t : Tracker} : HasTexts.Made m t → HasTexts.Made m (change t)

namespace Names

/-- A change of a frame that leaves its bindings alone. -/
theorem frame (id : Nat) {change : Frame → Frame}
    (hchange : ∀ f : Frame, (change f).bindings = f.bindings) :
    Names m (·.modifyFrame id change) := ⟨fun ht => ht.modifyFrame_same id hchange⟩

theorem function {change : Frame → Frame}
    (hchange : ∀ f : Frame, (change f).bindings = f.bindings) :
    Names m (·.modifyFunction change) := ⟨fun ht => ht.modifyFrame_same _ hchange⟩

theorem insert (id : Nat) {b : Binding} (hb : m.name b.name) :
    Names m (·.modifyFrame id (·.insert b)) := ⟨fun ht => ht.insert id hb⟩

theorem modify (id : Nat) (name : String) {change : Binding → Binding}
    (hchange : ∀ b : Binding, m.name b.name → m.name (change b).name) :
    Names m (·.modifyFrame id (·.modify name change)) := ⟨fun ht => ht.modify id name hchange⟩

instance : Names m (·.setStrict) := .function fun _ => rfl

instance (label : Scope.Label) : Names m (·.pushLabel label) := .function fun _ => rfl

instance : Names m (·.popLabel) := .function fun _ => rfl

instance : Names m (·.enterLoop) := .function fun _ => rfl

instance : Names m (·.exitLoop) := .function fun _ => rfl

instance : Names m (·.enterSwitch) := .function fun _ => rfl

instance : Names m (·.exitSwitch) := .function fun _ => rfl

instance : Names m (·.recordYield) := .function fun _ => rfl

instance (kind : Scope.FrameKind) (start : Position) : Names m (·.enterScope kind start) :=
  ⟨fun ht => ht.push rfl⟩

instance (facts : Scope.FunctionFacts) (start : Position) : Names m (·.enterFunction facts start) :=
  ⟨fun ht => ht.push rfl⟩

instance (name : String) (position : Position) [hname : Named m name] :
    Names m (·.declareFunctionName name position) := by
  refine ⟨fun ht => ht.modifyFrame _ fun f hf => ?_⟩
  split
  · exact hf
  · intro b hmem
    rcases List.mem_append.mp hmem with hmem | hmem
    · exact hf b hmem
    · rw [List.mem_singleton.mp hmem]
      exact hname.named

instance (name : String) (offset : Nat) : Names m (·.markInitialized name offset) := by
  refine ⟨fun {t} ht => ?_⟩
  unfold Tracker.markInitialized
  split
  · exact ht
  · refine ht.modify _ name fun b hb => ?_
    split <;> exact hb

instance (name : String) (position : Position) (access : Scope.Access) [hname : Made m name] :
    Names m (·.addReference name position access) :=
  ⟨fun ht => (ht.pushReference (r := ⟨name, position, access, _, _⟩)
    hname.made).modifyFrame_same _ fun _ => rfl⟩

instance (id : Nat) (access : Scope.Access) : Names m (·.setAccess id access) :=
  ⟨fun ht => ht.modifyReference id fun _ hr => hr⟩

instance (name : String) : Names m (·.markExported name) := by
  refine ⟨fun {t} ht => ?_⟩
  unfold Tracker.markExported
  split
  · exact ht
  · exact ht.of_frames_eq rfl rfl

instance (name : String) (writable : Bool) : Names m (·.addKnown name writable) :=
  ⟨fun ht => ht.of_frames_eq rfl rfl⟩

instance (name : String) : Names m (·.removeKnown name) := ⟨fun ht => ht.of_frames_eq rfl rfl⟩

instance (rules : Scope.Rules) : Names m (·.setRules rules) :=
  ⟨fun ht => ht.of_frames_eq rfl rfl⟩

end Names

/-! ## Actions -/

namespace Keeps

instance : Keeps m Action.tracker := by
  have (s : Texts Session m) : Made m s.1.tracker := ⟨s.2.1⟩
  unfold Action.tracker
  infer_instance

theorem update {change : Tracker → Tracker} (hchange : Names m change) :
    Keeps m (Action.update change) := .change fun hs => ⟨hchange.made hs.1, hs.2⟩

instance action (code : String) (position : Position) (arguments : List String) (scope : String)
    (hcode : Halt.IsRegular code) [hformed : Message.Formed code arguments]
    [harguments : Made m arguments] [hleads : Led m code arguments] :
    Keeps m (Action.report code position arguments scope hcode) where
  state hs := by
    rw [Action.run_report]
    exact ⟨hs.1, sink_report hs.2 hformed.takes harguments.made hleads.leads position scope⟩
  answer _ _ := trivial

/-! ### Declarations -/

section

variable (name : String) (position : Position) [hm : m.Lawful] [hname : Named m name]

instance (target : Nat) : Keeps m (Action.checkNew name target position) := by
  unfold Action.checkNew
  infer_instance

omit [hname : Named m name] in
theorem bindNew (target : Nat) {b : Binding} (hb : m.name b.name) :
    Keeps m (Action.bindNew target b) := by
  have : Named m b.name := ⟨hb⟩
  have := update (Names.insert target hb)
  unfold Action.bindNew
  infer_instance

instance (code : String) (hcode : Halt.IsRegular code) [Message.Formed code [name]] :
    Keeps m (Action.reject code name position hcode) := by
  unfold Action.reject
  infer_instance

omit [hm : m.Lawful] [hname : Named m name] in
/-- To pass through frames leaves their bindings alone. -/
theorem hoist : Keeps m (Action.update fun t =>
    t.innerIds.foldl (fun t id => t.modifyFrame id (·.hoist name)) t) := by
  have hfold (ids : List Nat) {t : Tracker} (ht : HasTexts.Made m t) :
      HasTexts.Made m (t.hoistAll name ids) := by
    induction ids generalizing t with
    | nil => exact ht
    | cons id ids ih =>
        refine ih (ht.modifyFrame_same id fun f => ?_)
        unfold Frame.hoist
        split <;> rfl
  exact .update ⟨fun ht => hfold _ ht⟩

instance (kind : BindingKind) : Keeps m (Action.declareHoisted name kind position) := by
  have := hoist (m := m) name
  refine .bind inferInstance fun t => ?_
  split
  · infer_instance
  · refine .bind inferInstance fun _ => ?_
    dsimp only
    split
    next => exact bindNew _ hname.named
    next existing hexisting =>
      have hmerged := t.2.find? hexisting
      split
      · infer_instance
      · exact .bind (update (.modify _ name fun _ _ => hmerged)) fun _ => inferInstance

omit [hm : m.Lawful] [hname : Named m name] in
/-- A binding that gives way to a new one gives it its name. -/
theorem replace (target : Nat) {change : Binding → Binding}
    (hchange : ∀ b : Binding, (change b).name = b.name) :
    Keeps m (Action.update (·.modifyFrame target (·.modify name change))) :=
  update (.modify target name fun b hb => hchange b ▸ hb)

instance (kind : BindingKind) : Keeps m (Action.declareLexical name kind position) := by
  refine .bind inferInstance fun t => ?_
  dsimp only
  split
  next existing _ =>
    split
    · exact replace name _ fun _ => rfl
    · infer_instance
  next =>
    split
    · infer_instance
    · exact bindNew _ hname.named

instance : Keeps m (Action.declareBlockFunction name position) := by
  refine .bind inferInstance fun t => ?_
  dsimp only
  split
  next => infer_instance
  next =>
    split
    · infer_instance
    · exact bindNew _ hname.named

instance (distinct : Bool) : Keeps m (Action.declareParameter name position distinct) := by
  refine .bind inferInstance fun t => ?_
  dsimp only
  split
  next existing _ =>
    split
    · exact replace name _ fun _ => rfl
    · infer_instance
  next => exact bindNew _ hname.named

instance (kind : BindingKind) : Keeps m (Action.declare name kind position) := by
  unfold Action.declare
  split <;> infer_instance

end

/-! ### Resolution -/

variable [hm : m.Lawful]

section

variable (b : Binding) [hb : Made m b] (r : Reference) (scope : String)

instance : Keeps m (Action.remarkEarly b r scope) := by
  unfold Action.remarkEarly
  infer_instance

instance : Keeps m (Action.remarkWrite b r scope) := by
  unfold Action.remarkWrite Binding.writeRemark?
  cases b.kind <;> dsimp only <;> infer_instance

instance : Keeps m (Action.remarkOutside b r scope) := by
  unfold Action.remarkOutside
  refine .bind inferInstance fun t => ?_
  split <;> infer_instance

instance (frame : Nat) : Keeps m (Action.resolveTo frame b r) := by
  have htouch : Keeps m (Action.update (·.modifyFrame frame (·.modify b.name (·.touch r)))) :=
    replace b.name frame fun _ => rfl
  unfold Action.resolveTo
  infer_instance

end

instance (r : Reference) [Made m r] : Keeps m (Action.resolveGlobal r) := by
  have himplied : Keeps m (Action.update fun t =>
      { t with implied := Scope.addImplied r.name r.position.line t.implied }) :=
    update ⟨fun ht => ht.of_frames_eq rfl rfl⟩
  unfold Action.resolveGlobal
  refine .bind inferInstance fun t => ?_
  dsimp only
  split <;> infer_instance

instance (frame id : Nat) : Keeps m (Action.resolve frame id) := by
  have hcross : Keeps m (Action.update (·.modifyReference id fun r =>
      { r with crossedFunction := true })) :=
    update ⟨fun ht => ht.modifyReference id fun _ hr => hr⟩
  have hpass (parent : Nat) : Keeps m (Action.update (·.modifyFrame parent fun f =>
      { f with pending := id :: f.pending })) := update (.frame parent fun _ => rfl)
  unfold Action.resolve
  refine .bind inferInstance fun t => ?_
  dsimp only
  split
  next b hb =>
    have : Made m b := ⟨t.2.find? hb⟩
    infer_instance
  next => infer_instance
  next => infer_instance

instance (frame : Nat) : Keeps m (Action.resolveAll frame) := by
  have hempty : Keeps m (Action.update (·.modifyFrame frame fun f => { f with pending := [] })) :=
    update (.frame frame fun _ => rfl)
  unfold Action.resolveAll
  infer_instance

instance (frame : Nat) : Keeps m (Action.reportUnused frame) := by
  unfold Action.reportUnused
  refine .bind inferInstance fun t => ?_
  have hlist (b : Binding) (scope : String) : Keeps m (Action.update fun t =>
      { t with unused := t.unused ++ [⟨b.name, b.kind, b.declaredAt, scope⟩] }) :=
    update ⟨fun ht => ht.of_frames_eq rfl rfl⟩
  have hfound (rule : UnusedRule) (exported : String → Bool) : Made m
      (Scope.unusedBindings rule exported (t.1.frame frame).bindings) :=
    ⟨fun b hmem => t.2.bindings frame b (Scope.unusedBindings_subset rule exported _ hmem)⟩
  infer_instance

instance : Keeps m Action.exitScope := by
  have hstate (id : Nat) (state : Scope.FrameState) :
      Keeps m (Action.update (·.modifyFrame id fun f => { f with state })) :=
    update (.frame id fun _ => rfl)
  unfold Action.exitScope
  refine .bind inferInstance fun t => ?_
  split
  · infer_instance
  next id stack _ =>
    have hclosing : Keeps m (Action.update fun t =>
        { t with stack }.modifyFrame id fun f => { f with state := .closing }) :=
      .update ⟨fun {t} ht => by
        have ht' : HasTexts.Made m { t with stack } := ht.of_frames_eq rfl rfl
        exact ht'.modifyFrame_same id fun _ => rfl⟩
    infer_instance

instance : Keeps m Action.finish := by
  unfold Action.finish
  infer_instance

end Keeps

end Material

end ScriptLint

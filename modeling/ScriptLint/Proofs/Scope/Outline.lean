import ScriptLint.Proofs.Scope.Level

/-! # Outlines of scopes

What a reader looks at while a program is read is which frames are open and what they are: functions
with their loops and labels, blocks, strict or not. Which names they bind and which references wait
in them is looked at only by scope analysis itself. Two trackers with the same outline are the same
to a reader, and no declaration changes the outline.
-/

namespace ScriptLint.Scope

variable {α β : Type}

/-- The frame without its names. -/
def Frame.outline (f : Frame) : Frame :=
  { f with state := .opened, start := .start, bindings := [], index := [], hoisted := [],
           pending := [] }

namespace Frame

variable (f : Frame) (name : String)

/-- What does not depend on names can be told from the outline. -/
theorem field_eq {γ : Type} {f f' : Frame} (h : f'.outline = f.outline) (field : Frame → γ)
    (hfield : ∀ f, field f.outline = field f := by intro _; rfl) : field f' = field f := by
  rw [← hfield f', h, hfield]

theorem outline_insert (b : Binding) : (f.insert b).outline = f.outline := rfl

theorem outline_modify (change : Binding → Binding) : (f.modify name change).outline = f.outline := by
  unfold modify
  split <;> rfl

theorem outline_hoist : (f.hoist name).outline = f.outline := by
  unfold hoist
  split <;> rfl

end Frame

namespace Tracker

variable {t t' t'' u u' : Tracker}

/-- The trackers are the same but for names. -/
structure SameOutline (t t' : Tracker) : Prop where
  stack : t'.stack = t.stack
  size : t'.frames.size = t.frames.size
  references : t'.references.size = t.references.size
  frame : ∀ i, (t'.frame i).outline = (t.frame i).outline

namespace SameOutline

theorem of_frames_eq (hstack : t'.stack = t.stack) (hframes : t'.frames = t.frames)
    (hreferences : t'.references.size = t.references.size) : t.SameOutline t' := by
  refine ⟨hstack, by rw [hframes], hreferences, fun i => ?_⟩
  rw [Tracker.frame, Tracker.frame, hframes]

theorem refl (t : Tracker) : t.SameOutline t := of_frames_eq rfl rfl rfl

theorem symm (h : t.SameOutline t') : t'.SameOutline t :=
  ⟨h.stack.symm, h.size.symm, h.references.symm, fun i => (h.frame i).symm⟩

theorem trans (hfirst : t.SameOutline t') (hsecond : t'.SameOutline t'') : t.SameOutline t'' :=
  ⟨hsecond.stack.trans hfirst.stack, hsecond.size.trans hfirst.size,
    hsecond.references.trans hfirst.references, fun i => (hsecond.frame i).trans (hfirst.frame i)⟩

/-- A change of the names of a frame. -/
theorem modifyFrame (t : Tracker) (i : Nat) {change : Frame → Frame}
    (hchange : ∀ f : Frame, (change f).outline = f.outline) :
    t.SameOutline (t.modifyFrame i change) :=
  ⟨rfl, t.modifyFrame_size i change, rfl, field_modifyFrame Frame.outline (hchange _)⟩

theorem hoistAll (t : Tracker) (name : String) (ids : List Nat) :
    t.SameOutline (t.hoistAll name ids) := by
  induction ids generalizing t with
  | nil => exact .refl t
  | cons i ids ih => exact (modifyFrame t i (·.outline_hoist name)).trans (ih _)

theorem level (h : t.SameOutline t') : t.Level t' :=
  ⟨h.stack, h.size, fun i => Frame.field_eq (h.frame i) Frame.kind⟩

/-! ### What a reader sees -/

section

variable (h : t.SameOutline t')
include h

theorem currentId : t'.currentId = t.currentId := by rw [Tracker.currentId, h.stack]; rfl

theorem functionIds : t'.functionIds = t.functionIds := by
  rw [Tracker.functionIds, h.stack]
  exact upToFunction_congr fun i _ => h.level.kind i

theorem functionId : t'.functionId = t.functionId := by
  rw [Tracker.functionId, h.functionIds]
  rfl

theorem functionFrame : t'.functionFrame.outline = t.functionFrame.outline := by
  rw [Tracker.functionFrame, h.functionId]
  exact h.frame _

theorem facts : t'.functionFrame.facts = t.functionFrame.facts :=
  Frame.field_eq h.functionFrame Frame.facts

theorem functionName : t'.functionName = t.functionName := Frame.field_eq h.functionFrame Frame.name

theorem inFunction : t'.inFunction = t.inFunction := by
  unfold Tracker.inFunction
  rw [Frame.field_eq h.functionFrame Frame.kind]

theorem currentKind : t'.current.kind = t.current.kind := by
  rw [current, h.currentId]
  exact h.level.kind _

theorem atTopLevel : t'.atTopLevel = t.atTopLevel := by
  rw [Tracker.atTopLevel, h.currentKind]
  rfl

theorem isStrict : t'.isStrict = t.isStrict := by
  have hstrict (i : Nat) : (t'.frame i).strict = (t.frame i).strict :=
    Frame.field_eq (h.frame i) Frame.strict
  simp only [Tracker.isStrict, h.functionIds, hstrict]

theorem label? (name : String) : t'.label? name = t.label? name := by
  rw [Tracker.label?, Frame.field_eq h.functionFrame Frame.labels]
  rfl

theorem ownerFunction? : t'.ownerFunction?.map Frame.outline = t.ownerFunction?.map Frame.outline := by
  have hframes : (t'.stack.map t'.frame).map Frame.outline =
      (t.stack.map t.frame).map Frame.outline := by
    simp only [h.stack, List.map_map, Function.comp_def, h.frame]
  have hfind (frames : List Frame) :
      (frames.find? fun f => f.kind = .function && !f.facts.arrow).map Frame.outline =
        (frames.map Frame.outline).find? fun f => f.kind = .function && !f.facts.arrow := by
    rw [List.find?_map]
    rfl
  rw [Tracker.ownerFunction?, Tracker.ownerFunction?, hfind, hfind, hframes]

theorem ownerFunction?_isNone : t'.ownerFunction?.isNone = t.ownerFunction?.isNone := by
  have howner := congrArg Option.isNone h.ownerFunction?
  simpa only [Option.isNone_map] using howner

/-- What is known of the function that `new.target` and its like belong to. -/
theorem ownerFunction?_any (fact : FunctionFacts → Bool) :
    t'.ownerFunction?.any (fact ·.facts) = t.ownerFunction?.any (fact ·.facts) := by
  have howner := congrArg (Option.any (fact ·.facts)) h.ownerFunction?
  rw [Option.any_map, Option.any_map] at howner
  exact howner

end

/-! ### Changes -/

/-- Changing a frame in the same way, as far as a reader sees. -/
theorem congr_modifyFrame (h : t.SameOutline t') (i : Nat) {change : Frame → Frame}
    (hchange : ∀ f f' : Frame, f'.outline = f.outline → (change f').outline = (change f).outline) :
    (t.modifyFrame i change).SameOutline (t'.modifyFrame i change) := by
  refine ⟨h.stack, by simpa using h.size, h.references, fun j => ?_⟩
  rw [frame_modifyFrame, frame_modifyFrame, h.size]
  split
  · exact hchange _ _ (h.frame i)
  · exact h.frame j

theorem congr_modifyFunction (h : t.SameOutline t') {change : Frame → Frame}
    (hchange : ∀ f f' : Frame, f'.outline = f.outline → (change f').outline = (change f).outline) :
    (t.modifyFunction change).SameOutline (t'.modifyFunction change) := by
  rw [Tracker.modifyFunction, Tracker.modifyFunction, h.functionId]
  exact h.congr_modifyFrame _ hchange

theorem congr_push (h : t.SameOutline t') {f f' : Frame} (hf : f'.outline = f.outline) :
    (t.push f).SameOutline (t'.push f') := by
  refine ⟨?_, ?_, h.references, fun i => ?_⟩
  · change t'.frames.size :: t'.stack = t.frames.size :: t.stack
    rw [h.size, h.stack]
  · simp [push, h.size]
  · rw [frame_push, frame_push, h.size]
    split
    · exact hf
    · exact h.frame i

end SameOutline

/-- The tracker with the innermost frame taken off. -/
def pop (t : Tracker) : Tracker := { t with stack := t.stack.tail }

theorem SameOutline.congr_pop (h : t.SameOutline t') : t.pop.SameOutline t'.pop :=
  ⟨congrArg List.tail h.stack, h.size, h.references, h.frame⟩

/-- The tracker with some of the innermost frames taken off. -/
def drop (n : Nat) (t : Tracker) : Tracker := { t with stack := t.stack.drop n }

theorem drop_succ (n : Nat) (t : Tracker) : t.drop (n + 1) = t.pop.drop n := by
  simp [drop, pop]

theorem SameOutline.congr_drop (h : t.SameOutline t') (n : Nat) :
    (t.drop n).SameOutline (t'.drop n) :=
  ⟨congrArg (List.drop n) h.stack, h.size, h.references, h.frame⟩

end Tracker

namespace Action

variable {t : Tracker}

/-- An action that changes only names, whether or not it is cut short. -/
class KeepsOutline (action : Action α) : Prop where
  keeps : ∀ s : Session, s.tracker.SameOutline (action.run.run s).2.tracker

namespace KeepsOutline

theorem ensures {action : Action α} (haction : KeepsOutline action) (t : Tracker) :
    action.Ensures t fun _ t' => t.SameOutline t' := by
  intro sink a s hrun
  have hkeeps := haction.keeps ⟨t, sink⟩
  rwa [hrun] at hkeeps

instance (a : α) : KeepsOutline (Pure.pure a : Action α) := ⟨fun s => .refl s.tracker⟩

protected theorem bind {first : Action α} {next : α → Action β} (hfirst : KeepsOutline first)
    (hnext : ∀ a, KeepsOutline (next a)) : KeepsOutline (first >>= next) where
  keeps s := by
    have hmiddle := hfirst.keeps s
    rw [run_bind]
    rcases hrun : first.run.run s with ⟨reason | a, s'⟩ <;> rw [hrun] at hmiddle
    · exact hmiddle
    · exact hmiddle.trans ((hnext a).keeps s')

instance {first : Action α} {next : α → Action β} [hfirst : KeepsOutline first]
    [hnext : ∀ a, KeepsOutline (next a)] : KeepsOutline (first >>= next) := .bind hfirst hnext

instance {c : Prop} [Decidable c] {first second : Action α} [hfirst : KeepsOutline first]
    [hsecond : KeepsOutline second] : KeepsOutline (if c then first else second) := by
  split <;> infer_instance

instance {items : List α} {step : α → Action PUnit} [hstep : ∀ a, KeepsOutline (step a)] :
    KeepsOutline (items.forM step) := by
  induction items with
  | nil => exact inferInstanceAs (KeepsOutline (Pure.pure () : Action PUnit))
  | cons a rest ih => exact .bind (hstep a) fun _ => ih

instance : KeepsOutline tracker := ⟨fun s => .refl s.tracker⟩

theorem update {change : Tracker → Tracker} (hchange : ∀ t : Tracker, t.SameOutline (change t)) :
    KeepsOutline (update change) := ⟨fun s => hchange s.tracker⟩

instance (code : String) (position : Position) (arguments : List String) (scope : String)
    (hcode : Halt.IsRegular code) : KeepsOutline (report code position arguments scope hcode) where
  keeps s := by
    rw [run_report]
    exact .refl s.tracker

instance (name : String) (target : Nat) (position : Position) :
    KeepsOutline (checkNew name target position) := by
  unfold checkNew
  infer_instance

instance (target : Nat) (binding : Binding) :
    KeepsOutline (Action.update (·.modifyFrame target (·.insert binding))) :=
  .update fun t => .modifyFrame t target fun f => f.outline_insert binding

instance (target : Nat) (binding : Binding) : KeepsOutline (bindNew target binding) := by
  unfold bindNew
  infer_instance

instance (code name : String) (position : Position) (hcode : Halt.IsRegular code) :
    KeepsOutline (reject code name position hcode) := by
  unfold reject
  infer_instance

instance (target : Nat) (name : String) (change : Binding → Binding) :
    KeepsOutline (Action.update (·.modifyFrame target (·.modify name change))) :=
  .update fun t => .modifyFrame t target fun f => f.outline_modify name change

instance (name : String) : KeepsOutline (Action.update fun t =>
    t.innerIds.foldl (fun t id => t.modifyFrame id (·.hoist name)) t) :=
  .update fun t => .hoistAll t name t.innerIds

instance (name : String) (kind : BindingKind) (position : Position) :
    KeepsOutline (declareHoisted name kind position) := by
  unfold declareHoisted
  refine .bind inferInstance fun t => ?_
  split
  · infer_instance
  · refine .bind inferInstance fun _ => ?_
    dsimp only
    split <;> infer_instance

instance (name : String) (kind : BindingKind) (position : Position) :
    KeepsOutline (declareLexical name kind position) := by
  unfold declareLexical
  refine .bind inferInstance fun t => ?_
  dsimp only
  split <;> infer_instance

instance (name : String) (position : Position) :
    KeepsOutline (declareBlockFunction name position) := by
  unfold declareBlockFunction
  refine .bind inferInstance fun t => ?_
  dsimp only
  split <;> infer_instance

instance (name : String) (position : Position) (distinct : Bool) :
    KeepsOutline (declareParameter name position distinct) := by
  unfold declareParameter
  refine .bind inferInstance fun t => ?_
  dsimp only
  split <;> infer_instance

instance (name : String) (kind : BindingKind) (position : Position) :
    KeepsOutline (declare name kind position) := by
  unfold declare
  split <;> infer_instance

/-! ### The end of a frame -/

instance (b : Binding) (r : Reference) (scope : String) : KeepsOutline (remarkEarly b r scope) := by
  unfold remarkEarly
  infer_instance

instance (b : Binding) (r : Reference) (scope : String) : KeepsOutline (remarkWrite b r scope) := by
  unfold remarkWrite
  split <;> infer_instance

instance (b : Binding) (r : Reference) (scope : String) :
    KeepsOutline (remarkOutside b r scope) := by
  unfold remarkOutside
  refine .bind inferInstance fun t => ?_
  split <;> infer_instance

instance (frame : Nat) (b : Binding) (r : Reference) : KeepsOutline (resolveTo frame b r) := by
  unfold resolveTo
  infer_instance

instance (name : String) (line : Nat) : KeepsOutline (Action.update fun t =>
    { t with implied := addImplied name line t.implied }) :=
  .update fun _ => .of_frames_eq rfl rfl rfl

instance (r : Reference) : KeepsOutline (resolveGlobal r) := by
  unfold resolveGlobal
  refine .bind inferInstance fun t => ?_
  dsimp only
  split <;> infer_instance

instance (id : Nat) (change : Reference → Reference) :
    KeepsOutline (Action.update (·.modifyReference id change)) :=
  .update fun t => .of_frames_eq rfl rfl (t.modifyReference_size id change)

instance (frame : Nat) (pending : Frame → List Nat) :
    KeepsOutline (Action.update (·.modifyFrame frame fun f => { f with pending := pending f })) :=
  .update fun t => .modifyFrame t frame fun _ => rfl

instance (change : Tracker → List UnusedBinding) :
    KeepsOutline (Action.update fun t => { t with unused := change t }) :=
  .update fun _ => .of_frames_eq rfl rfl rfl

instance (frame id : Nat) : KeepsOutline (resolve frame id) := by
  unfold resolve
  refine .bind inferInstance fun t => ?_
  dsimp only
  split
  · infer_instance
  · infer_instance
  · infer_instance

instance (frame : Nat) : KeepsOutline (resolveAll frame) := by
  unfold resolveAll
  infer_instance

instance (frame : Nat) : KeepsOutline (reportUnused frame) := by
  unfold reportUnused
  infer_instance

instance (frame : Nat) (state : FrameState) :
    KeepsOutline (Action.update (·.modifyFrame frame fun f => { f with state })) :=
  .update fun t => .modifyFrame t frame fun _ => rfl

end KeepsOutline

theorem run_exitScope_of_nil {s : Session} (hstack : s.tracker.stack = []) :
    exitScope.run.run s = (.ok (), s) := by
  obtain ⟨t, sink⟩ := s
  cases t
  cases hstack
  rfl

theorem run_exitScope_of_cons {s : Session} {id : Nat} {stack : List Nat}
    (hstack : s.tracker.stack = id :: stack) :
    exitScope.run.run s = (do
      update fun t => { t with stack }.modifyFrame id fun f => { f with state := .closing }
      resolveAll id
      update (·.modifyFrame id fun f => { f with state := .closed })
      reportUnused id : Action Unit).run.run s := by
  obtain ⟨t, sink⟩ := s
  cases t
  cases hstack
  rfl

/-- As far as a reader sees, the end of a frame takes it off and does nothing else, whether or not
it is cut short. -/
theorem exitScope_keeps (s : Session) :
    s.tracker.pop.SameOutline (exitScope.run.run s).2.tracker := by
  cases hstack : s.tracker.stack with
  | nil =>
      have hpop : s.tracker.pop.stack = [] := by simp [Tracker.pop, hstack]
      rw [run_exitScope_of_nil hstack]
      exact ⟨hstack.trans hpop.symm, rfl, rfl, fun _ => rfl⟩
  | cons id stack =>
      have hpop : s.tracker.pop = { s.tracker with stack } := by simp [Tracker.pop, hstack]
      have hmarked : ({ s.tracker with stack } : Tracker).SameOutline
          ({ s.tracker with stack }.modifyFrame id fun f => { f with state := .closing }) :=
        .modifyFrame _ id fun _ => rfl
      have hrest : KeepsOutline (do
          resolveAll id
          update (·.modifyFrame id fun f => { f with state := .closed })
          reportUnused id) := inferInstance
      rw [run_exitScope_of_cons hstack, hpop]
      exact hmarked.trans (hrest.keeps ⟨_, s.sink⟩)

theorem exitScope_outline (t : Tracker) :
    exitScope.Ensures t fun _ t' => t.pop.SameOutline t' := by
  intro sink a s hrun
  have hkeeps := exitScope_keeps ⟨t, sink⟩
  rwa [hrun] at hkeeps

/-- The end of the program takes all frames off. -/
theorem finish_outline (t : Tracker) :
    finish.Ensures t fun _ t' => (t.drop t.stack.length).SameOutline t' := by
  have hexits (ids : List Nat) (t : Tracker) : (ids.forM fun _ => exitScope).Ensures t
      fun _ t' => (t.drop ids.length).SameOutline t' := by
    induction ids generalizing t with
    | nil => exact .pure (.refl t)
    | cons id ids ih =>
        refine .bind ((exitScope_outline t).mono fun _ t₁ hexit => (ih t₁).mono fun _ t₂ hrest => ?_)
        rw [List.length_cons, Tracker.drop_succ]
        exact (hexit.congr_drop ids.length).trans hrest
  exact .bind (.tracker (hexits t.stack t))

end Action

end ScriptLint.Scope

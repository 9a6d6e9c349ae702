import Mathlib.Logic.Relation
import ScriptLint.Proofs.Scope.Operation

/-! # The steps of a logged analysis

What operations do, in eight kinds of steps. A step sees the tracker and the log, and between the
time at which a frame leaves the stack and the time at which it is closed, the references of the
frame that are still to be resolved. Each operation that succeeds is a sequence of steps, so what
every step preserves holds after every run.
-/

namespace ScriptLint.Scope

/-- A frame as it is opened. -/
structure Frame.IsNew (f : Frame) : Prop where
  state : f.state = .opened
  bindings : f.bindings = []
  index : f.index = []
  pending : f.pending = []

namespace Tracker

/-- Take the innermost frame from the stack and its references from the frame. -/
def beginClosing (f : Nat) (stack : List Nat) (t : Tracker) : Tracker :=
  ({ t with stack }.modifyFrame f fun g => { g with state := .closing }).modifyFrame f
    fun g => { g with pending := [] }

/-- Move a reference on from a frame to the one around it. -/
def passOn (f id parent : Nat) (t : Tracker) : Tracker :=
  (if (t.frame f).kind = .function then
      t.modifyReference id fun r => { r with crossedFunction := true }
    else t).modifyFrame parent fun g => { g with pending := id :: g.pending }

variable {t : Tracker} {f : Nat}

theorem frame_addReference (t : Tracker) (name : String) (position : Position) (access : Access)
    (i : Nat) :
    (t.addReference name position access).frame i =
      if t.currentId = i ∧ t.currentId < t.frames.size then
        { t.frame t.currentId with pending := t.references.size :: (t.frame t.currentId).pending }
      else t.frame i :=
  frame_modifyFrame _ _ _ _

/-- A new reference changes a frame only in the references that wait there. -/
theorem field_addReference {α : Type} (field : Frame → α)
    (hfield : ∀ (g : Frame) (pending : List Nat), field { g with pending } = field g)
    (t : Tracker) (name : String) (position : Position) (access : Access) (i : Nat) :
    field ((t.addReference name position access).frame i) = field (t.frame i) :=
  field_modifyFrame field (hfield _ _) i

@[simp]
theorem addReference_size (t : Tracker) (name : String) (position : Position) (access : Access) :
    (t.addReference name position access).frames.size = t.frames.size := by
  simp [addReference]

@[simp]
theorem addReference_references_size (t : Tracker) (name : String) (position : Position)
    (access : Access) :
    (t.addReference name position access).references.size = t.references.size + 1 := by
  simp [addReference]

theorem reference_addReference (t : Tracker) (name : String) (position : Position)
    (access : Access) (id : Nat) :
    (t.addReference name position access).reference id =
      if id = t.references.size then { name, position, access, origin := t.currentId }
      else t.reference id := by
  simp only [addReference, reference, modifyFrame, Array.getD_eq_getD_getElem?]
  grind

theorem frame_beginClosing (hf : f < t.frames.size) (stack : List Nat) (i : Nat) :
    (t.beginClosing f stack).frame i =
      if i = f then { t.frame f with state := .closing, pending := [] } else t.frame i := by
  have hframe (j : Nat) : ({ t with stack } : Tracker).frame j = t.frame j := rfl
  unfold beginClosing
  simp only [frame_modifyFrame, modifyFrame_size, hframe]
  grind

/-- A frame that begins to close changes in its state and its references. -/
theorem field_beginClosing {α : Type} (field : Frame → α)
    (hfield : ∀ (g : Frame) (state : FrameState) (pending : List Nat),
      field { g with state, pending } = field g)
    (t : Tracker) (f : Nat) (stack : List Nat) (i : Nat) :
    field ((t.beginClosing f stack).frame i) = field (t.frame i) :=
  (field_modifyFrame field (hfield _ _ _) i).trans (field_modifyFrame field (hfield _ _ _) i)

/-- The references of a closing frame are resolved in another order, but they are those that
waited. -/
theorem mergeSort_pending_perm (t : Tracker) (f : Nat) (stack : List Nat) :
    ((({ t with stack } : Tracker).modifyFrame f fun g =>
      { g with state := .closing }).frame f).pending.mergeSort.Perm (t.frame f).pending := by
  refine (List.mergeSort_perm _ _).trans (.of_eq ?_)
  rw [frame_modifyFrame]
  split <;> rfl

@[simp]
theorem beginClosing_size (t : Tracker) (f : Nat) (stack : List Nat) :
    (t.beginClosing f stack).frames.size = t.frames.size := by
  simp [beginClosing]

@[simp]
theorem reference_beginClosing (t : Tracker) (f : Nat) (stack : List Nat) (id : Nat) :
    (t.beginClosing f stack).reference id = t.reference id := rfl

theorem frame_passOn (t : Tracker) (f id parent i : Nat) :
    (t.passOn f id parent).frame i =
      if parent = i ∧ parent < t.frames.size then
        { t.frame parent with pending := id :: (t.frame parent).pending }
      else t.frame i := by
  unfold passOn
  split <;> exact frame_modifyFrame _ _ _ _

/-- A reference that moves on changes a frame only in the references that wait there. -/
theorem field_passOn {α : Type} (field : Frame → α)
    (hfield : ∀ (g : Frame) (pending : List Nat), field { g with pending } = field g)
    (t : Tracker) (f id parent i : Nat) :
    field ((t.passOn f id parent).frame i) = field (t.frame i) := by
  rw [frame_passOn]
  split
  next h => rw [hfield, h.1]
  next => rfl

theorem reference_passOn (t : Tracker) (f id parent j : Nat) :
    (t.passOn f id parent).reference j =
      if id = j ∧ id < t.references.size ∧ (t.frame f).kind = .function then
        { t.reference id with crossedFunction := true }
      else t.reference j := by
  unfold passOn
  split <;> simp_all

@[simp]
theorem passOn_size (t : Tracker) (f id parent : Nat) :
    (t.passOn f id parent).frames.size = t.frames.size := by
  unfold passOn
  split <;> simp

@[simp]
theorem passOn_stack (t : Tracker) (f id parent : Nat) :
    (t.passOn f id parent).stack = t.stack := by
  unfold passOn
  split <;> rfl

@[simp]
theorem passOn_references_size (t : Tracker) (f id parent : Nat) :
    (t.passOn f id parent).references.size = t.references.size := by
  unfold passOn
  split <;> simp

end Tracker

/-- A stage of a logged analysis. -/
structure Stage where
  tracker : Tracker
  log : List Event := []
  /-- The frame that is closing, with those of its references that are still to be resolved. -/
  closing? : Option (Nat × List Nat) := none

namespace Stage

/-- What may happen next. -/
inductive Step : Stage → Stage → Prop
  /-- Declarations, and all that concerns neither names nor references. -/
  | grow {t t' : Tracker} {log : List Event} {closing? : Option (Nat × List Nat)}
      (hgrows : t.Grows t') : Step ⟨t, log, closing?⟩ ⟨t', log, closing?⟩
  | enter {t : Tracker} {log : List Event} {f : Frame} (hstack : t.stack ≠ [])
      (hparent : f.parent? = some t.currentId) (hnew : f.IsNew) :
      Step ⟨t, log, none⟩ ⟨t.push f, log, none⟩
  | record {t : Tracker} {log : List Event} (hstack : t.stack ≠ []) (name : String)
      (position : Position) (access : Access) :
      Step ⟨t, log, none⟩
        ⟨t.addReference name position access, .recorded t.references.size access :: log, none⟩
  | setAccess {t : Tracker} {log : List Event} (id : Nat) (access : Access) :
      Step ⟨t, log, none⟩ ⟨t.setAccess id access, .accessSet id access :: log, none⟩
  | leave {t : Tracker} {log : List Event} {f : Nat} {stack ids : List Nat}
      (hstack : t.stack = f :: stack) (hids : ids.Perm (t.frame f).pending) :
      Step ⟨t, log, none⟩ ⟨t.beginClosing f stack, log, some (f, ids)⟩
  | found {t : Tracker} {log : List Event} {f id : Nat} {ids : List Nat} {b : Binding}
      (hfind : (t.frame f).find? (t.reference id).name = some b) :
      Step ⟨t, log, some (f, id :: ids)⟩
        ⟨t.modifyFrame f (·.modify b.name (·.touch (t.reference id))),
          .resolved id (some f) (t.reference id).crossedFunction :: log, some (f, ids)⟩
  | passed {t : Tracker} {log : List Event} {f id parent : Nat} {ids : List Nat}
      (hfind : (t.frame f).find? (t.reference id).name = none)
      (hparent : (t.frame f).parent? = some parent) :
      Step ⟨t, log, some (f, id :: ids)⟩ ⟨t.passOn f id parent, log, some (f, ids)⟩
  | implied {t : Tracker} {log : List Event} {f id : Nat} {ids : List Nat}
      (hfind : (t.frame f).find? (t.reference id).name = none)
      (hroot : (t.frame f).parent? = none) :
      Step ⟨t, log, some (f, id :: ids)⟩
        ⟨t, .resolved id none (t.reference id).crossedFunction :: log, some (f, ids)⟩
  | close {t : Tracker} {log : List Event} {f : Nat} :
      Step ⟨t, log, some (f, [])⟩ ⟨t.modifyFrame f fun g => { g with state := .closed }, log, none⟩

/-- Any number of steps. -/
abbrev Steps : Stage → Stage → Prop := Relation.ReflTransGen Step

end Stage

/-! ## Steps of actions -/

variable {t : Tracker} {log : List Event}

namespace Action

/-- A remark leaves the tracker as it is. -/
theorem remarkEarly_ensures {b : Binding} {r : Reference} {scope : String}
    {post : Unit → Tracker → Prop} (hpost : post () t) :
    (remarkEarly b r scope).Ensures t post :=
  .bind (.tracker (.ite (fun _ => .report hpost)
    fun _ => .ite (fun _ => .report hpost) fun _ => .pure hpost))

theorem remarkWrite_ensures {b : Binding} {r : Reference} {scope : String}
    {post : Unit → Tracker → Prop} (hpost : post () t) :
    (remarkWrite b r scope).Ensures t post := by
  unfold remarkWrite
  split
  · exact .ite (fun _ => .report hpost) fun _ => .pure hpost
  · exact .pure hpost

theorem remarkOutside_ensures {b : Binding} {r : Reference} {scope : String}
    {post : Unit → Tracker → Prop} (hpost : post () t) :
    (remarkOutside b r scope).Ensures t post := by
  refine .bind (.tracker ?_)
  dsimp only
  split
  · exact .ite (fun _ => .report hpost) fun _ => .pure hpost
  · exact .pure hpost

theorem resolveTo_ensures {f : Nat} {b : Binding} {r : Reference} {post : Unit → Tracker → Prop}
    (hpost : post () (t.modifyFrame f (·.modify b.name (·.touch r)))) :
    (resolveTo f b r).Ensures t post :=
  .bind (.update (.bind (.tracker (.bind (remarkEarly_ensures
    (.bind (remarkWrite_ensures (remarkOutside_ensures hpost))))))))

/-- Beyond the global frame, a reference can only be to an implied global. -/
theorem resolveGlobal_ensures (r : Reference) :
    (resolveGlobal r).Ensures t fun _ t' => ∃ implied, t' = { t with implied } := by
  refine .bind (.tracker ?_)
  dsimp only
  split
  · exact .ite (fun _ => .report ⟨_, rfl⟩) fun _ => .pure ⟨_, rfl⟩
  · exact .ite (fun _ => .bind (.update
      (.ite (fun _ => .report ⟨_, rfl⟩) fun _ => .pure ⟨_, rfl⟩))) fun _ => .pure ⟨_, rfl⟩

theorem resolveGlobal_grows (r : Reference) :
    (resolveGlobal r).Ensures t fun _ t' => t.Grows t' := by
  refine (resolveGlobal_ensures r).mono ?_
  rintro _ _ ⟨implied, rfl⟩
  exact .of_frames_eq rfl rfl rfl

/-- A reference in a closing frame is to what the frame binds, or it is passed on to the frame
outside, or there is none and it is to a global. -/
theorem resolve_ensures {f id : Nat} {post : Unit → Tracker → Prop}
    (hfound : ∀ b, (t.frame f).find? (t.reference id).name = some b →
      post () (t.modifyFrame f (·.modify b.name (·.touch (t.reference id)))))
    (hpassed : ∀ parent, (t.frame f).find? (t.reference id).name = none →
      (t.frame f).parent? = some parent → post () (t.passOn f id parent))
    (himplied : ∀ implied, post () { t with implied }) : (resolve f id).Ensures t post := by
  refine .bind (.tracker ?_)
  dsimp only
  split
  next b hfind => exact resolveTo_ensures (hfound b hfind)
  next parent hfind hparent =>
    have hpost := hpassed parent hfind hparent
    unfold Tracker.passOn at hpost
    split
    next hkind =>
      rw [if_pos hkind] at hpost
      exact .bind (.update (.update hpost))
    next hkind =>
      rw [if_neg hkind] at hpost
      exact .update hpost
  next =>
    refine (resolveGlobal_ensures _).mono ?_
    rintro _ _ ⟨implied, rfl⟩
    exact himplied implied

/-- What is unused is listed, and nothing else changes. -/
theorem reportUnused_ensures (f : Nat) :
    (reportUnused f).Ensures t fun _ t' => ∃ unused, t' = { t with unused } := by
  refine .bind (.tracker (.forM (fun _ t' => ∃ unused, t' = { t with unused }) ⟨_, rfl⟩ ?_))
  rintro b _ _ ⟨unused, rfl⟩
  exact .bind (.update (.ite (fun _ => .report ⟨_, rfl⟩) fun _ => .pure ⟨_, rfl⟩))

theorem reportUnused_grows (f : Nat) : (reportUnused f).Ensures t fun _ t' => t.Grows t' := by
  refine (reportUnused_ensures f).mono ?_
  rintro _ _ ⟨unused, rfl⟩
  exact .of_frames_eq rfl rfl rfl

end Action

namespace Logged

variable {α β : Type}

/-- Whenever the logged action succeeds on the tracker and the log, its answer, the tracker and the
log after it satisfy `post`. -/
def Ensures (logged : Logged α) (t : Tracker) (log : List Event)
    (post : α → Tracker → List Event → Prop) : Prop :=
  (logged.run log).Ensures t fun answer t' => post answer.1 t' answer.2

namespace Ensures

variable {post : α → Tracker → List Event → Prop}

theorem mono {logged : Logged α} {post' : α → Tracker → List Event → Prop}
    (hlogged : logged.Ensures t log post') (himp : ∀ a t' log', post' a t' log' → post a t' log') :
    logged.Ensures t log post :=
  Action.Ensures.mono hlogged fun answer t' => himp answer.1 t' answer.2

theorem pure {a : α} (hpost : post a t log) : Ensures (Pure.pure a) t log post :=
  Action.Ensures.pure hpost

theorem bind {first : Logged α} {next : α → Logged β} {post : β → Tracker → List Event → Prop}
    (hfirst : first.Ensures t log fun a t' log' => (next a).Ensures t' log' post) :
    (first >>= next).Ensures t log post :=
  Action.Ensures.bind hfirst

theorem lift {action : Action α} (haction : action.Ensures t fun a t' => post a t' log) :
    Ensures (liftM action) t log post :=
  Action.Ensures.bind (haction.mono fun _ _ hpost => .pure hpost)

theorem note {event : Event} {post : Unit → Tracker → List Event → Prop}
    (hpost : post () t (event :: log)) : (note event).Ensures t log post :=
  Action.Ensures.pure hpost

/-- What each round of a loop takes from the items that are left to those after it holds in the end
of none. -/
theorem forM (inv : List α → Tracker → List Event → Prop) {items : List α}
    {step : α → Logged PUnit} (hstart : inv items t log)
    (hstep : ∀ a rest t log, inv (a :: rest) t log →
      (step a).Ensures t log fun _ t' log' => inv rest t' log') :
    (items.forM step).Ensures t log fun _ t' log' => inv [] t' log' := by
  induction items generalizing t log with
  | nil => exact .pure hstart
  | cons a rest ih =>
      exact .bind ((hstep a rest t log hstart).mono fun _ _ _ hrest => ih hrest)

end Ensures

open Stage

theorem resolve_steps (f id : Nat) (ids : List Nat) :
    (resolve f id).Ensures t log fun _ t' log' =>
      Steps ⟨t, log, some (f, id :: ids)⟩ ⟨t', log', some (f, ids)⟩ ∧ t'.stack = t.stack := by
  refine .bind (.lift (.tracker ?_))
  dsimp only
  -- The branches are the steps `found`, `passed` and `implied`.
  split
  next b hfind =>
    refine .bind (.note (.lift (Action.resolveTo_ensures ?_)))
    exact ⟨.single (.found hfind), rfl⟩
  next parent hfind hparent =>
    have hstep : Step ⟨t, log, some (f, id :: ids)⟩ _ := .passed hfind hparent
    unfold Tracker.passOn at hstep
    split
    next hkind =>
      rw [if_pos hkind] at hstep
      exact .bind (.lift (.update (.lift (.update ⟨.single hstep, rfl⟩))))
    next hkind =>
      rw [if_neg hkind] at hstep
      exact .lift (.update ⟨.single hstep, rfl⟩)
  next hfind hroot =>
    refine .bind (.note (.lift ((Action.resolveGlobal_grows _).mono fun _ t' hgrows => ?_)))
    exact ⟨.tail (.single (.implied hfind hroot)) (.grow hgrows), hgrows.stack⟩

theorem exitScope_steps :
    exitScope.Ensures t log fun _ t' log' =>
      Steps ⟨t, log, none⟩ ⟨t', log', none⟩ ∧ t'.stack = t.stack.tail := by
  refine .bind (.lift (.tracker ?_))
  split
  next hstack => exact .pure ⟨.refl, by rw [hstack]; rfl⟩
  next f stack hstack =>
    have hids := t.mergeSort_pending_perm f stack
    refine .bind (.lift (.update (.bind ?_)))
    refine .bind (.lift (.tracker (.bind (.lift (.update ?_)))))
    -- What is left of the loop is what is left to resolve.
    refine (Ensures.forM (fun ids t' log' =>
      Steps ⟨t, log, none⟩ ⟨t', log', some (f, ids)⟩ ∧ t'.stack = stack)
      ⟨.single (.leave hstack hids), rfl⟩ fun id ids t' log' h => ?_).mono fun _ t' log' h => ?_
    · exact (resolve_steps f id ids).mono fun _ _ _ h' => ⟨h.1.trans h'.1, h'.2.trans h.2⟩
    · refine .bind (.lift (.update (.lift ?_)))
      refine (Action.reportUnused_grows f).mono fun _ t'' hgrows => ?_
      refine ⟨(h.1.tail .close).tail (.grow hgrows), ?_⟩
      rw [hgrows.stack, hstack]
      exact h.2

theorem finish_steps :
    finish.Ensures t log fun _ t' log' =>
      Steps ⟨t, log, none⟩ ⟨t', log', none⟩ ∧ t'.stack = [] := by
  refine .bind (.lift (.tracker ?_))
  -- Each round closes one frame, so there are as many rounds left as frames on the stack.
  exact .forM (fun ids t' log' => Steps ⟨t, log, none⟩ ⟨t', log', none⟩ ∧ t'.stack = ids)
    ⟨.refl, rfl⟩ fun id ids t' log' h => exitScope_steps.mono fun _ _ _ h' =>
      ⟨h.1.trans h'.1, by rw [h'.2, h.2]; rfl⟩

end Logged

namespace Operation

open Stage Logged

/-- Each operation takes steps, and leaves as many frames open as it should. -/
theorem log_steps (operation : Operation) (hstack : t.stack ≠ []) :
    operation.log.Ensures t log fun _ t' log' =>
      Steps ⟨t, log, none⟩ ⟨t', log', none⟩ ∧
        t'.stack.length = operation.depthAfter t.stack.length := by
  have hgrow {t' : Tracker} (hgrows : t.Grows t') :
      Steps ⟨t, log, none⟩ ⟨t', log, none⟩ ∧ t'.stack.length = t.stack.length :=
    ⟨.single (.grow hgrows), by rw [hgrows.stack]⟩
  have hfunction {change : Frame → Frame} (hchange : ∀ f : Frame, f.Grows (change f)) :
      Steps ⟨t, log, none⟩ ⟨t.modifyFunction change, log, none⟩ ∧
        (t.modifyFunction change).stack.length = t.stack.length :=
    hgrow (.modifyFunction hstack hchange)
  -- All but the operations on frames and on references let the tracker grow and nothing else.
  cases operation with
  | enterScope kind start =>
      exact .lift (.update ⟨.single (.enter hstack rfl ⟨rfl, rfl, rfl, rfl⟩), rfl⟩)
  | enterFunction facts start =>
      exact .lift (.update ⟨.single (.enter hstack rfl ⟨rfl, rfl, rfl, rfl⟩), rfl⟩)
  | exitScope =>
      refine exitScope_steps.mono fun _ t' _ h => ⟨h.1, ?_⟩
      rw [h.2, List.length_tail]
      rfl
  | declare name kind position =>
      exact .lift ((Action.declare_grows hstack name kind position).mono fun _ _ => hgrow)
  | declareBlockFunction name position =>
      exact .lift ((Action.declareBlockFunction_grows hstack name position).mono fun _ _ => hgrow)
  | declareParameter name position distinct =>
      exact .lift ((Action.declareParameter_grows hstack name position distinct).mono
        fun _ _ => hgrow)
  | declareFunctionName name position =>
      exact .lift (.update (hgrow (Tracker.declareFunctionName_grows hstack name position)))
  | markInitialized name offset =>
      exact .lift (.update (hgrow (Tracker.markInitialized_grows name offset)))
  | addReference name position access =>
      refine .bind (.lift (.tracker (.bind (.note (.lift (.update ⟨.single ?_, rfl⟩))))))
      exact .record hstack name position access
  | setAccess id access =>
      exact .bind (.note (.lift (.update ⟨.single (.setAccess id access), rfl⟩)))
  | markExported name =>
      refine .lift (.update (hgrow ?_))
      unfold Tracker.markExported
      split <;> exact .of_frames_eq rfl rfl rfl
  | addKnown name writable => exact .lift (.update (hgrow (.of_frames_eq rfl rfl rfl)))
  | removeKnown name => exact .lift (.update (hgrow (.of_frames_eq rfl rfl rfl)))
  | setRules rules => exact .lift (.update (hgrow (.of_frames_eq rfl rfl rfl)))
  | setStrict => exact .lift (.update (hfunction fun _ => .of_same rfl rfl rfl rfl rfl rfl))
  | pushLabel label => exact .lift (.update (hfunction fun _ => .of_same rfl rfl rfl rfl rfl rfl))
  | popLabel => exact .lift (.update (hfunction fun _ => .of_same rfl rfl rfl rfl rfl rfl))
  | enterLoop => exact .lift (.update (hfunction fun _ => .of_same rfl rfl rfl rfl rfl rfl))
  | exitLoop => exact .lift (.update (hfunction fun _ => .of_same rfl rfl rfl rfl rfl rfl))
  | enterSwitch => exact .lift (.update (hfunction fun _ => .of_same rfl rfl rfl rfl rfl rfl))
  | exitSwitch => exact .lift (.update (hfunction fun _ => .of_same rfl rfl rfl rfl rfl rfl))
  | recordYield => exact .lift (.update (hfunction fun _ => .of_same rfl rfl rfl rfl rfl rfl))
  | changeSink change =>
      refine .lift ?_
      rintro sink a s ⟨⟩
      exact hgrow (.refl t)

theorem logAll_steps {operations : List Operation}
    (hopen : keepOpen t.stack.length operations) (hstack : t.stack ≠ []) :
    (logAll operations).Ensures t log fun _ t' log' =>
      Steps ⟨t, log, none⟩ ⟨t', log', none⟩ ∧ t'.stack ≠ [] := by
  refine (Ensures.forM (fun operations t' log' => Steps ⟨t, log, none⟩ ⟨t', log', none⟩ ∧
    t'.stack ≠ [] ∧ keepOpen t'.stack.length operations) ⟨.refl, hstack, hopen⟩
    fun operation rest t' log' h => ?_).mono fun _ _ _ h => ⟨h.1, h.2.1⟩
  obtain ⟨hsteps, hstack', hopen'⟩ := h
  obtain ⟨hpos, hrest⟩ := (Bool.and_eq_true _ _).mp hopen'
  refine (operation.log_steps hstack').mono fun _ t'' log'' h => ⟨hsteps.trans h.1, ?_, ?_⟩
  · exact List.ne_nil_of_length_pos (h.2 ▸ of_decide_eq_true hpos)
  · exact h.2 ▸ hrest

/-! ## Runs -/

/-- A run that succeeds can be logged, and it takes steps from the beginning of a script. -/
theorem exists_log_of_performAll {known : KnownGlobals} {rules : Rules} {module strict : Bool}
    {sink : Sink} {operations : List Operation} {s : Session}
    (hopen : keepOpen (if module then 2 else 1) operations)
    (hrun : (performAll operations).run.run ⟨.start known rules module strict, sink⟩ =
      (.ok (), s)) :
    ∃ log, ((logAll operations).run []).run.run ⟨.start known rules module strict, sink⟩ =
        (.ok ((), log), s) ∧
      Steps ⟨.start known rules false strict, [], none⟩ ⟨s.tracker, log, none⟩ ∧
      s.tracker.stack ≠ [] := by
  obtain ⟨log, hlog⟩ := (logAll_erases operations).exists_log hrun []
  have hstart : Steps ⟨.start known rules false strict, [], none⟩
      ⟨.start known rules module strict, [], none⟩ := by
    -- A module begins as a script whose first step is to enter the frame of the module.
    cases module with
    | false => exact .refl
    | true => exact .single (.enter (by simp [Tracker.start]) rfl ⟨rfl, rfl, rfl, rfl⟩)
  have hdepth : keepOpen (Tracker.start known rules module strict).stack.length operations := by
    cases module <;> exact hopen
  have hstack : (Tracker.start known rules module strict).stack ≠ [] := by
    cases module <;> exact List.cons_ne_nil _ _
  obtain ⟨hsteps, hnonempty⟩ := logAll_steps hdepth hstack sink _ _ hlog
  exact ⟨log, hlog, hstart.trans hsteps, hnonempty⟩

end Operation

/-- A last operation that succeeds can be logged, takes steps, and leaves no frame open. -/
theorem Logged.exists_log_of_finish {s s' : Session}
    (hrun : Action.finish.run.run s = (.ok (), s')) (log : List Event) :
    ∃ log', (Logged.finish.run log).run.run s = (.ok ((), log'), s') ∧
      Stage.Steps ⟨s.tracker, log, none⟩ ⟨s'.tracker, log', none⟩ ∧ s'.tracker.stack = [] := by
  obtain ⟨log', hlog⟩ := Erases.finish.exists_log hrun log
  exact ⟨log', hlog, finish_steps s.sink _ _ hlog⟩

end ScriptLint.Scope

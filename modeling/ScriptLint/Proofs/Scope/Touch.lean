import ScriptLint.Proofs.Scope.Level

/-! # Which frames are touched

Names are declared in the frames of the current function, and dead zones end there, so an operation
touches no other frame. As long as a function is open that was entered later than some frame, that
frame is out of reach, and when the function is left again the frame declares what it did.
-/

namespace ScriptLint.Scope

/-- Nothing was declared between the two, no dead zone was ended, and no `var` passed through. -/
structure Frame.Untouched (f f' : Frame) : Prop where
  kind : f'.kind = f.kind
  hoisted : f'.hoisted = f.hoisted
  declaration? : ∀ name, f'.declaration? name = f.declaration? name

namespace Frame.Untouched

variable {f f' f'' : Frame}

theorem refl (f : Frame) : f.Untouched f := ⟨rfl, rfl, fun _ => rfl⟩

theorem trans (hfirst : f.Untouched f') (hsecond : f'.Untouched f'') : f.Untouched f'' :=
  ⟨hsecond.kind.trans hfirst.kind, hsecond.hoisted.trans hfirst.hoisted,
    fun name => (hsecond.declaration? name).trans (hfirst.declaration? name)⟩

theorem of_rests (hrests : f.Rests f') : f.Untouched f' :=
  ⟨hrests.kind, hrests.hoisted, hrests.declaration?⟩

theorem find?_eq_none (h : f.Untouched f') {name : String} :
    f'.find? name = none ↔ f.find? name = none := by
  simpa only [Frame.declaration?, Option.map_eq_none_iff] using
    (congrArg (· = none) (h.declaration? name)).to_iff

theorem exists_find? (h : f.Untouched f') {name : String} {b : Binding}
    (hfind : f.find? name = some b) :
    ∃ b', f'.find? name = some b' ∧ b'.declaration = b.declaration := by
  have hdeclared := h.declaration? name
  rw [Frame.declaration?, Frame.declaration?, hfind, Option.map_some] at hdeclared
  exact Option.map_eq_some_iff.mp hdeclared

end Frame.Untouched

namespace Tracker

variable {t t' t'' : Tracker} {ids : List Nat}

/-- Of the frames that were there before, only those in the list may be touched. -/
structure TouchesOnly (ids : List Nat) (t t' : Tracker) : Prop where
  size_le : t.frames.size ≤ t'.frames.size
  kind : ∀ i < t.frames.size, (t'.frame i).kind = (t.frame i).kind
  frame : ∀ i < t.frames.size, i ∉ ids → (t.frame i).Untouched (t'.frame i)

namespace TouchesOnly

theorem trans (hfirst : TouchesOnly ids t t') (hsecond : TouchesOnly ids t' t'') :
    TouchesOnly ids t t'' where
  size_le := Nat.le_trans hfirst.size_le hsecond.size_le
  kind i hi :=
    (hsecond.kind i (Nat.lt_of_lt_of_le hi hfirst.size_le)).trans (hfirst.kind i hi)
  frame i hi hmem :=
    (hfirst.frame i hi hmem).trans
      (hsecond.frame i (Nat.lt_of_lt_of_le hi hfirst.size_le) hmem)

/-- Where none may be touched, none is. -/
theorem untouched (h : TouchesOnly [] t t') {i : Nat} (hi : i < t.frames.size) :
    (t.frame i).Untouched (t'.frame i) := h.frame i hi List.not_mem_nil

/-- What is touched later and was not there before does not matter. -/
theorem beyond (h : TouchesOnly [] t t') (hlater : TouchesOnly ids t' t'')
    (hids : ∀ i ∈ ids, t.frames.size ≤ i) : TouchesOnly [] t t'' where
  size_le := Nat.le_trans h.size_le hlater.size_le
  kind i hi := (hlater.kind i (Nat.lt_of_lt_of_le hi h.size_le)).trans (h.kind i hi)
  frame i hi _ := by
    have hother : i ∉ ids := fun hmem => Nat.not_le_of_lt hi (hids i hmem)
    exact (h.untouched hi).trans (hlater.frame i (Nat.lt_of_lt_of_le hi h.size_le) hother)

theorem of_untouched (hsize : t.frames.size ≤ t'.frames.size)
    (hframe : ∀ i < t.frames.size, (t.frame i).Untouched (t'.frame i)) : TouchesOnly ids t t' :=
  ⟨hsize, fun i hi => (hframe i hi).kind, fun i hi _ => hframe i hi⟩

theorem mono {ids' : List Nat} (h : TouchesOnly ids t t') (hids : ids ⊆ ids') :
    TouchesOnly ids' t t' :=
  ⟨h.size_le, h.kind, fun i hi hmem => h.frame i hi fun hmem' => hmem (hids hmem')⟩

theorem of_frames_eq (hframes : t'.frames = t.frames) : TouchesOnly ids t t' := by
  refine of_untouched (Nat.le_of_eq (by rw [hframes])) fun i _ => ?_
  rw [Tracker.frame, Tracker.frame, hframes]
  exact .refl _

theorem refl (t : Tracker) : TouchesOnly ids t t := of_frames_eq rfl

theorem of_rests {stack : List Nat} (hrests : Tracker.Rests { t with stack } t') :
    TouchesOnly ids t t' :=
  of_untouched (Nat.le_of_eq hrests.size.symm) fun i _ => .of_rests (hrests.frame i)

theorem modifyFrame {i : Nat} (hi : i ∈ ids) {change : Frame → Frame}
    (hkind : ∀ f : Frame, (change f).kind = f.kind) :
    TouchesOnly ids t (t.modifyFrame i change) := by
  refine ⟨Nat.le_of_eq (modifyFrame_size t i change).symm, fun j _ =>
    field_modifyFrame Frame.kind (hkind _) j, fun j _ hj => ?_⟩
  have hother : ¬ (i = j ∧ i < t.frames.size) := fun h => hj (h.1 ▸ hi)
  rw [frame_modifyFrame, if_neg hother]
  exact .refl _

theorem modifyFrame_untouched (i : Nat) {change : Frame → Frame}
    (hchange : ∀ f : Frame, f.Untouched (change f)) :
    TouchesOnly ids t (t.modifyFrame i change) := by
  refine of_untouched (Nat.le_of_eq (modifyFrame_size t i change).symm) fun j _ => ?_
  rw [frame_modifyFrame]
  split
  next h => exact h.1 ▸ hchange _
  next => exact .refl _

theorem modify {i : Nat} (hi : i ∈ ids) (name : String) (change : Binding → Binding) :
    TouchesOnly ids t (t.modifyFrame i (·.modify name change)) :=
  modifyFrame hi fun f => f.modify_kind name change

theorem insert {i : Nat} (hi : i ∈ ids) (b : Binding) :
    TouchesOnly ids t (t.modifyFrame i (·.insert b)) := modifyFrame hi fun _ => rfl

theorem push (t : Tracker) (f : Frame) : TouchesOnly ids t (t.push f) := by
  refine of_untouched (by simp [Tracker.push]) fun i hi => ?_
  rw [frame_push, if_neg (Nat.ne_of_lt hi)]
  exact .refl _

theorem hoistAll (name : String) {inner : List Nat} (hinner : inner ⊆ ids) :
    TouchesOnly ids t (t.hoistAll name inner) := by
  induction inner generalizing t with
  | nil => exact .refl t
  | cons i inner ih =>
      obtain ⟨hi, hinner⟩ := List.cons_subset.mp hinner
      have hhoist (f : Frame) : (f.hoist name).kind = f.kind := by
        unfold Frame.hoist
        split <;> rfl
      exact (modifyFrame hi hhoist).trans (ih hinner)

end TouchesOnly

theorem functionId_mem_functionIds (hstack : t.stack ≠ []) : t.functionId ∈ t.functionIds := by
  rw [functionIds_eq_append hstack]
  exact List.mem_append_right _ List.mem_cons_self

end Tracker

/-! ## Operations -/

namespace Action

variable {t : Tracker}

theorem declareHoisted_touches (hstack : t.stack ≠ []) (name : String) (kind : BindingKind)
    (position : Position) :
    (declareHoisted name kind position).Ensures t fun _ t' =>
      t.TouchesOnly t.functionIds t' := by
  have hhoist : t.TouchesOnly t.functionIds (t.hoistAll name t.innerIds) :=
    .hoistAll name (List.dropLast_subset _)
  have htarget := Tracker.functionId_mem_functionIds hstack
  refine declareHoisted_ensures (fun _ => .refl t) fun _ => ⟨fun _ => ?_, fun b _ => ?_⟩
  · exact hhoist.trans (.insert htarget _)
  · split
    · exact hhoist
    · exact hhoist.trans (.modify htarget name _)

theorem declareLexical_touches {ids : List Nat} (htarget : t.currentId ∈ ids) (name : String)
    (kind : BindingKind) (position : Position) :
    (declareLexical name kind position).Ensures t fun _ t' => t.TouchesOnly ids t' :=
  declareLexical_ensures (fun _ _ _ => .modify htarget name _) (fun _ _ => .insert htarget _)
    fun _ _ => .refl t

theorem declareBlockFunction_touches {ids : List Nat} (htarget : t.currentId ∈ ids) (name : String)
    (position : Position) :
    (declareBlockFunction name position).Ensures t fun _ t' => t.TouchesOnly ids t' :=
  declareBlockFunction_ensures (.refl t) fun _ => .insert htarget _

theorem declareParameter_touches {ids : List Nat} (htarget : t.functionId ∈ ids) (name : String)
    (position : Position) (distinct : Bool) :
    (declareParameter name position distinct).Ensures t fun _ t' => t.TouchesOnly ids t' :=
  declareParameter_ensures (fun _ _ _ => .modify htarget name _) (fun _ => .insert htarget _)
    fun _ _ _ => .refl t

theorem declare_touches (hstack : t.stack ≠ []) (name : String) (kind : BindingKind)
    (position : Position) :
    (declare name kind position).Ensures t fun _ t' => t.TouchesOnly t.functionIds t' := by
  unfold declare
  split
  · exact declareHoisted_touches hstack name _ position
  · exact declareHoisted_touches hstack name _ position
  · exact declareParameter_touches (Tracker.functionId_mem_functionIds hstack) name position false
  · exact declareLexical_touches (Tracker.currentId_mem_functionIds hstack) name kind position

end Action

namespace Tracker

variable {t : Tracker} {ids : List Nat}

theorem markInitialized_touches (name : String) (offset : Nat) :
    t.TouchesOnly t.functionIds (t.markInitialized name offset) := by
  unfold markInitialized
  split
  next => exact .refl t
  next i hi => exact .modify (List.mem_of_find?_eq_some hi) name _

theorem declareFunctionName_touches (hstack : t.stack ≠ []) (name : String) (position : Position) :
    t.TouchesOnly t.functionIds (t.declareFunctionName name position) := by
  refine .modifyFrame (functionId_mem_functionIds hstack) fun f => ?_
  split <;> rfl

theorem addReference_touches (name : String) (position : Position) (access : Access) :
    t.TouchesOnly ids (t.addReference name position access) := by
  have hrecorded (references : Array Reference) : t.TouchesOnly ids { t with references } :=
    .of_frames_eq rfl
  exact (hrecorded _).trans (.modifyFrame_untouched _ fun _ => ⟨rfl, rfl, fun _ => rfl⟩)

theorem markExported_touches (name : String) : t.TouchesOnly ids (t.markExported name) := by
  unfold markExported
  split <;> exact .of_frames_eq rfl

end Tracker

/-- An operation touches frames of the current function only. -/
theorem Operation.perform_touches {t : Tracker} (operation : Operation) (hstack : t.stack ≠ []) :
    operation.perform.Ensures t fun _ t' => t.TouchesOnly t.functionIds t' := by
  have hcurrent := Tracker.currentId_mem_functionIds hstack
  have hfunction := Tracker.functionId_mem_functionIds hstack
  cases operation with
  | enterScope | enterFunction => exact .update (.push t _)
  | exitScope => exact Action.exitScope_rests.mono fun _ _ => .of_rests
  | declare name kind position => exact Action.declare_touches hstack name kind position
  | declareBlockFunction name position =>
      exact Action.declareBlockFunction_touches hcurrent name position
  | declareParameter name position distinct =>
      exact Action.declareParameter_touches hfunction name position distinct
  | declareFunctionName name position =>
      exact .update (Tracker.declareFunctionName_touches hstack name position)
  | markInitialized name offset => exact .update (Tracker.markInitialized_touches name offset)
  | addReference name position access =>
      exact .update (Tracker.addReference_touches name position access)
  | markExported name => exact .update (Tracker.markExported_touches name)
  | setAccess | addKnown | removeKnown | setRules => exact .update (.of_frames_eq rfl)
  | changeSink change =>
      rintro sink _ _ ⟨⟩
      exact .refl t
  | _ => exact .update (.modifyFrame_untouched _ fun _ => ⟨rfl, rfl, fun _ => rfl⟩)

/-! ## Trackers -/

namespace Tracker

variable {t t' t'' : Tracker} {n : Nat}

/-- The same frames are open, and those that were there before are untouched. -/
structure Untouched (t t' : Tracker) : Prop extends TouchesOnly [] t t' where
  stack : t'.stack = t.stack

namespace Untouched

theorem refl (t : Tracker) : t.Untouched t := ⟨.refl t, rfl⟩

theorem trans (hfirst : t.Untouched t') (hsecond : t'.Untouched t'') : t.Untouched t'' :=
  ⟨hfirst.toTouchesOnly.trans hsecond.toTouchesOnly, hsecond.stack.trans hfirst.stack⟩

end Untouched

/-- Up to the first function, all frames are among those before the rest of the way. -/
theorem upToFunction_append_subset {f : Nat} (hfunction : (t.frame f).kind.holdsVars)
    (inner outer : List Nat) : t.upToFunction (inner ++ f :: outer) ⊆ inner ++ [f] := by
  induction inner with
  | nil =>
      rw [List.nil_append, upToFunction, if_pos hfunction]
      exact List.Subset.refl _
  | cons i inner ih =>
      rw [List.cons_append, upToFunction]
      split
      · simp
      · exact List.cons_subset_cons i ih

/-- The tracker `t` is out of reach: a function was entered since, in which `n` more frames are
open, and the frames of `t` are untouched. -/
structure Shelters (t : Tracker) (n : Nat) (t' : Tracker) : Prop extends TouchesOnly [] t t' where
  stack : ∃ inner f, t'.stack = inner ++ f :: t.stack ∧ inner.length = n ∧
    (t'.frame f).kind.holdsVars ∧ ∀ i ∈ inner ++ [f], t.frames.size ≤ i ∧ i < t'.frames.size

namespace Shelters

theorem stack_ne_nil (h : t.Shelters n t') : t'.stack ≠ [] := by
  obtain ⟨inner, f, hstack, -⟩ := h.stack
  simp [hstack]

/-- The current function was entered since. -/
theorem le_of_mem_functionIds (h : t.Shelters n t') {i : Nat} (hi : i ∈ t'.functionIds) :
    t.frames.size ≤ i := by
  obtain ⟨inner, f, hstack, -, hfunction, hopened⟩ := h.stack
  rw [functionIds, hstack] at hi
  exact (hopened i (upToFunction_append_subset hfunction inner _ hi)).1

theorem touch (h : t.Shelters n t') (hstack : t''.stack = t'.stack)
    (htouches : t'.TouchesOnly t'.functionIds t'') : t.Shelters n t'' := by
  obtain ⟨inner, f, hcons, hlength, hfunction, hopened⟩ := h.stack
  have hf := (hopened f (List.mem_append_right _ List.mem_cons_self)).2
  refine ⟨h.beyond htouches fun i => h.le_of_mem_functionIds, inner, f, hstack.trans hcons,
    hlength, htouches.kind f hf ▸ hfunction, fun i hi => ?_⟩
  exact ⟨(hopened i hi).1, Nat.lt_of_lt_of_le (hopened i hi).2 htouches.size_le⟩

/-- One more frame is opened inside. -/
theorem push (h : t.Shelters n t') (hstack : t''.stack = t'.frames.size :: t'.stack)
    (hsize : t''.frames.size = t'.frames.size + 1)
    (htouches : t'.TouchesOnly t'.functionIds t'') : t.Shelters (n + 1) t'' := by
  have hle := h.size_le
  obtain ⟨inner, f, hcons, hlength, hfunction, hopened⟩ := h.stack
  have hf := (hopened f (List.mem_append_right _ List.mem_cons_self)).2
  refine ⟨h.beyond htouches fun i => h.le_of_mem_functionIds, t'.frames.size :: inner, f, ?_,
    congrArg _ hlength, htouches.kind f hf ▸ hfunction, fun i hi => ?_⟩
  · rw [hstack, hcons]
    rfl
  · rcases List.mem_cons.mp hi with rfl | hi
    · omega
    · have := hopened i hi
      omega

theorem pop (h : t.Shelters (n + 1) t')
    (hrests : Tracker.Rests { t' with stack := t'.stack.tail } t'') : t.Shelters n t'' := by
  obtain ⟨_ | ⟨g, inner⟩, f, hstack, hlength, hfunction, hopened⟩ := h.stack
  · cases hlength
  · refine ⟨h.toTouchesOnly.trans (.of_rests hrests), inner, f, ?_, Nat.succ.inj hlength,
      (hrests.frame f).kind ▸ hfunction, fun i hi => ?_⟩
    · rw [hrests.stack, hstack]
      rfl
    · rw [show t''.frames.size = t'.frames.size from hrests.size]
      exact hopened i (List.mem_cons_of_mem g hi)

theorem enter (t : Tracker) {g : Frame} (hfunction : g.kind.holdsVars) :
    t.Shelters 0 (t.push g) := by
  have hsize : (t.push g).frames.size = t.frames.size + 1 := Array.size_push g
  refine ⟨.push t g, [], t.frames.size, rfl, rfl, ?_, fun i hi => ?_⟩
  · rwa [frame_push, if_pos rfl]
  · rw [List.mem_singleton.mp hi]
    omega

/-- Until the function is entered, the tracker may be left alone. -/
theorem of_untouched (hbefore : t.Untouched t') (h : t'.Shelters n t'') : t.Shelters n t'' := by
  obtain ⟨inner, f, hstack, hlength, hfunction, hopened⟩ := h.stack
  refine ⟨hbefore.toTouchesOnly.trans h.toTouchesOnly, inner, f, ?_, hlength, hfunction,
    fun i hi => ⟨Nat.le_trans hbefore.size_le (hopened i hi).1, (hopened i hi).2⟩⟩
  rw [hstack, hbefore.stack]

/-- It is out of reach all the more when nothing is touched. -/
theorem untouched (h : t.Shelters n t') (hafter : t'.Untouched t'') : t.Shelters n t'' :=
  h.touch hafter.stack (hafter.mono (List.nil_subset _))

/-- When the function is left, the tracker is back, and untouched. -/
theorem leave (h : t.Shelters 0 t')
    (hrests : Tracker.Rests { t' with stack := t'.stack.tail } t'') : t.Untouched t'' := by
  obtain ⟨inner, f, hstack, hlength, -⟩ := h.stack
  obtain rfl := List.length_eq_zero_iff.mp hlength
  refine ⟨h.toTouchesOnly.trans (.of_rests hrests), ?_⟩
  rw [hrests.stack, hstack]
  rfl

end Shelters

end Tracker

end ScriptLint.Scope

import ScriptLint.Proofs.Scope.Rest

/-! # Levels of scopes

How far inside a program a place is shows in the frames that are open. Opening a scope or a function
leads one level in and closing it leads out again; declarations, uses and all that is noted on the
way stay on their level. Inside, no place is directly in the program.
-/

namespace ScriptLint.Scope

variable {α β : Type}

namespace Tracker

variable {t t' t'' : Tracker} {n : Nat}

/-- No frame was opened or closed between the two, and none is of another kind. -/
structure Level (t t' : Tracker) : Prop where
  stack : t'.stack = t.stack
  size : t'.frames.size = t.frames.size
  kind : ∀ i, (t'.frame i).kind = (t.frame i).kind

namespace Level

theorem of_frames_eq (hstack : t'.stack = t.stack) (hframes : t'.frames = t.frames) :
    t.Level t' := by
  refine ⟨hstack, by rw [hframes], fun i => ?_⟩
  rw [frame, frame, hframes]

theorem refl (t : Tracker) : t.Level t := of_frames_eq rfl rfl

theorem trans (hfirst : t.Level t') (hsecond : t'.Level t'') : t.Level t'' :=
  ⟨hsecond.stack.trans hfirst.stack, hsecond.size.trans hfirst.size,
    fun i => (hsecond.kind i).trans (hfirst.kind i)⟩

theorem modifyFrame (t : Tracker) (i : Nat) {change : Frame → Frame}
    (hchange : ∀ f : Frame, (change f).kind = f.kind) : t.Level (t.modifyFrame i change) :=
  ⟨rfl, t.modifyFrame_size i change, field_modifyFrame Frame.kind (hchange _)⟩

theorem hoistAll (t : Tracker) (name : String) (ids : List Nat) :
    t.Level (t.hoistAll name ids) := by
  induction ids generalizing t with
  | nil => exact .refl t
  | cons i ids ih =>
      have hhoist (f : Frame) : (f.hoist name).kind = f.kind := by
        unfold Frame.hoist
        split <;> rfl
      exact (modifyFrame t i hhoist).trans (ih _)

end Level

/-- The `n` innermost frames are open inside the program. -/
structure Inside (n : Nat) (t : Tracker) : Prop where
  length : n ≤ t.stack.length
  kind : ∀ i ∈ t.stack.take n, i < t.frames.size ∧ (t.frame i).kind ≠ .global ∧
    (t.frame i).kind ≠ .module

namespace Inside

theorem zero (t : Tracker) : t.Inside 0 := ⟨Nat.zero_le _, fun i hi => by simp at hi⟩

theorem level (h : t.Inside n) (hlevel : t.Level t') : t'.Inside n := by
  refine ⟨hlevel.stack ▸ h.length, fun i hi => ?_⟩
  rw [hlevel.stack] at hi
  rw [hlevel.size, hlevel.kind]
  exact h.kind i hi

theorem push (h : t.Inside n) {f : Frame} (hglobal : f.kind ≠ .global) (hmodule : f.kind ≠ .module) :
    (t.push f).Inside (n + 1) := by
  have hsize : (t.push f).frames.size = t.frames.size + 1 := by simp [Tracker.push]
  refine ⟨Nat.succ_le_succ h.length, fun i hi => ?_⟩
  rw [hsize, frame_push]
  rcases List.mem_cons.mp hi with rfl | hi
  · simp [hglobal, hmodule]
  · obtain ⟨hlt, hkind⟩ := h.kind i hi
    rw [if_neg (Nat.ne_of_lt hlt)]
    exact ⟨Nat.lt_succ_of_lt hlt, hkind⟩

theorem pop (h : t.Inside (n + 1)) (hstack : t'.stack = t.stack.tail)
    (hsize : t'.frames.size = t.frames.size)
    (hkind : ∀ i, (t'.frame i).kind = (t.frame i).kind) : t'.Inside n := by
  have hlength := h.length
  refine ⟨by rw [hstack, List.length_tail]; omega, fun i hi => ?_⟩
  rw [hsize, hkind]
  refine h.kind i ?_
  rw [hstack] at hi
  cases hcase : t.stack with
  | nil => simp [hcase] at hi
  | cons j rest =>
      rw [hcase] at hi
      exact List.mem_cons_of_mem j hi

/-- Inside a frame, the program itself is not the current place. -/
theorem not_atTopLevel (h : t.Inside (n + 1)) : t.atTopLevel = false := by
  have hlength := h.length
  have hcurrent : t.currentId ∈ t.stack.take (n + 1) := by
    unfold currentId
    cases hstack : t.stack with
    | nil => simp [hstack] at hlength
    | cons i rest => exact List.mem_cons_self
  obtain ⟨-, hglobal, hmodule⟩ := h.kind _ hcurrent
  simp [atTopLevel, current, hglobal, hmodule]

end Inside

/-! ## Changes -/

/-- A change that opens and closes no frame. -/
class KeepsLevel (change : Tracker → Tracker) : Prop where
  level (t : Tracker) : t.Level (change t)

namespace KeepsLevel

instance (rules : Rules) : KeepsLevel (·.setRules rules) := ⟨fun _ => .of_frames_eq rfl rfl⟩

instance (name : String) (writable : Bool) : KeepsLevel (·.addKnown name writable) :=
  ⟨fun _ => .of_frames_eq rfl rfl⟩

instance (name : String) : KeepsLevel (·.removeKnown name) := ⟨fun _ => .of_frames_eq rfl rfl⟩

instance (name : String) : KeepsLevel (·.markExported name) where
  level t := by
    unfold markExported
    split <;> exact .of_frames_eq rfl rfl

instance (id : Nat) (access : Access) : KeepsLevel (·.setAccess id access) :=
  ⟨fun _ => .of_frames_eq rfl rfl⟩

instance (name : String) (position : Position) (access : Access) :
    KeepsLevel (·.addReference name position access) where
  level t :=
    -- The reference is entered first and then noted in the frame.
    have hentered (references : Array Reference) : t.Level { t with references } :=
      .of_frames_eq rfl rfl
    (hentered _).trans (.modifyFrame _ _ fun _ => rfl)

instance : KeepsLevel (·.setStrict) := ⟨fun t => .modifyFrame t _ fun _ => rfl⟩

instance (label : Label) : KeepsLevel (·.pushLabel label) := ⟨fun t => .modifyFrame t _ fun _ => rfl⟩

instance : KeepsLevel (·.popLabel) := ⟨fun t => .modifyFrame t _ fun _ => rfl⟩

instance : KeepsLevel (·.enterLoop) := ⟨fun t => .modifyFrame t _ fun _ => rfl⟩

instance : KeepsLevel (·.exitLoop) := ⟨fun t => .modifyFrame t _ fun _ => rfl⟩

instance : KeepsLevel (·.enterSwitch) := ⟨fun t => .modifyFrame t _ fun _ => rfl⟩

instance : KeepsLevel (·.exitSwitch) := ⟨fun t => .modifyFrame t _ fun _ => rfl⟩

instance : KeepsLevel (·.recordYield) := ⟨fun t => .modifyFrame t _ fun _ => rfl⟩

instance (name : String) (position : Position) :
    KeepsLevel (·.declareFunctionName name position) where
  level t := by
    refine .modifyFrame t _ fun f => ?_
    split <;> rfl

theorem kind_modify (f : Frame) (name : String) (change : Binding → Binding) :
    (f.modify name change).kind = f.kind := by
  unfold Frame.modify
  split <;> rfl

instance (name : String) (offset : Nat) : KeepsLevel (·.markInitialized name offset) where
  level t := by
    unfold markInitialized
    split
    · exact .refl t
    · exact .modifyFrame t _ fun f => kind_modify f name _

end KeepsLevel

/-- A change that opens a frame inside the program. -/
class Enters (change : Tracker → Tracker) : Prop where
  inside {t : Tracker} {n : Nat} (h : t.Inside n) : (change t).Inside (n + 1)

namespace Enters

instance (position : Position) : Enters (·.enterScope .block position) :=
  ⟨fun h => h.push nofun nofun⟩

instance (position : Position) : Enters (·.enterScope .catchClause position) :=
  ⟨fun h => h.push nofun nofun⟩

instance (position : Position) : Enters (·.enterScope .classBody position) :=
  ⟨fun h => h.push nofun nofun⟩

instance (facts : FunctionFacts) (position : Position) : Enters (·.enterFunction facts position) :=
  ⟨fun h => h.push nofun nofun⟩

end Enters

end Tracker

/-! ## Actions -/

namespace Action

/-- An action that opens and closes no frame. -/
class KeepsLevel (action : Action α) : Prop where
  ensures (t : Tracker) : action.Ensures t fun _ t' => t.Level t'

namespace KeepsLevel

instance (a : α) : KeepsLevel (Pure.pure a : Action α) := ⟨fun t => .pure (.refl t)⟩

protected theorem bind {first : Action α} {next : α → Action β} (hfirst : KeepsLevel first)
    (hnext : ∀ a, KeepsLevel (next a)) : KeepsLevel (first >>= next) :=
  ⟨fun t => .bind ((hfirst.ensures t).mono fun a t' h =>
    ((hnext a).ensures t').mono fun _ _ h' => h.trans h')⟩

instance {first : Action α} {next : α → Action β} [hfirst : KeepsLevel first]
    [hnext : ∀ a, KeepsLevel (next a)] : KeepsLevel (first >>= next) := .bind hfirst hnext

instance {c : Prop} [Decidable c] {first second : Action α} [hfirst : KeepsLevel first]
    [hsecond : KeepsLevel second] : KeepsLevel (if c then first else second) := by
  split <;> infer_instance

instance : KeepsLevel tracker := ⟨fun t => .tracker (.refl t)⟩

instance {change : Tracker → Tracker} [hchange : Tracker.KeepsLevel change] :
    KeepsLevel (update change) := ⟨fun t => .update (hchange.level t)⟩

instance (code : String) (position : Position) (arguments : List String) (scope : String)
    (hcode : Halt.IsRegular code) : KeepsLevel (report code position arguments scope hcode) :=
  ⟨fun t => .report (.refl t)⟩

instance (target : Nat) (binding : Binding) : KeepsLevel (bindNew target binding) :=
  ⟨fun t => bindNew_ensures (.modifyFrame t target fun _ => rfl)⟩

instance (code name : String) (position : Position) (hcode : Halt.IsRegular code) :
    KeepsLevel (reject code name position hcode) := ⟨fun t => reject_ensures (.refl t)⟩

instance (target : Nat) (name : String) (change : Binding → Binding) :
    Tracker.KeepsLevel (·.modifyFrame target (·.modify name change)) :=
  ⟨fun t => .modifyFrame t target fun f => Tracker.KeepsLevel.kind_modify f name change⟩

instance (name : String) : Tracker.KeepsLevel fun t =>
    t.innerIds.foldl (fun t id => t.modifyFrame id (·.hoist name)) t :=
  ⟨fun t => .hoistAll t name t.innerIds⟩

instance (name : String) (kind : BindingKind) (position : Position) :
    KeepsLevel (declareHoisted name kind position) := by
  unfold declareHoisted
  refine .bind inferInstance fun t => ?_
  split
  · infer_instance
  · refine .bind inferInstance fun _ => ?_
    dsimp only
    split <;> infer_instance

instance (name : String) (kind : BindingKind) (position : Position) :
    KeepsLevel (declareLexical name kind position) := by
  unfold declareLexical
  refine .bind inferInstance fun t => ?_
  dsimp only
  split <;> infer_instance

instance (name : String) (position : Position) :
    KeepsLevel (declareBlockFunction name position) := by
  unfold declareBlockFunction
  refine .bind inferInstance fun t => ?_
  dsimp only
  split <;> infer_instance

instance (name : String) (position : Position) (distinct : Bool) :
    KeepsLevel (declareParameter name position distinct) := by
  unfold declareParameter
  refine .bind inferInstance fun t => ?_
  dsimp only
  split <;> infer_instance

instance (name : String) (kind : BindingKind) (position : Position) :
    KeepsLevel (declare name kind position) := by
  unfold declare
  split <;> infer_instance

end KeepsLevel

/-- Closing a scope leads one level out. -/
theorem exitScope_inside {t : Tracker} {n : Nat} (h : t.Inside (n + 1)) :
    exitScope.Ensures t fun _ t' => t'.Inside n :=
  exitScope_rests.mono fun _ _ hrests =>
    h.pop hrests.stack hrests.size fun i => (hrests.frame i).kind

end Action

end ScriptLint.Scope

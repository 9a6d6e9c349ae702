import Mathlib.Data.List.Nodup
import ScriptLint.Scope.Basic
import ScriptLint.Scope.Tracker

/-! # Frames and their arena

A frame keeps its bindings in a list and an index that tells the place of a name in the list. The
two describe each other, so a name is bound once at most, and a look-up finds the binding of the
name. Declarations change a frame in few ways: names are added and none is lost, and no declaration
makes a binding used.
-/

namespace ScriptLint.Scope.Frame

/-- Whether the frame binds the name. -/
def binds (f : Frame) (name : String) : Bool := (f.find? name).isSome

/-- Whether the frame binds the name and the binding is used. -/
def uses (f : Frame) (name : String) : Bool := (f.find? name).any (·.used)

/-- The index and the list of bindings describe each other. -/
def Indexed (f : Frame) : Prop :=
  ∀ name place, f.index.lookup name = some place ↔
    ∃ b, f.bindings[place]? = some b ∧ b.name = name

namespace Indexed

variable {f : Frame}

theorem of_empty (hbindings : f.bindings = []) (hindex : f.index = []) : f.Indexed := by
  intro name place
  simp [hbindings, hindex]

theorem place_eq (hf : f.Indexed) {place place' : Nat} {b b' : Binding}
    (hb : f.bindings[place]? = some b) (hb' : f.bindings[place']? = some b')
    (hname : b.name = b'.name) : place = place' := by
  have hplace := (hf b.name place).mpr ⟨b, hb, rfl⟩
  rw [(hf b.name place').mpr ⟨b', hb', hname.symm⟩] at hplace
  exact (Option.some.inj hplace).symm

/-- No name is bound twice. -/
theorem nodup (hf : f.Indexed) : (f.bindings.map (·.name)).Nodup := by
  refine List.pairwise_iff_getElem.mpr ?_
  intro place place' hplace hplace' hlt heq
  rw [List.getElem_map, List.getElem_map] at heq
  -- Of two places with one name, the index could tell only one.
  exact Nat.ne_of_lt hlt
    (hf.place_eq (List.getElem?_eq_getElem _) (List.getElem?_eq_getElem _) heq)

theorem find?_eq_some_iff (hf : f.Indexed) {name : String} {b : Binding} :
    f.find? name = some b ↔ b ∈ f.bindings ∧ b.name = name := by
  unfold find?
  rw [Option.bind_eq_some_iff]
  constructor
  · rintro ⟨place, hplace, hb⟩
    obtain ⟨b', hb', hname⟩ := (hf name place).mp hplace
    obtain rfl : b = b' := Option.some.inj (hb.symm.trans hb')
    exact ⟨List.mem_of_getElem? hb, hname⟩
  · rintro ⟨hmem, hname⟩
    obtain ⟨place, hb⟩ := List.getElem?_of_mem hmem
    exact ⟨place, (hf name place).mpr ⟨b, hb, hname⟩, hb⟩

/-- A name is bound if it is that of a binding. -/
theorem binds_eq_any (hf : f.Indexed) (name : String) :
    f.binds name = f.bindings.any (·.name = name) := by
  rw [Bool.eq_iff_iff, binds, Option.isSome_iff_exists, List.any_eq_true]
  simp only [hf.find?_eq_some_iff, decide_eq_true_eq]

theorem lookup_eq_none (hf : f.Indexed) {name : String} (hnew : f.binds name = false) :
    f.index.lookup name = none := by
  cases hplace : f.index.lookup name with
  | none => rfl
  | some place =>
      obtain ⟨b, hb, -⟩ := (hf name place).mp hplace
      simp [binds, find?, hplace, hb] at hnew

/-- A new name goes to the end of the list, and the index says so. -/
theorem insert (hf : f.Indexed) {b : Binding} (hnew : f.binds b.name = false) :
    (f.insert b).Indexed := by
  intro name place
  have hnone := hf.lookup_eq_none hnew
  have hold : ∀ b' ∈ f.bindings, b'.name ≠ b.name := by
    intro b' hmem hname
    have hsome := hf.find?_eq_some_iff.mpr ⟨hmem, hname⟩
    simp [binds, hsome] at hnew
  have hplace := hf name place
  simp only [Frame.insert, List.lookup_cons]
  by_cases hname : name = b.name <;> grind

theorem find?_insert (hf : f.Indexed) {b : Binding} (hnew : f.binds b.name = false)
    (name : String) : (f.insert b).find? name = if name = b.name then some b else f.find? name := by
  ext b'
  rw [(hf.insert hnew).find?_eq_some_iff]
  have hold : f.find? b.name = some b' ↔ _ := hf.find?_eq_some_iff
  unfold binds at hnew
  split
  next hname => subst hname; simp [Frame.insert]; grind
  next hname => rw [hf.find?_eq_some_iff]; simp [Frame.insert]; grind

/-- A change that keeps the name of a binding keeps the index right. -/
theorem modify (hf : f.Indexed) {name : String} {change : Binding → Binding}
    (hchange : ∀ b, f.find? name = some b → (change b).name = b.name) :
    (f.modify name change).Indexed := by
  unfold Frame.modify
  split
  next place hplace =>
    intro name' place'
    have hother := hf name' place'
    have hsame := hf name place
    unfold find? at hchange
    grind
  next => exact hf

theorem find?_modify (hf : f.Indexed) (name : String) (change : Binding → Binding)
    (name' : String) :
    (f.modify name change).find? name' =
      if name' = name then (f.find? name).map change else f.find? name' := by
  -- The index is what it was, so a change shows at the place of `name` and nowhere else.
  unfold Frame.modify find?
  split
  next place hplace =>
    have hsame := hf name place
    cases hplace' : f.index.lookup name' with
    | none => grind
    | some place' =>
        have hother := hf name' place'
        grind
  next => grind

theorem binds_modify (hf : f.Indexed) (name : String) (change : Binding → Binding)
    (name' : String) : (f.modify name change).binds name' = f.binds name' := by
  unfold binds
  rw [hf.find?_modify]
  split
  next heq => rw [heq, Option.isSome_map]
  next => rfl

end Indexed

/-! ## Declarations -/

section

variable (f : Frame) (name : String) (change : Binding → Binding)

@[simp]
theorem modify_kind : (f.modify name change).kind = f.kind := by
  unfold modify
  split <;> rfl

@[simp]
theorem modify_parent? : (f.modify name change).parent? = f.parent? := by
  unfold modify
  split <;> rfl

@[simp]
theorem modify_state : (f.modify name change).state = f.state := by
  unfold modify
  split <;> rfl

@[simp]
theorem modify_pending : (f.modify name change).pending = f.pending := by
  unfold modify
  split <;> rfl

end

/-- What a declaration may do to a frame: no name is lost and no binding comes into use. -/
structure Grows (f f' : Frame) : Prop where
  kind : f'.kind = f.kind
  parent? : f'.parent? = f.parent?
  state : f'.state = f.state
  pending : f'.pending = f.pending
  indexed : f.Indexed → f'.Indexed
  binds : f.Indexed → ∀ name, f.binds name → f'.binds name
  uses : f.Indexed → ∀ name, f'.uses name = f.uses name

namespace Grows

variable {f f' f'' : Frame}

/-- A change of anything else is no matter. -/
theorem of_same (hkind : f'.kind = f.kind) (hparent : f'.parent? = f.parent?)
    (hstate : f'.state = f.state) (hpending : f'.pending = f.pending)
    (hbindings : f'.bindings = f.bindings) (hindex : f'.index = f.index) : f.Grows f' := by
  have hfind (name : String) : f'.find? name = f.find? name := by
    simp only [find?, hbindings, hindex]
  refine ⟨hkind, hparent, hstate, hpending, ?_, ?_, ?_⟩
  · intro hf
    simpa only [Indexed, hbindings, hindex] using hf
  · intro _ name
    simp only [Frame.binds, hfind, imp_self]
  · intro _ name
    simp only [Frame.uses, hfind]

theorem refl (f : Frame) : f.Grows f := of_same rfl rfl rfl rfl rfl rfl

theorem trans (hfirst : f.Grows f') (hsecond : f'.Grows f'') : f.Grows f'' where
  kind := hsecond.kind.trans hfirst.kind
  parent? := hsecond.parent?.trans hfirst.parent?
  state := hsecond.state.trans hfirst.state
  pending := hsecond.pending.trans hfirst.pending
  indexed := fun hf => hsecond.indexed (hfirst.indexed hf)
  binds := fun hf name hname => hsecond.binds (hfirst.indexed hf) name (hfirst.binds hf name hname)
  uses := fun hf name => (hsecond.uses (hfirst.indexed hf) name).trans (hfirst.uses hf name)

theorem insert {b : Binding} (hnew : f.binds b.name = false) (hunused : b.used = false) :
    f.Grows (f.insert b) := by
  refine ⟨rfl, rfl, rfl, rfl, fun hf => hf.insert hnew, ?_, ?_⟩
  · intro hf name hname
    unfold Frame.binds at hname ⊢
    rw [hf.find?_insert hnew]
    split <;> simp [hname]
  · intro hf name
    unfold Frame.uses
    rw [hf.find?_insert hnew]
    split
    next heq =>
      have hnone : f.find? name = none := by simpa [Frame.binds, heq] using hnew
      simp [hnone, hunused]
    next => rfl

theorem hoist (f : Frame) (name : String) : f.Grows (f.hoist name) := by
  unfold Frame.hoist
  split <;> exact of_same rfl rfl rfl rfl rfl rfl

theorem modify {name : String} {change : Binding → Binding}
    (hchange : ∀ b, f.find? name = some b → (change b).name = b.name ∧ (change b).used = b.used) :
    f.Grows (f.modify name change) := by
  refine ⟨modify_kind .., modify_parent? .., modify_state .., modify_pending .., ?_, ?_, ?_⟩
  · intro hf
    exact hf.modify fun b hb => (hchange b hb).1
  · intro hf name' hname
    rw [hf.binds_modify]
    exact hname
  · intro hf name'
    unfold Frame.uses
    rw [hf.find?_modify]
    split
    next heq =>
      subst heq
      cases hb : f.find? name' with
      | none => rfl
      | some b => exact (hchange b hb).2
    next => rfl

end Grows

end ScriptLint.Scope.Frame

/-! ## The arena of frames

Frames are numbered in the order in which they are opened, so the frame around another has the
smaller number and every way outwards ends in frame 0. The open frames are the way outwards from the
innermost of them. Nothing that happens between opening and closing a frame changes the ways.
-/

namespace ScriptLint.Scope

namespace Tracker

variable {t t' : Tracker}

@[simp]
theorem frame_modifyFrame (t : Tracker) (i j : Nat) (change : Frame → Frame) :
    (t.modifyFrame i change).frame j =
      if i = j ∧ i < t.frames.size then change (t.frame i) else t.frame j := by
  simp only [modifyFrame, frame, Array.getD_eq_getD_getElem?]
  grind

/-- What a change leaves of a frame is as before in every frame. -/
theorem field_modifyFrame {α : Type} (field : Frame → α) {i : Nat} {change : Frame → Frame}
    (hchange : field (change (t.frame i)) = field (t.frame i)) (j : Nat) :
    field ((t.modifyFrame i change).frame j) = field (t.frame j) := by
  rw [frame_modifyFrame]
  split
  next h => rw [hchange, h.1]
  next => rfl

@[simp]
theorem modifyFrame_stack (t : Tracker) (i : Nat) (change : Frame → Frame) :
    (t.modifyFrame i change).stack = t.stack := rfl

@[simp]
theorem modifyFrame_references (t : Tracker) (i : Nat) (change : Frame → Frame) :
    (t.modifyFrame i change).references = t.references := rfl

@[simp]
theorem modifyFrame_size (t : Tracker) (i : Nat) (change : Frame → Frame) :
    (t.modifyFrame i change).frames.size = t.frames.size := by
  simp [modifyFrame]

@[simp]
theorem reference_modifyReference (t : Tracker) (i j : Nat) (change : Reference → Reference) :
    (t.modifyReference i change).reference j =
      if i = j ∧ i < t.references.size then change (t.reference i) else t.reference j := by
  simp only [modifyReference, reference, Array.getD_eq_getD_getElem?]
  grind

@[simp]
theorem frame_modifyReference (t : Tracker) (i j : Nat) (change : Reference → Reference) :
    (t.modifyReference i change).frame j = t.frame j := rfl

@[simp]
theorem modifyReference_frames (t : Tracker) (i : Nat) (change : Reference → Reference) :
    (t.modifyReference i change).frames = t.frames := rfl

@[simp]
theorem modifyReference_size (t : Tracker) (i : Nat) (change : Reference → Reference) :
    (t.modifyReference i change).references.size = t.references.size := by
  simp [modifyReference]

@[simp]
theorem reference_modifyFrame (t : Tracker) (i j : Nat) (change : Frame → Frame) :
    (t.modifyFrame i change).reference j = t.reference j := rfl

@[simp]
theorem frame_push (t : Tracker) (f : Frame) (j : Nat) :
    (t.push f).frame j = if j = t.frames.size then f else t.frame j := by
  simp only [push, frame, Array.getD_eq_getD_getElem?]
  grind

theorem frame_of_size_le (t : Tracker) {i : Nat} (hi : t.frames.size ≤ i) :
    t.frame i = default := by
  unfold frame
  grind

/-! ## Ways outwards -/

theorem path_of_root {i : Nat} (hroot : (t.frame i).parent? = none) : t.path i = [i] := by
  rw [path, hroot]

theorem path_of_parent {i parent : Nat} (hparent : (t.frame i).parent? = some parent)
    (hlt : parent < i) : t.path i = i :: t.path parent := by
  rw [path, hparent]
  simp [hlt]

/-- A way starts with its frame, and what follows is the way from the frame around. -/
theorem path_cases (t : Tracker) (i : Nat) :
    t.path i = [i] ∨ ∃ parent < i, (t.frame i).parent? = some parent ∧
      t.path i = i :: t.path parent := by
  rw [path]
  grind

theorem path_congr {i : Nat} (hsame : ∀ j ≤ i, (t'.frame j).parent? = (t.frame j).parent?) :
    t'.path i = t.path i := by
  -- The way goes on from a smaller number, so the induction is on the number.
  induction i using Nat.strongRecOn with
  | ind i ih =>
      rw [path, path, hsame i (Nat.le_refl i)]
      split
      next => rfl
      next parent _ =>
        split
        next hlt => rw [ih parent hlt fun j hj => hsame j (by omega)]
        next => rfl

theorem le_of_mem_path {i j : Nat} (hmem : j ∈ t.path i) : j ≤ i := by
  induction i using Nat.strongRecOn with
  | ind i ih =>
      rcases t.path_cases i with hpath | ⟨parent, hlt, -, hpath⟩ <;> rw [hpath] at hmem
      · simp_all
      · rcases List.mem_cons.mp hmem with rfl | hmem
        · exact Nat.le_refl j
        · exact Nat.le_trans (ih parent hlt hmem) (Nat.le_of_lt hlt)

theorem path_pairwise (t : Tracker) (i : Nat) : (t.path i).Pairwise (· > ·) := by
  induction i using Nat.strongRecOn with
  | ind i ih =>
      rcases t.path_cases i with hpath | ⟨parent, hlt, -, hpath⟩ <;> rw [hpath]
      · exact List.pairwise_singleton _ _
      · exact List.pairwise_cons.mpr ⟨fun j hmem => Nat.lt_of_le_of_lt (le_of_mem_path hmem) hlt,
          ih parent hlt⟩

theorem path_nodup (t : Tracker) (i : Nat) : (t.path i).Nodup :=
  (t.path_pairwise i).imp fun hlt => Nat.ne_of_gt hlt

/-- From each frame on a way on, the rest is the way from that frame. -/
theorem path_of_path_eq_append {i j : Nat} {below above : List Nat}
    (hpath : t.path i = below ++ j :: above) : t.path j = j :: above := by
  induction below generalizing i with
  | nil =>
      rcases t.path_cases i with h | ⟨parent, -, -, h⟩ <;> rw [h] at hpath <;>
        obtain ⟨rfl, -⟩ := List.cons.inj hpath <;> exact h.trans hpath
  | cons k below ih =>
      rcases t.path_cases i with h | ⟨parent, -, -, h⟩ <;> rw [h] at hpath
      · simp at hpath
      · exact ih (List.cons.inj hpath).2

theorem path_push (t : Tracker) (f : Frame) {i : Nat} (hi : i < t.frames.size) :
    (t.push f).path i = t.path i :=
  path_congr fun j hj => by rw [frame_push, if_neg (by omega)]

/-! ## The arena -/

/-- The frames are in order: the only one without a frame around it is the first, the frame around
another has a smaller number, and the open frames are the way outwards from the innermost. -/
structure Arena (t : Tracker) : Prop where
  size_pos : 0 < t.frames.size
  root : ∀ i < t.frames.size, (t.frame i).parent? = none ↔ i = 0
  parent_lt : ∀ i < t.frames.size, ∀ parent, (t.frame i).parent? = some parent → parent < i
  stack_lt : ∀ i ∈ t.stack, i < t.frames.size
  stack : ∀ i rest, t.stack = i :: rest → t.path i = t.stack

/-! ## Declarations -/

/-- What declarations may do to the tracker: no frame but the open ones changes, and those grow. -/
structure Grows (t t' : Tracker) : Prop where
  stack : t'.stack = t.stack
  references : t'.references = t.references
  size : t'.frames.size = t.frames.size
  frame : ∀ i, (t.frame i).Grows (t'.frame i)
  frozen : ∀ i ∉ t.stack, t'.frame i = t.frame i

namespace Grows

variable {t'' : Tracker}

theorem of_frames_eq (hframes : t'.frames = t.frames) (hstack : t'.stack = t.stack)
    (hreferences : t'.references = t.references) : t.Grows t' := by
  have hframe (i : Nat) : t'.frame i = t.frame i := by
    rw [Tracker.frame, Tracker.frame, hframes]
  exact ⟨hstack, hreferences, by rw [hframes], fun i => hframe i ▸ .refl _, fun i _ => hframe i⟩

theorem refl (t : Tracker) : t.Grows t := of_frames_eq rfl rfl rfl

theorem trans (hfirst : t.Grows t') (hsecond : t'.Grows t'') : t.Grows t'' where
  stack := hsecond.stack.trans hfirst.stack
  references := hsecond.references.trans hfirst.references
  size := hsecond.size.trans hfirst.size
  frame i := (hfirst.frame i).trans (hsecond.frame i)
  frozen i hi := (hsecond.frozen i (hfirst.stack ▸ hi)).trans (hfirst.frozen i hi)

theorem modifyFrame {i : Nat} (hi : i ∈ t.stack) {change : Frame → Frame}
    (hchange : (t.frame i).Grows (change (t.frame i))) : t.Grows (t.modifyFrame i change) := by
  refine ⟨rfl, rfl, modifyFrame_size t i change, ?_, ?_⟩
  · intro j
    rw [frame_modifyFrame]
    split
    next h => exact h.1 ▸ hchange
    next => exact .refl _
  · intro j hj
    rw [frame_modifyFrame, if_neg]
    rintro ⟨rfl, -⟩
    exact hj hi

theorem path_eq (hgrows : t.Grows t') (i : Nat) : t'.path i = t.path i :=
  path_congr fun j _ => (hgrows.frame j).parent?

end Grows

namespace Arena

/-- The frames stay in order when frames leave the stack, the innermost first. -/
theorem of_suffix (ht : t.Arena) (hsize : t'.frames.size = t.frames.size)
    (hparent : ∀ i, (t'.frame i).parent? = (t.frame i).parent?) (hstack : t'.stack <:+ t.stack) :
    t'.Arena where
  size_pos := hsize ▸ ht.size_pos
  root i hi := hparent i ▸ ht.root i (hsize ▸ hi)
  parent_lt i hi parent hp := ht.parent_lt i (hsize ▸ hi) parent (hparent i ▸ hp)
  stack_lt i hi := hsize ▸ ht.stack_lt i (hstack.subset hi)
  stack i rest h := by
    obtain ⟨below, hbelow⟩ := hstack
    rw [path_congr fun j _ => hparent j, h]
    rw [h] at hbelow
    cases hold : t.stack with
    | nil => simp [hold] at hbelow
    | cons j above =>
        -- The frame that is innermost now lies on the way outwards from the one that was.
        exact path_of_path_eq_append ((ht.stack j above hold).trans hbelow.symm)

theorem of_grows (ht : t.Arena) (hgrows : t.Grows t') : t'.Arena :=
  ht.of_suffix hgrows.size (fun i => (hgrows.frame i).parent?) (hgrows.stack ▸ List.suffix_rfl)

theorem stack_nodup (ht : t.Arena) : t.stack.Nodup := by
  cases hstack : t.stack with
  | nil => exact List.nodup_nil
  | cons i rest => exact hstack ▸ ht.stack i rest hstack ▸ t.path_nodup i

/-- A frame that is opened inside the innermost one goes on top of the stack. -/
theorem push (ht : t.Arena) {f : Frame} {i : Nat} {rest : List Nat} (hstack : t.stack = i :: rest)
    (hparent : f.parent? = some i) : (t.push f).Arena := by
  have hi : i < t.frames.size := ht.stack_lt i (by simp [hstack])
  have hsize : (t.push f).frames.size = t.frames.size + 1 := Array.size_push f
  have hnew : (t.push f).frame t.frames.size = f := by simp
  refine ⟨by omega, ?_, ?_, ?_, ?_⟩
  · intro j hj
    rw [frame_push]
    split
    next heq => exact iff_of_false (by simp [hparent]) (by omega)
    next => exact ht.root j (by omega)
  · intro j hj parent hp
    rw [frame_push] at hp
    split at hp
    next heq => grind
    next => exact ht.parent_lt j (by omega) parent hp
  · intro j hj
    rcases List.mem_cons.mp hj with rfl | hj
    · omega
    · have := ht.stack_lt j hj
      omega
  · intro j rest' h
    obtain ⟨rfl, rfl⟩ := List.cons.inj h
    -- The way from the new frame is the old stack with the new frame in front.
    rw [path_of_parent (by rw [hnew, hparent]) hi, t.path_push f hi, ht.stack i rest hstack]
    rfl

end Arena

end Tracker

end ScriptLint.Scope

import Mathlib.Data.List.Pairwise
import ScriptLint.Proofs.Scope.Step

/-! # The order of frames and the account of references

At every stage the frames are in order, each index tells the places of its names, and exactly the
frames on the stack are open. A frame that is not on the stack has no references left, and while a
frame closes, the frames on the stack are those around it.
-/

namespace ScriptLint.Scope.Stage

/-- What holds of the frames at every stage. -/
structure Orderly (s : Stage) : Prop where
  arena : s.tracker.Arena
  indexed : ∀ i, (s.tracker.frame i).Indexed
  opened : ∀ i ∈ s.tracker.stack, (s.tracker.frame i).state = .opened
  closed : ∀ i < s.tracker.frames.size, i ∉ s.tracker.stack →
    (s.tracker.frame i).state = .closed ∨ s.closing?.map (·.1) = some i
  left : ∀ i ∉ s.tracker.stack, (s.tracker.frame i).pending = []
  closing : ∀ f, s.closing?.map (·.1) = some f →
    f < s.tracker.frames.size ∧ s.tracker.path f = f :: s.tracker.stack
  origin : ∀ id < s.tracker.references.size,
    (s.tracker.reference id).origin < s.tracker.frames.size

namespace Orderly

variable {t t' : Tracker} {log log' : List Event} {closing? closing?' : Option (Nat × List Nat)}

/-- The frame around a closing one is the innermost on the stack. -/
theorem stack_of_parent {f parent : Nat} {ids : List Nat}
    (hs : Orderly ⟨t, log, some (f, ids)⟩) (hparent : (t.frame f).parent? = some parent) :
    ∃ rest, t.stack = parent :: rest := by
  obtain ⟨hf, hpath⟩ := hs.closing f rfl
  rw [Tracker.path_of_parent hparent (hs.arena.parent_lt f hf parent hparent)] at hpath
  rw [← (List.cons.inj hpath).2]
  rcases t.path_cases parent with h | ⟨_, -, -, h⟩ <;> exact ⟨_, h⟩

theorem closing_not_mem {f : Nat} {ids : List Nat} (hs : Orderly ⟨t, log, some (f, ids)⟩) :
    f ∉ t.stack := by
  obtain ⟨-, hpath⟩ := hs.closing f rfl
  exact (List.nodup_cons.mp (hpath ▸ t.path_nodup f)).1

/-- A step that neither opens nor closes a frame leaves the frames in order if it does so with each
index and gives no references to a frame that is not on the stack. -/
theorem of_frames (hs : Orderly ⟨t, log, closing?⟩)
    (hclosing : closing?'.map (·.1) = closing?.map (·.1)) (hstack : t'.stack = t.stack)
    (hsize : t'.frames.size = t.frames.size)
    (hframe : ∀ i, (t'.frame i).parent? = (t.frame i).parent? ∧
      (t'.frame i).state = (t.frame i).state ∧ (t'.frame i).Indexed)
    (hleft : ∀ i ∉ t.stack, (t'.frame i).pending = [])
    (horigin : ∀ id < t'.references.size, (t'.reference id).origin < t.frames.size) :
    Orderly ⟨t', log', closing?'⟩ where
  arena := hs.arena.of_suffix hsize (fun i => (hframe i).1) (hstack ▸ List.suffix_rfl)
  indexed i := (hframe i).2.2
  opened i hi := (hframe i).2.1.trans (hs.opened i (hstack ▸ hi))
  closed i hi hleft := by
    rw [(hframe i).2.1, hclosing]
    exact hs.closed i (hsize ▸ hi) (hstack ▸ hleft)
  left i hi := hleft i (hstack ▸ hi)
  closing f h := by
    obtain ⟨hf, hpath⟩ := hs.closing f (hclosing ▸ h)
    refine ⟨hsize ▸ hf, ?_⟩
    rw [Tracker.path_congr fun j _ => (hframe j).1, hpath, hstack]
  origin id hid := hsize ▸ horigin id hid

theorem grow (hs : Orderly ⟨t, log, closing?⟩) (hgrows : t.Grows t') :
    Orderly ⟨t', log, closing?⟩ := by
  apply hs.of_frames rfl hgrows.stack hgrows.size
  · intro i
    have hi := hgrows.frame i
    exact ⟨hi.parent?, hi.state, hi.indexed (hs.indexed i)⟩
  · intro i hi
    exact (hgrows.frame i).pending.trans (hs.left i hi)
  · intro id hid
    rw [hgrows.references] at hid
    rw [Tracker.reference, hgrows.references]
    exact hs.origin id hid

theorem enter {f : Frame} (hs : Orderly ⟨t, log, none⟩) (hstack : t.stack ≠ [])
    (hparent : f.parent? = some t.currentId) (hnew : f.IsNew) : Orderly ⟨t.push f, log, none⟩ := by
  obtain ⟨i, rest, hcons⟩ := List.exists_cons_of_ne_nil hstack
  have hcurrent : t.currentId = i := by simp [Tracker.currentId, hcons]
  have hsize : (t.push f).frames.size = t.frames.size + 1 := Array.size_push f
  constructor <;> dsimp only
  · exact hs.arena.push hcons (hcurrent ▸ hparent)
  · intro j
    rw [Tracker.frame_push]
    split
    next => exact .of_empty hnew.bindings hnew.index
    next => exact hs.indexed j
  · intro j hj
    rw [Tracker.frame_push]
    split
    next => exact hnew.state
    next hne => exact hs.opened j ((List.mem_cons.mp hj).resolve_left hne)
  · intro j hj hleft
    obtain ⟨hne, hleft⟩ := not_or.mp (mt List.mem_cons.mpr hleft)
    rw [Tracker.frame_push, if_neg hne]
    exact hs.closed j (show j < t.frames.size by omega) hleft
  · intro j hj
    obtain ⟨hne, hleft⟩ := not_or.mp (mt List.mem_cons.mpr hj)
    rw [Tracker.frame_push, if_neg hne]
    exact hs.left j hleft
  · exact nofun
  · intro id hid
    have horigin : (t.reference id).origin < t.frames.size := hs.origin id hid
    exact hsize ▸ Nat.lt_succ_of_lt horigin

theorem record (hs : Orderly ⟨t, log, none⟩) (hstack : t.stack ≠ []) (name : String)
    (position : Position) (access : Access) :
    Orderly ⟨t.addReference name position access, log', none⟩ := by
  have hcurrent := Tracker.currentId_mem_stack hstack
  refine hs.of_frames rfl rfl (by simp) ?_ ?_ ?_
  · intro i
    refine ⟨?_, ?_, ?_⟩
    · exact Tracker.field_addReference (·.parent?) (fun _ _ => rfl) t name position access i
    · exact Tracker.field_addReference (·.state) (fun _ _ => rfl) t name position access i
    · rw [Tracker.field_addReference Frame.Indexed fun _ _ => rfl]
      exact hs.indexed i
  · intro i hi
    have hne : t.currentId ≠ i := fun h => hi (h ▸ hcurrent)
    rw [Tracker.frame_addReference, if_neg fun h => hne h.1]
    exact hs.left i hi
  · intro id hid
    rw [Tracker.reference_addReference]
    split
    next => exact hs.arena.stack_lt _ hcurrent
    next hne =>
      rw [Tracker.addReference_references_size] at hid
      exact hs.origin id (show id < t.references.size by omega)

theorem setAccess (hs : Orderly ⟨t, log, none⟩) (id : Nat) (access : Access) :
    Orderly ⟨t.setAccess id access, log', none⟩ := by
  refine hs.of_frames rfl rfl rfl (fun i => ⟨rfl, rfl, hs.indexed i⟩) hs.left ?_
  intro id' hid
  unfold Tracker.setAccess at hid ⊢
  rw [Tracker.modifyReference_size] at hid
  rw [Tracker.reference_modifyReference]
  split
  next h => exact h.1 ▸ hs.origin id' hid
  next => exact hs.origin id' hid

theorem leave {f : Nat} {stack ids : List Nat} (hs : Orderly ⟨t, log, none⟩)
    (hstack : t.stack = f :: stack) :
    Orderly ⟨t.beginClosing f stack, log, some (f, ids)⟩ := by
  have hf : f < t.frames.size := hs.arena.stack_lt f (by simp [hstack])
  have hnot : f ∉ stack := (List.nodup_cons.mp (hstack ▸ hs.arena.stack_nodup)).1
  have hframe := Tracker.frame_beginClosing hf stack
  have hparent := Tracker.field_beginClosing (·.parent?) (fun _ _ _ => rfl) t f stack
  constructor
  · exact hs.arena.of_suffix (by simp) hparent ⟨[f], hstack.symm⟩
  · intro i
    dsimp only
    rw [Tracker.field_beginClosing Frame.Indexed fun _ _ _ => rfl]
    exact hs.indexed i
  · intro i (hi : i ∈ stack)
    have hne : i ≠ f := fun h => hnot (h ▸ hi)
    rw [hframe, if_neg hne]
    exact hs.opened i (hstack ▸ List.mem_cons_of_mem f hi)
  · intro i hi (hleft : i ∉ stack)
    rw [hframe]
    split
    next h => exact .inr (congrArg some h.symm)
    next h =>
      -- Before, no frame was closing.
      refine .inl ((hs.closed i ?_ ?_).resolve_right nofun)
      · simpa using hi
      · simpa [hstack, h] using hleft
  · intro i (hi : i ∉ stack)
    rw [hframe]
    split
    next => rfl
    next h => exact hs.left i (by simpa [hstack, h] using hi)
  · intro i hi
    obtain rfl : f = i := Option.some.inj hi
    refine ⟨by simpa using hf, ?_⟩
    rw [Tracker.path_congr fun j _ => hparent j]
    exact (hs.arena.stack f stack hstack).trans hstack
  · intro id hid
    have horigin : (t.reference id).origin < t.frames.size := hs.origin id hid
    simpa using horigin

theorem found {f id : Nat} {ids : List Nat} {b : Binding}
    (hs : Orderly ⟨t, log, some (f, id :: ids)⟩) :
    Orderly ⟨t.modifyFrame f (·.modify b.name (·.touch (t.reference id))), log',
      some (f, ids)⟩ := by
  refine hs.of_frames rfl rfl (by simp) ?_ ?_ hs.origin
  · intro i
    refine ⟨?_, ?_, ?_⟩
    · exact Tracker.field_modifyFrame (·.parent?) (Frame.modify_parent? ..) i
    · exact Tracker.field_modifyFrame (·.state) (Frame.modify_state ..) i
    · rw [Tracker.frame_modifyFrame]
      split
      next => exact (hs.indexed f).modify fun _ _ => rfl
      next => exact hs.indexed i
  · intro i hi
    rw [Tracker.field_modifyFrame (·.pending) (Frame.modify_pending ..)]
    exact hs.left i hi

theorem passed {f id parent : Nat} {ids : List Nat} (hs : Orderly ⟨t, log, some (f, id :: ids)⟩)
    (hparent : (t.frame f).parent? = some parent) :
    Orderly ⟨t.passOn f id parent, log, some (f, ids)⟩ := by
  obtain ⟨rest, hstack⟩ := hs.stack_of_parent hparent
  refine hs.of_frames rfl (by simp) (by simp) ?_ ?_ ?_
  · intro i
    refine ⟨?_, ?_, ?_⟩
    · exact Tracker.field_passOn (·.parent?) (fun _ _ => rfl) t f id parent i
    · exact Tracker.field_passOn (·.state) (fun _ _ => rfl) t f id parent i
    · rw [Tracker.field_passOn Frame.Indexed fun _ _ => rfl]
      exact hs.indexed i
  · intro i hi
    rw [Tracker.frame_passOn, if_neg fun h => hi (by simp [hstack, h.1])]
    exact hs.left i hi
  · intro id' hid
    rw [Tracker.passOn_references_size] at hid
    rw [Tracker.reference_passOn]
    split
    next h => exact h.1 ▸ hs.origin id' hid
    next => exact hs.origin id' hid

theorem implied {f id : Nat} {ids : List Nat} (hs : Orderly ⟨t, log, some (f, id :: ids)⟩) :
    Orderly ⟨t, log', some (f, ids)⟩ :=
  hs.of_frames rfl rfl rfl (fun i => ⟨rfl, rfl, hs.indexed i⟩) hs.left hs.origin

theorem close {f : Nat} (hs : Orderly ⟨t, log, some (f, [])⟩) :
    Orderly ⟨t.modifyFrame f fun g => { g with state := .closed }, log, none⟩ := by
  obtain ⟨hf, -⟩ := hs.closing f rfl
  have hnot := hs.closing_not_mem
  have hframe (i : Nat) : (t.modifyFrame f fun g => { g with state := .closed }).frame i =
      if i = f then { t.frame f with state := .closed } else t.frame i := by
    rw [Tracker.frame_modifyFrame]
    grind
  constructor
  · exact hs.arena.of_suffix (by simp) (Tracker.field_modifyFrame (·.parent?) rfl) List.suffix_rfl
  · intro i
    dsimp only
    rw [Tracker.field_modifyFrame Frame.Indexed rfl]
    exact hs.indexed i
  · intro i hi
    have hne : i ≠ f := fun h => hnot (h ▸ hi)
    rw [hframe, if_neg hne]
    exact hs.opened i hi
  · intro i hi hleft
    rw [hframe]
    split
    next => exact .inl rfl
    next h =>
      -- The frame that was closing is the one that is closed now.
      refine .inl ((hs.closed i (by simpa using hi) hleft).resolve_right fun heq => h ?_)
      exact (Option.some.inj heq).symm
  · intro i hi
    dsimp only
    rw [Tracker.field_modifyFrame (·.pending) rfl]
    exact hs.left i hi
  · exact nofun
  · intro id hid
    have horigin : (t.reference id).origin < t.frames.size := hs.origin id hid
    simpa using horigin

/-- At the beginning of a script the only frame is the global one. -/
theorem start (known : KnownGlobals) (rules : Rules) (strict : Bool) :
    Orderly ⟨.start known rules false strict, [], none⟩ := by
  have hempty (i : Nat) : ((Tracker.start known rules false strict).frame i).IsNew ∧
      ((Tracker.start known rules false strict).frame i).parent? = none := by
    cases i <;> exact ⟨⟨rfl, rfl, rfl, rfl⟩, rfl⟩
  have hpath : (Tracker.start known rules false strict).path 0 = [0] :=
    Tracker.path_of_root (hempty 0).2
  have hstack {i : Nat} : i ∈ (Tracker.start known rules false strict).stack ↔ i < 1 :=
    List.mem_singleton.trans Nat.lt_one_iff.symm
  refine ⟨⟨Nat.one_pos, fun i hi => iff_of_true (hempty i).2 (Nat.lt_one_iff.mp hi),
    fun i _ parent hparent => ?_, fun i hi => hstack.mp hi, fun i rest h => ?_⟩,
    fun i => .of_empty (hempty i).1.bindings (hempty i).1.index, fun i _ => (hempty i).1.state,
    fun i hi hleft => absurd (hstack.mpr hi) hleft, fun i _ => (hempty i).1.pending, nofun, nofun⟩
  · rw [(hempty i).2] at hparent
    cases hparent
  · cases h
    exact hpath

/-- Every step keeps the frames in order. -/
theorem step {s s' : Stage} (hs : s.Orderly) (hstep : Step s s') : s'.Orderly := by
  cases hstep with
  | grow hgrows => exact hs.grow hgrows
  | enter hstack hparent hnew => exact hs.enter hstack hparent hnew
  | record hstack name position access => exact hs.record hstack name position access
  | setAccess id access => exact hs.setAccess id access
  | leave hstack hids => exact hs.leave hstack
  | found hfind => exact hs.found
  | passed hfind hparent => exact hs.passed hparent
  | implied hfind hroot => exact hs.implied
  | close => exact hs.close

/-- In every run the frames stay in order. -/
theorem steps {s s' : Stage} (hs : s.Orderly) (hsteps : Steps s s') : s'.Orderly := by
  induction hsteps with
  | refl => exact hs
  | tail _ hstep ih => exact ih.step hstep

end Orderly

end ScriptLint.Scope.Stage

/-! ## Every reference is accounted for

A reference is recorded in the innermost frame and moves outwards as frames close, until it is
resolved. At every stage it waits in one place or has been resolved once: none is lost and none is
resolved twice. This, together with the order of the frames, is what the operations of scope
analysis keep.
-/

namespace ScriptLint.Scope

namespace Tracker

variable {t t' : Tracker}

/-- The references of the open frames. -/
def pending (t : Tracker) : List Nat := t.stack.flatMap fun i => (t.frame i).pending

theorem pending_congr (hstack : t'.stack = t.stack)
    (hframe : ∀ i ∈ t.stack, (t'.frame i).pending = (t.frame i).pending) :
    t'.pending = t.pending := by
  unfold pending
  rw [hstack]
  exact List.flatMap_congr hframe

/-- A reference that the innermost frame receives comes before all others. -/
theorem pending_cons {i id : Nat} {rest : List Nat} (ht : t.Arena) (hstack : t.stack = i :: rest)
    (hstack' : t'.stack = t.stack) (hhead : (t'.frame i).pending = id :: (t.frame i).pending)
    (hrest : ∀ j ≠ i, (t'.frame j).pending = (t.frame j).pending) :
    t'.pending = id :: t.pending := by
  -- The innermost frame is on the stack once, so its references are counted once.
  have hnot : i ∉ rest := (List.nodup_cons.mp (hstack ▸ ht.stack_nodup)).1
  have hsame : rest.flatMap (fun j => (t'.frame j).pending) =
      rest.flatMap fun j => (t.frame j).pending :=
    List.flatMap_congr fun j hj => hrest j fun heq => hnot (heq ▸ hj)
  unfold pending
  rw [hstack', hstack, List.flatMap_cons, List.flatMap_cons, hhead, hsame]
  rfl

theorem pending_push (ht : t.Arena) {f : Frame} (hnew : f.IsNew) :
    (t.push f).pending = t.pending := by
  have hold : t.stack.flatMap (fun i => ((t.push f).frame i).pending) = t.pending :=
    List.flatMap_congr fun i hi => by
      rw [frame_push, if_neg (Nat.ne_of_lt (ht.stack_lt i hi))]
  have hnone : ((t.push f).frame t.frames.size).pending = [] := by
    rw [frame_push, if_pos rfl, hnew.pending]
  have hcons : (t.push f).pending = ((t.push f).frame t.frames.size).pending ++
      t.stack.flatMap fun i => ((t.push f).frame i).pending := List.flatMap_cons
  rw [hcons, hnone, hold]
  rfl

/-- The references of the frame that leaves the stack come first. -/
theorem pending_beginClosing (ht : t.Arena) {f : Nat} {stack : List Nat}
    (hstack : t.stack = f :: stack) :
    t.pending = (t.frame f).pending ++ (t.beginClosing f stack).pending := by
  have hf : f < t.frames.size := ht.stack_lt f (by simp [hstack])
  have hnot : f ∉ stack := (List.nodup_cons.mp (hstack ▸ ht.stack_nodup)).1
  have hsame : (t.beginClosing f stack).pending = stack.flatMap fun i => (t.frame i).pending :=
    List.flatMap_congr fun i hi => by
      rw [frame_beginClosing hf, if_neg fun heq : i = f => hnot (heq ▸ hi)]
  rw [hsame, pending, hstack, List.flatMap_cons]

end Tracker

namespace Stage

/-- The references that are still to be resolved. -/
def waiting (s : Stage) : List Nat := (s.closing?.elim [] (·.2)) ++ s.tracker.pending

/-- Every recorded reference waits once or has been resolved once, and no other number does. -/
def Counted (s : Stage) : Prop :=
  ∀ id, s.waiting.count id + s.log.countP (·.resolves id) =
    if id < s.tracker.references.size then 1 else 0

namespace Counted

variable {s s' : Stage}

/-- References may change places while nothing is recorded or resolved. -/
theorem of_perm (hs : s.Counted) (hwaiting : s'.waiting.Perm s.waiting)
    (hlog : ∀ id, s'.log.countP (·.resolves id) = s.log.countP (·.resolves id))
    (hsize : s'.tracker.references.size = s.tracker.references.size) : s'.Counted := by
  intro id
  rw [hwaiting.count_eq, hlog, hsize]
  exact hs id

/-- A reference that is resolved no longer waits. -/
theorem of_resolved (hs : s.Counted) {id : Nat} {frame? : Option Nat} {crossed : Bool}
    (hwaiting : s.waiting = id :: s'.waiting) (hlog : s'.log = .resolved id frame? crossed :: s.log)
    (hsize : s'.tracker.references.size = s.tracker.references.size) : s'.Counted := by
  intro id'
  have hold := hs id'
  rw [hwaiting, List.count_cons] at hold
  rw [hlog, List.countP_cons, hsize, ← hold]
  simp only [Event.resolves, beq_iff_eq, decide_eq_true_eq]
  omega

theorem step (hs : s.Counted) (horderly : s.Orderly) (hstep : Step s s') : s'.Counted := by
  -- Steps that record or resolve nothing leave the same numbers waiting, in some order.
  cases hstep with
  | grow hgrows =>
      refine hs.of_perm (.append_left _ (.of_eq ?_)) (fun _ => rfl)
        (congrArg Array.size hgrows.references)
      exact Tracker.pending_congr hgrows.stack fun i _ => (hgrows.frame i).pending
  | enter hstack hparent hnew =>
      exact hs.of_perm (.of_eq (Tracker.pending_push horderly.arena hnew)) (fun _ => rfl) rfl
  | @record t log hstack name position access =>
      obtain ⟨i, rest, hcons⟩ := List.exists_cons_of_ne_nil hstack
      have hcurrent : t.currentId = i := by rw [Tracker.currentId, hcons]; rfl
      have hi : i < t.frames.size := horderly.arena.stack_lt i (by simp [hcons])
      have hpending : (t.addReference name position access).pending =
          t.references.size :: t.pending := by
        refine Tracker.pending_cons horderly.arena hcons rfl ?_ ?_
        · rw [Tracker.frame_addReference, if_pos ⟨hcurrent, hcurrent ▸ hi⟩, hcurrent]
        · intro j hj
          rw [Tracker.frame_addReference, if_neg fun h => hj (h.1.symm.trans hcurrent)]
      intro id
      have hold := hs id
      simp only [waiting, Option.elim_none, List.nil_append] at hold ⊢
      rw [hpending, List.count_cons, Tracker.addReference_references_size]
      simp only [List.countP_cons, Event.resolves, beq_iff_eq] at hold ⊢
      grind
  | setAccess id access =>
      refine hs.of_perm (.refl _) (fun _ => ?_) (Tracker.modifyReference_size ..)
      simp [Event.resolves]
  | leave hstack hids =>
      refine hs.of_perm ?_ (fun _ => rfl) rfl
      have hpending := Tracker.pending_beginClosing horderly.arena hstack
      exact (hids.append_right _).trans (.of_eq hpending.symm)
  | @found t log f id ids b hfind =>
      have hpending : (t.modifyFrame f (·.modify b.name (·.touch (t.reference id)))).pending =
          t.pending := by
        refine Tracker.pending_congr rfl ?_
        intro i _
        exact Tracker.field_modifyFrame (·.pending) (Frame.modify_pending ..) i
      refine hs.of_resolved ?_ rfl rfl
      simp only [waiting, hpending]
      rfl
  | @passed t log f id parent ids hfind hparent =>
      obtain ⟨rest, hstack⟩ := horderly.stack_of_parent hparent
      have hlt : parent < t.frames.size := horderly.arena.stack_lt parent (by simp [hstack])
      have hpending : (t.passOn f id parent).pending = id :: t.pending := by
        refine Tracker.pending_cons horderly.arena hstack (by simp) ?_ ?_
        · rw [Tracker.frame_passOn, if_pos ⟨rfl, hlt⟩]
        · intro j hj
          rw [Tracker.frame_passOn, if_neg fun h => hj h.1.symm]
      refine hs.of_perm ?_ (fun _ => rfl) (by simp)
      simp only [waiting, hpending]
      exact List.perm_middle
  | implied hfind hroot => exact hs.of_resolved rfl rfl rfl
  | close =>
      refine hs.of_perm (.of_eq (Tracker.pending_congr rfl ?_)) (fun _ => rfl) rfl
      intro i _
      exact Tracker.field_modifyFrame (·.pending) rfl i

theorem start (known : KnownGlobals) (rules : Rules) (strict : Bool) :
    Counted ⟨.start known rules false strict, [], none⟩ := fun _ => rfl

theorem steps (hs : s.Counted) (horderly : s.Orderly) (hsteps : Steps s s') : s'.Counted := by
  induction hsteps with
  | refl => exact hs
  | tail hsteps hstep ih => exact ih.step (horderly.steps hsteps) hstep

/-- A number that is waiting or was resolved is that of a reference. -/
theorem lt_size (hs : s.Counted) {id : Nat}
    (hid : id ∈ s.waiting ∨ ∃ event ∈ s.log, event.resolves id) :
    id < s.tracker.references.size := by
  have hcount := hs id
  have hpos : 0 < s.waiting.count id + s.log.countP (·.resolves id) := by
    rcases hid with hmem | hevent
    · exact Nat.add_pos_left (List.count_pos_iff.mpr hmem) _
    · exact Nat.add_pos_right _ (List.countP_pos_iff.mpr hevent)
  grind

/-- Nothing waits twice. -/
theorem nodup (hs : s.Counted) : s.waiting.Nodup := by
  refine List.nodup_iff_count.mpr fun id => ?_
  have hcount := hs id
  grind

end Counted

end Stage

/-! ## What every run keeps -/

namespace Tracker

/-- The frames are in order, exactly the frames on the stack are open and all others are closed, and
in each frame the index and the bindings describe each other, so that no name is bound twice. -/
structure WellFormed (t : Tracker) : Prop where
  arena : t.Arena
  state : ∀ i < t.frames.size, (t.frame i).state = if i ∈ t.stack then .opened else .closed
  indexed : ∀ i, (t.frame i).Indexed
  nodup : ∀ i, ((t.frame i).bindings.map (·.name)).Nodup

/-- The reference waits in exactly one open frame, exactly once, and was not resolved. -/
def Waits (t : Tracker) (log : List Event) (id : Nat) : Prop :=
  log.countP (·.resolves id) = 0 ∧ ∃ i ∈ t.stack, (t.frame i).pending.count id = 1 ∧
    ∀ j ≠ i, id ∉ (t.frame j).pending

/-- The reference was resolved exactly once and waits nowhere. -/
def Resolved (t : Tracker) (log : List Event) (id : Nat) : Prop :=
  log.countP (·.resolves id) = 1 ∧ ∀ i, id ∉ (t.frame i).pending

end Tracker

open Stage

variable {t : Tracker} {log : List Event}

theorem Stage.Orderly.wellFormed (hs : Orderly ⟨t, log, none⟩) : t.WellFormed where
  arena := hs.arena
  state i hi := by
    split
    next hmem => exact hs.opened i hmem
    next hmem => exact (hs.closed i hi hmem).resolve_right nofun
  indexed := hs.indexed
  nodup i := (hs.indexed i).nodup

theorem Stage.Counted.waits_or_resolved (hs : Counted ⟨t, log, none⟩)
    (horderly : Orderly ⟨t, log, none⟩) {id : Nat} (hid : id < t.references.size) :
    t.Waits log id ∨ t.Resolved log id := by
  have hcount : t.pending.count id + log.countP (·.resolves id) = 1 := by
    simpa [waiting, hid] using hs id
  by_cases hmem : id ∈ t.pending
  · -- Nothing waits twice, so neither in one frame nor in two of them.
    obtain ⟨hnodup, hdisjoint⟩ := List.nodup_flatMap.mp (show t.pending.Nodup from hs.nodup)
    obtain ⟨i, hi, hmem'⟩ := List.mem_flatMap.mp hmem
    have hpos := List.count_pos_iff.mpr hmem
    refine .inl ⟨by omega, i, hi, List.count_eq_one_of_mem (hnodup i hi) hmem', fun j hj h => ?_⟩
    by_cases hleft : j ∈ t.stack
    · have : Std.Symm (Function.onFun List.Disjoint fun i => (t.frame i).pending) :=
        ⟨fun _ _ h _ hfirst hsecond => h hsecond hfirst⟩
      exact hdisjoint.forall hleft hi hj h hmem'
    · have hnone : (t.frame j).pending = [] := horderly.left j hleft
      simp [hnone] at h
  · have hzero := List.count_eq_zero.mpr hmem
    refine .inr ⟨by omega, fun i h => ?_⟩
    by_cases hi : i ∈ t.stack
    · exact hmem (List.mem_flatMap.mpr ⟨i, hi, h⟩)
    · have hnone : (t.frame i).pending = [] := horderly.left i hi
      simp [hnone] at h

namespace Operation

/-- While the outermost frame is open and nothing halts, the tracker is well-formed and each
reference waits in one place or was resolved once. In the end, each was resolved once. -/
theorem references_accounted_for {known : KnownGlobals} {rules : Rules} {module strict : Bool}
    {sink : Sink} {operations : List Operation} {s : Session}
    (hopen : keepOpen (if module then 2 else 1) operations)
    (hrun : (performAll operations).run.run ⟨.start known rules module strict, sink⟩ =
      (.ok (), s)) :
    ∃ log, ((logAll operations).run []).run.run ⟨.start known rules module strict, sink⟩ =
        (.ok ((), log), s) ∧
      s.tracker.WellFormed ∧ s.tracker.stack ≠ [] ∧
      (∀ id < s.tracker.references.size, s.tracker.Waits log id ∨ s.tracker.Resolved log id) ∧
      ∀ s', Action.finish.run.run s = (.ok (), s') →
        ∃ log', (Logged.finish.run log).run.run s = (.ok ((), log'), s') ∧
          s'.tracker.WellFormed ∧ s'.tracker.stack = [] ∧
          (∀ i, (s'.tracker.frame i).pending = []) ∧
          ∀ id < s'.tracker.references.size, s'.tracker.Resolved log' id := by
  obtain ⟨log, hlog, hsteps, hstack⟩ := exists_log_of_performAll hopen hrun
  have hstart := Orderly.start known rules strict
  have horderly := hstart.steps hsteps
  have hcounted := (Counted.start known rules strict).steps hstart hsteps
  refine ⟨log, hlog, horderly.wellFormed, hstack,
    fun id => hcounted.waits_or_resolved horderly, fun s' hfinish => ?_⟩
  obtain ⟨log', hlog', hsteps', hstack'⟩ := Logged.exists_log_of_finish hfinish log
  have horderly' := horderly.steps hsteps'
  refine ⟨log', hlog', horderly'.wellFormed, hstack', fun i => ?_, fun id hid => ?_⟩
  · exact horderly'.left i (hstack' ▸ List.not_mem_nil)
  · refine ((hcounted.steps horderly hsteps').waits_or_resolved horderly' hid).resolve_left ?_
    rintro ⟨-, i, hi, -⟩
    exact List.not_mem_nil (hstack' ▸ hi)

/-- What happens in `var x; function () { { y } var y }` and a second function that assigns to
`x`: one name is used before it is declared, the other one outside the function that declares it. -/
def lateDeclaration : List Operation :=
  [.declare "x" .varName ⟨1, 5, 4⟩,
    .enterFunction {} ⟨2, 1, 8⟩, .enterScope .block ⟨2, 14, 21⟩,
    .addReference "y" ⟨2, 16, 23⟩ .read, .exitScope, .declare "y" .varName ⟨2, 24, 31⟩, .exitScope,
    .enterFunction {} ⟨3, 1, 35⟩, .addReference "x" ⟨3, 14, 48⟩ .read, .setAccess 1 .write,
    .exitScope]

theorem accounted_for_lateDeclaration :
    ∃ s s' log, (performAll lateDeclaration).run.run
        ⟨.start {} (.ofOptions {}) false false, .start 50 3 (.ofList [])⟩ = (.ok (), s) ∧
      Action.finish.run.run s = (.ok (), s') ∧ s'.tracker.WellFormed ∧
      s'.tracker.references.size = 2 ∧ s'.tracker.Resolved log 0 ∧ s'.tracker.Resolved log 1 := by
  have hrun : (performAll lateDeclaration).run.run
      ⟨.start {} (.ofOptions {}) false false, .start 50 3 (.ofList [])⟩ = (.ok (), _) :=
    Prod.ext (by decide +kernel) rfl
  have hend' : Action.finish.run.run ((performAll lateDeclaration).run.run
      ⟨.start {} (.ofOptions {}) false false, .start 50 3 (.ofList [])⟩).2 = (.ok (), _) :=
    Prod.ext (by decide +kernel) rfl
  obtain ⟨log, -, -, -, -, hend⟩ := references_accounted_for (by decide) hrun
  obtain ⟨log', -, hformed, -, -, honce⟩ := hend _ hend'
  exact ⟨_, _, log', hrun, hend', hformed, by decide +kernel, honce 0 (by decide +kernel),
    honce 1 (by decide +kernel)⟩

end Operation

end ScriptLint.Scope

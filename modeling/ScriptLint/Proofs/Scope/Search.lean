import ScriptLint.Proofs.Scope.Account

/-! # The search for a name

A reference that waits in a frame has left the frames below, none of which binds its name and none
of which gets any more names, for it is no longer open. Where the reference is resolved, the search
has come to its end. What was found out about frames that are left stays true.
-/

namespace ScriptLint.Scope

namespace Tracker

variable {t t' : Tracker}

/-- What is past stays: frames keep their place, frames that are left keep their names, and
references keep theirs. -/
structure Keeps (t t' : Tracker) : Prop where
  size : t.frames.size ≤ t'.frames.size
  kind : ∀ i < t.frames.size, (t'.frame i).kind = (t.frame i).kind
  parent? : ∀ i < t.frames.size, (t'.frame i).parent? = (t.frame i).parent?
  left : ∀ i < t.frames.size, i ∉ t.stack → i ∉ t'.stack
  binds : ∀ i < t.frames.size, i ∉ t.stack → ∀ name,
    (t'.frame i).binds name = (t.frame i).binds name
  reference : ∀ id < t.references.size, (t'.reference id).name = (t.reference id).name ∧
    (t'.reference id).origin = (t.reference id).origin

namespace Keeps

/-- It is enough to look at the frames and the references apart. -/
theorem of_frames (hsize : t'.frames.size = t.frames.size) (hstack : t'.stack ⊆ t.stack)
    (hkind : ∀ i, (t'.frame i).kind = (t.frame i).kind)
    (hparent : ∀ i, (t'.frame i).parent? = (t.frame i).parent?)
    (hbinds : ∀ i ∉ t.stack, ∀ name, (t'.frame i).binds name = (t.frame i).binds name)
    (hreference : ∀ id < t.references.size, (t'.reference id).name = (t.reference id).name ∧
      (t'.reference id).origin = (t.reference id).origin) : t.Keeps t' where
  size := Nat.le_of_eq hsize.symm
  kind i _ := hkind i
  parent? i _ := hparent i
  left _ _ hi h := hi (hstack h)
  binds i _ := hbinds i
  reference := hreference

theorem of_grows (hgrows : t.Grows t') : t.Keeps t' := by
  refine .of_frames hgrows.size (hgrows.stack ▸ List.Subset.refl _)
    (fun i => (hgrows.frame i).kind) (fun i => (hgrows.frame i).parent?) ?_ ?_
  · intro i hi name
    rw [hgrows.frozen i hi]
  · intro id _
    rw [Tracker.reference, Tracker.reference, hgrows.references]
    exact ⟨rfl, rfl⟩

theorem path_eq (hkeeps : t.Keeps t') {i : Nat} (hi : i < t.frames.size) :
    t'.path i = t.path i :=
  path_congr fun j hj => hkeeps.parent? j (Nat.lt_of_le_of_lt hj hi)

end Keeps

/-- The search for the name of a reference has come to a frame. The frames before it are left and do
not bind the name; `crossed` is whether one of them is that of a function. -/
def Reached (t : Tracker) (id i : Nat) (crossed : Bool) : Prop :=
  ∃ below above, t.path (t.reference id).origin = below ++ i :: above ∧
    (∀ j ∈ below, j ∉ t.stack ∧ (t.frame j).binds (t.reference id).name = false) ∧
    (crossed ↔ ∃ j ∈ below, (t.frame j).kind = .function)

/-- The search for the name of a reference has ended: in a frame that binds it, or in the global
frame, which does not. -/
def Settled (t : Tracker) (id : Nat) (frame? : Option Nat) (crossed : Bool) : Prop :=
  t.Reached id (frame?.getD 0) crossed ∧ frame?.getD 0 ∉ t.stack ∧
    (t.frame (frame?.getD 0)).binds (t.reference id).name = frame?.isSome

theorem Keeps.reached (hkeeps : t.Keeps t') {id i : Nat} {crossed : Bool}
    (hid : id < t.references.size) (horigin : (t.reference id).origin < t.frames.size)
    (hreached : t.Reached id i crossed) : t'.Reached id i crossed := by
  obtain ⟨below, above, hpath, hbelow, hcrossed⟩ := hreached
  obtain ⟨hname, horigin'⟩ := hkeeps.reference id hid
  have hlt : ∀ j ∈ below, j < t.frames.size := by
    intro j hj
    have hle : j ≤ (t.reference id).origin := le_of_mem_path (hpath ▸ List.mem_append_left _ hj)
    exact Nat.lt_of_le_of_lt hle horigin
  -- The way is the old one, and the frames before the reached one were left already.
  refine ⟨below, above, ?_, ?_, ?_⟩
  · rw [horigin', hkeeps.path_eq horigin, hpath]
  · intro j hj
    obtain ⟨hleft, hbinds⟩ := hbelow j hj
    rw [hname, hkeeps.binds j (hlt j hj) hleft]
    exact ⟨hkeeps.left j (hlt j hj) hleft, hbinds⟩
  · rw [hcrossed]
    refine exists_congr fun j => and_congr_right fun hj => ?_
    rw [hkeeps.kind j (hlt j hj)]

/-- Every search starts in the frame in which the reference stands. -/
theorem reached_origin (t : Tracker) (id : Nat) :
    t.Reached id (t.reference id).origin false := by
  refine ⟨[], (t.path (t.reference id).origin).tail, ?_, nofun, by simp⟩
  rcases t.path_cases (t.reference id).origin with h | ⟨_, -, -, h⟩ <;> rw [h] <;> rfl

theorem Reached.lt_size {id i : Nat} {crossed : Bool} (hreached : t.Reached id i crossed)
    (horigin : (t.reference id).origin < t.frames.size) : i < t.frames.size := by
  obtain ⟨below, above, hpath, -⟩ := hreached
  have hmem : i ∈ t.path (t.reference id).origin := by simp [hpath]
  exact Nat.lt_of_le_of_lt (le_of_mem_path hmem) horigin

theorem Keeps.settled (hkeeps : t.Keeps t') {id : Nat} {frame? : Option Nat} {crossed : Bool}
    (hid : id < t.references.size) (horigin : (t.reference id).origin < t.frames.size)
    (hsettled : t.Settled id frame? crossed) : t'.Settled id frame? crossed := by
  obtain ⟨hreached, hleft, hbinds⟩ := hsettled
  have hlt := hreached.lt_size horigin
  refine ⟨hkeeps.reached hid horigin hreached, hkeeps.left _ hlt hleft, ?_⟩
  rw [(hkeeps.reference id hid).1, hkeeps.binds _ hlt hleft, hbinds]

/-- Where the search has reached a frame that is left and does not bind the name, it reaches the one
around it. -/
theorem Reached.next {id i parent : Nat} {rest : List Nat} {crossed crossed' : Bool}
    (hreached : t.Reached id i crossed) (hleft : i ∉ t.stack)
    (hbinds : (t.frame i).binds (t.reference id).name = false)
    (hpath : t.path i = i :: parent :: rest)
    (hcrossed : crossed' ↔ crossed ∨ (t.frame i).kind = .function) :
    t.Reached id parent crossed' := by
  obtain ⟨below, above, horigin, hbelow, hbefore⟩ := hreached
  -- What is above the frame is the way from the one around it.
  obtain ⟨-, rfl⟩ := List.cons.inj ((path_of_path_eq_append horigin).symm.trans hpath)
  refine ⟨below ++ [i], rest, by simpa using horigin, ?_, ?_⟩
  · intro j hj
    rcases List.mem_append.mp hj with hj | hj
    · exact hbelow j hj
    · obtain rfl := List.mem_singleton.mp hj
      exact ⟨hleft, hbinds⟩
  · simp [hcrossed, hbefore, or_and_right, exists_or]

end Tracker

namespace Stage

open Tracker

/-- Every step keeps what is past. -/
theorem Step.keeps {s s' : Stage} (hs : s.Orderly) (hstep : Step s s') :
    s.tracker.Keeps s'.tracker := by
  cases hstep with
  | grow hgrows => exact .of_grows hgrows
  | @enter t log f hstack hparent hnew =>
      have hframe {i : Nat} (hi : i < t.frames.size) : (t.push f).frame i = t.frame i := by
        rw [frame_push, if_neg (Nat.ne_of_lt hi)]
      constructor
      · simp [Tracker.push]
      · intro i hi
        rw [hframe hi]
      · intro i hi
        rw [hframe hi]
      · intro i hi hleft hmem
        exact (List.mem_cons.mp hmem).elim (Nat.ne_of_lt hi) hleft
      · intro i hi _ name
        rw [hframe hi]
      · exact fun _ _ => ⟨rfl, rfl⟩
  | @record t log hstack name position access =>
      refine .of_frames (by simp) (List.Subset.refl _) ?_ ?_ ?_ ?_
      · exact field_addReference (·.kind) (fun _ _ => rfl) t name position access
      · exact field_addReference (·.parent?) (fun _ _ => rfl) t name position access
      · intro i _ name'
        exact field_addReference (·.binds name') (fun _ _ => rfl) t name position access i
      · intro id hid
        rw [reference_addReference, if_neg (Nat.ne_of_lt hid)]
        exact ⟨rfl, rfl⟩
  | setAccess id access =>
      refine .of_frames rfl (List.Subset.refl _) (fun _ => rfl) (fun _ => rfl)
        (fun _ _ _ => rfl) ?_
      intro id' _
      unfold Tracker.setAccess
      rw [reference_modifyReference]
      split
      next h => exact h.1 ▸ ⟨rfl, rfl⟩
      next => exact ⟨rfl, rfl⟩
  | @leave t log f stack ids hstack hids =>
      refine .of_frames (by simp) ?_ ?_ ?_ ?_ fun _ _ => ⟨rfl, rfl⟩
      · intro i hi
        exact hstack ▸ List.mem_cons_of_mem f hi
      · exact field_beginClosing (·.kind) (fun _ _ _ => rfl) t f stack
      · exact field_beginClosing (·.parent?) (fun _ _ _ => rfl) t f stack
      · intro i _ name
        exact field_beginClosing (·.binds name) (fun _ _ _ => rfl) t f stack i
  | @found t log f id ids b hfind =>
      refine .of_frames (by simp) (List.Subset.refl _) ?_ ?_ ?_ fun _ _ => ⟨rfl, rfl⟩
      · exact field_modifyFrame (·.kind) (Frame.modify_kind ..)
      · exact field_modifyFrame (·.parent?) (Frame.modify_parent? ..)
      · intro i _ name
        exact field_modifyFrame (·.binds name) ((hs.indexed f).binds_modify ..) i
  | @passed t log f id parent ids hfind hparent =>
      refine .of_frames (by simp) (by simp) ?_ ?_ ?_ ?_
      · exact field_passOn (·.kind) (fun _ _ => rfl) t f id parent
      · exact field_passOn (·.parent?) (fun _ _ => rfl) t f id parent
      · intro i _ name
        exact field_passOn (·.binds name) (fun _ _ => rfl) t f id parent i
      · intro id' _
        rw [reference_passOn]
        split
        next h => exact h.1 ▸ ⟨rfl, rfl⟩
        next => exact ⟨rfl, rfl⟩
  | implied hfind hroot => exact .of_grows (.refl _)
  | close =>
      refine .of_frames (by simp) (List.Subset.refl _) ?_ ?_ ?_ fun _ _ => ⟨rfl, rfl⟩
      · exact field_modifyFrame (·.kind) rfl
      · exact field_modifyFrame (·.parent?) rfl
      · intro i _ name
        exact field_modifyFrame (·.binds name) rfl i

/-- The reference is to be resolved in the frame next. -/
def WaitsIn (s : Stage) (i id : Nat) : Prop :=
  (i ∈ s.tracker.stack ∧ id ∈ (s.tracker.frame i).pending) ∨
    ∃ ids, s.closing? = some (i, ids) ∧ id ∈ ids

theorem WaitsIn.mem_waiting {s : Stage} {i id : Nat} (hwaits : s.WaitsIn i id) :
    id ∈ s.waiting := by
  unfold waiting
  rcases hwaits with ⟨hi, hid⟩ | ⟨ids, hclosing, hid⟩
  · exact List.mem_append_right _ (List.mem_flatMap.mpr ⟨i, hi, hid⟩)
  · exact List.mem_append_left _ (by simpa [hclosing] using hid)

/-- The search for each reference that waits has come to the place where it waits, and the search
for each that was resolved has ended there. -/
structure Placed (s : Stage) : Prop where
  reached : ∀ i id, s.WaitsIn i id →
    s.tracker.Reached id i (s.tracker.reference id).crossedFunction
  settled : ∀ id frame? crossed, .resolved id frame? crossed ∈ s.log →
    s.tracker.Settled id frame? crossed

namespace Placed

variable {s s' : Stage}

/-- What a step does not touch stays in its place. -/
theorem of_keeps (hs : s.Placed) (horderly : s.Orderly) (hcounted : s.Counted)
    (hkeeps : s.tracker.Keeps s'.tracker)
    (hreached : ∀ i id, s'.WaitsIn i id →
      (s.WaitsIn i id ∧ (s'.tracker.reference id).crossedFunction =
        (s.tracker.reference id).crossedFunction) ∨
      s'.tracker.Reached id i (s'.tracker.reference id).crossedFunction)
    (hsettled : ∀ id frame? crossed, .resolved id frame? crossed ∈ s'.log →
      .resolved id frame? crossed ∈ s.log ∨ s'.tracker.Settled id frame? crossed) :
    s'.Placed := by
  refine ⟨?_, ?_⟩
  · intro i id hwaits
    rcases hreached i id hwaits with ⟨hold, hcrossed⟩ | hnew
    · have hid := hcounted.lt_size (.inl hold.mem_waiting)
      exact hcrossed ▸ hkeeps.reached hid (horderly.origin id hid) (hs.reached i id hold)
    · exact hnew
  · intro id frame? crossed hevent
    rcases hsettled id frame? crossed hevent with hold | hnew
    · have hid := hcounted.lt_size (.inr ⟨_, hold, decide_eq_true rfl⟩)
      exact hkeeps.settled hid (horderly.origin id hid) (hs.settled id frame? crossed hold)
    · exact hnew

variable {t t' : Tracker} {log : List Event}

theorem grow {closing? : Option (Nat × List Nat)} (hs : Placed ⟨t, log, closing?⟩)
    (horderly : Orderly ⟨t, log, closing?⟩) (hcounted : Counted ⟨t, log, closing?⟩)
    (hgrows : t.Grows t') : Placed ⟨t', log, closing?⟩ := by
  refine hs.of_keeps horderly hcounted (.of_grows hgrows) ?_ fun _ _ _ => .inl
  intro i id hwaits
  refine .inl ⟨?_, ?_⟩
  · exact hwaits.imp_left fun h => ⟨hgrows.stack ▸ h.1, (hgrows.frame i).pending ▸ h.2⟩
  · simp only [Tracker.reference, hgrows.references]

theorem enter {f : Frame} (hs : Placed ⟨t, log, none⟩) (horderly : Orderly ⟨t, log, none⟩)
    (hcounted : Counted ⟨t, log, none⟩) (hkeeps : t.Keeps (t.push f)) (hnew : f.IsNew) :
    Placed ⟨t.push f, log, none⟩ := by
  refine hs.of_keeps horderly hcounted hkeeps ?_ fun _ _ _ => .inl
  intro i id hwaits
  refine .inl ⟨.inl ?_, rfl⟩
  obtain ⟨hi, hid⟩ := hwaits.resolve_right nofun
  rw [frame_push] at hid
  split at hid
  next => simp [hnew.pending] at hid
  next hne => exact ⟨(List.mem_cons.mp hi).resolve_left hne, hid⟩

/-- The search for a new reference has come to the innermost frame. -/
theorem record (hs : Placed ⟨t, log, none⟩) (horderly : Orderly ⟨t, log, none⟩)
    (hcounted : Counted ⟨t, log, none⟩) {name : String} {position : Position} {access : Access}
    (hkeeps : t.Keeps (t.addReference name position access)) :
    Placed ⟨t.addReference name position access,
      .recorded t.references.size access :: log, none⟩ := by
  refine hs.of_keeps horderly hcounted hkeeps ?_
    fun _ _ _ hevent => .inl ((List.mem_cons.mp hevent).resolve_left nofun)
  intro i id hwaits
  obtain ⟨hi, hid⟩ := hwaits.resolve_right nofun
  have hold (hid : id ∈ (t.frame i).pending) : WaitsIn ⟨t, log, none⟩ i id := .inl ⟨hi, hid⟩
  have hcrossed (hwaits : WaitsIn ⟨t, log, none⟩ i id) :
      (t.addReference name position access).reference id = t.reference id := by
    have hlt := hcounted.lt_size (.inl hwaits.mem_waiting)
    rw [reference_addReference, if_neg (Nat.ne_of_lt hlt)]
  rw [frame_addReference] at hid
  split at hid
  next h =>
    rcases List.mem_cons.mp hid with rfl | hid
    · -- The new reference waits in its origin.
      have hreached := (t.addReference name position access).reached_origin t.references.size
      simp only [reference_addReference, if_pos] at hreached ⊢
      exact .inr (h.1 ▸ hreached)
    · have hwaits := hold (h.1 ▸ hid)
      exact .inl ⟨hwaits, by rw [hcrossed hwaits]⟩
  next =>
    have hwaits := hold hid
    exact .inl ⟨hwaits, by rw [hcrossed hwaits]⟩

theorem setAccess (hs : Placed ⟨t, log, none⟩) (horderly : Orderly ⟨t, log, none⟩)
    (hcounted : Counted ⟨t, log, none⟩) {id : Nat} {access : Access}
    (hkeeps : t.Keeps (t.setAccess id access)) :
    Placed ⟨t.setAccess id access, .accessSet id access :: log, none⟩ := by
  apply hs.of_keeps horderly hcounted hkeeps
  · intro i id' hwaits
    refine .inl ⟨hwaits, ?_⟩
    dsimp only [Tracker.setAccess]
    rw [reference_modifyReference]
    split
    next h => rw [h.1]
    next => rfl
  · intro _ _ _ hevent
    exact .inl ((List.mem_cons.mp hevent).resolve_left nofun)

theorem leave {f : Nat} {stack ids : List Nat} (hs : Placed ⟨t, log, none⟩)
    (horderly : Orderly ⟨t, log, none⟩) (hcounted : Counted ⟨t, log, none⟩)
    (hkeeps : t.Keeps (t.beginClosing f stack)) (hstack : t.stack = f :: stack)
    (hids : ids.Perm (t.frame f).pending) :
    Placed ⟨t.beginClosing f stack, log, some (f, ids)⟩ := by
  have hf : f < t.frames.size := horderly.arena.stack_lt f (by simp [hstack])
  apply hs.of_keeps horderly hcounted hkeeps
  · intro i id hwaits
    refine .inl ⟨.inl ?_, rfl⟩
    -- What waits for the closing frame waited in it while it was open.
    rcases hwaits with ⟨hi, hid⟩ | ⟨ids', heq, hid⟩
    · rw [frame_beginClosing hf] at hid
      split at hid
      next => cases hid
      next => exact ⟨hstack ▸ List.mem_cons_of_mem f hi, hid⟩
    · cases heq
      exact ⟨hstack ▸ List.mem_cons_self, hids.subset hid⟩
  · exact fun _ _ _ => .inl

/-- The search for a reference ends in a frame that binds the name. -/
theorem found {f id : Nat} {ids : List Nat} {b : Binding}
    (hs : Placed ⟨t, log, some (f, id :: ids)⟩)
    (horderly : Orderly ⟨t, log, some (f, id :: ids)⟩)
    (hcounted : Counted ⟨t, log, some (f, id :: ids)⟩)
    (hkeeps : t.Keeps (t.modifyFrame f (·.modify b.name (·.touch (t.reference id)))))
    (hfind : (t.frame f).find? (t.reference id).name = some b) :
    Placed ⟨t.modifyFrame f (·.modify b.name (·.touch (t.reference id))),
      .resolved id (some f) (t.reference id).crossedFunction :: log, some (f, ids)⟩ := by
  have hwaits : WaitsIn ⟨t, log, some (f, id :: ids)⟩ f id :=
    .inr ⟨id :: ids, rfl, List.mem_cons_self⟩
  have hid := hcounted.lt_size (.inl hwaits.mem_waiting)
  have hsettled : t.Settled id (some f) (t.reference id).crossedFunction :=
    ⟨hs.reached f id hwaits, horderly.closing_not_mem, by simp [Frame.binds, hfind]⟩
  apply hs.of_keeps horderly hcounted hkeeps
  · intro i id' hwaits
    refine .inl ⟨?_, rfl⟩
    rcases hwaits with ⟨hi, hid⟩ | ⟨ids', heq, hid⟩
    · dsimp only at hid
      rw [field_modifyFrame (·.pending) (Frame.modify_pending ..)] at hid
      exact .inl ⟨hi, hid⟩
    · cases heq
      exact .inr ⟨id :: ids, rfl, List.mem_cons_of_mem id hid⟩
  · intro id' frame? crossed hevent
    rcases List.mem_cons.mp hevent with heq | hold
    · cases heq
      exact .inr (hkeeps.settled hid (horderly.origin id hid) hsettled)
    · exact .inl hold

/-- The search for a reference goes on in the frame around a closing one. -/
theorem passed {f id parent : Nat} {ids : List Nat} (hs : Placed ⟨t, log, some (f, id :: ids)⟩)
    (horderly : Orderly ⟨t, log, some (f, id :: ids)⟩)
    (hcounted : Counted ⟨t, log, some (f, id :: ids)⟩)
    (hkeeps : t.Keeps (t.passOn f id parent))
    (hfind : (t.frame f).find? (t.reference id).name = none)
    (hparent : (t.frame f).parent? = some parent) :
    Placed ⟨t.passOn f id parent, log, some (f, ids)⟩ := by
  have hwaits : WaitsIn ⟨t, log, some (f, id :: ids)⟩ f id :=
    .inr ⟨id :: ids, rfl, List.mem_cons_self⟩
  have hid := hcounted.lt_size (.inl hwaits.mem_waiting)
  have honce : id ∉ ids ++ t.pending := (List.nodup_cons.mp hcounted.nodup).1
  have hsame {id' : Nat} (hmem : id' ∈ ids ++ t.pending) :
      (t.passOn f id parent).reference id' = t.reference id' := by
    have hne : id ≠ id' := fun heq => honce (heq ▸ hmem)
    rw [reference_passOn, if_neg fun h => hne h.1]
  -- The closing frame is left and does not bind the name, so the search goes past it.
  have hnext : t.Reached id parent ((t.passOn f id parent).reference id).crossedFunction := by
    obtain ⟨rest, hstack⟩ := horderly.stack_of_parent hparent
    have hpath : t.path f = f :: parent :: rest := hstack ▸ (horderly.closing f rfl).2
    refine (hs.reached f id hwaits).next horderly.closing_not_mem (by simp [Frame.binds, hfind])
      hpath ?_
    rw [reference_passOn]
    have hlt : id < t.references.size := hid
    split <;> simp_all
  refine hs.of_keeps horderly hcounted hkeeps ?_ fun _ _ _ => .inl
  intro i id' hwaits
  -- What waits in an open frame is another reference, and nothing about it changes.
  have hold (hi : i ∈ t.stack) (hid' : id' ∈ (t.frame i).pending) :
      WaitsIn ⟨t, log, some (f, id :: ids)⟩ i id' ∧
        ((t.passOn f id parent).reference id').crossedFunction =
          (t.reference id').crossedFunction := by
    refine ⟨.inl ⟨hi, hid'⟩, ?_⟩
    rw [hsame (List.mem_append_right _ (List.mem_flatMap.mpr ⟨i, hi, hid'⟩))]
  rcases hwaits with ⟨hi, hid'⟩ | ⟨ids', heq, hid'⟩
  · have hi : i ∈ t.stack := passOn_stack t f id parent ▸ hi
    rw [frame_passOn] at hid'
    split at hid'
    next h =>
      obtain ⟨rfl, -⟩ := h
      rcases List.mem_cons.mp hid' with rfl | hid'
      · exact .inr (hkeeps.reached hid (horderly.origin id' hid) hnext)
      · exact .inl (hold hi hid')
    next => exact .inl (hold hi hid')
  · cases heq
    refine .inl ⟨.inr ⟨id :: ids, rfl, List.mem_cons_of_mem id hid'⟩, ?_⟩
    rw [hsame (List.mem_append_left _ hid')]

/-- The search for a reference ends in the global frame. -/
theorem implied {f id : Nat} {ids : List Nat} (hs : Placed ⟨t, log, some (f, id :: ids)⟩)
    (horderly : Orderly ⟨t, log, some (f, id :: ids)⟩)
    (hcounted : Counted ⟨t, log, some (f, id :: ids)⟩)
    (hfind : (t.frame f).find? (t.reference id).name = none)
    (hroot : (t.frame f).parent? = none) :
    Placed ⟨t, .resolved id none (t.reference id).crossedFunction :: log, some (f, ids)⟩ := by
  obtain ⟨hf, -⟩ := horderly.closing f rfl
  obtain rfl : f = 0 := (horderly.arena.root f hf).mp hroot
  have hwaits : WaitsIn ⟨t, log, some (0, id :: ids)⟩ 0 id :=
    .inr ⟨id :: ids, rfl, List.mem_cons_self⟩
  refine hs.of_keeps horderly hcounted (.of_grows (.refl t)) ?_ ?_
  · intro i id' hwaits
    refine .inl ⟨hwaits.imp_right ?_, rfl⟩
    rintro ⟨ids', heq, hid⟩
    cases heq
    exact ⟨id :: ids, rfl, List.mem_cons_of_mem id hid⟩
  · intro id' frame? crossed hevent
    rcases List.mem_cons.mp hevent with heq | hold
    · cases heq
      exact .inr ⟨hs.reached 0 id hwaits, horderly.closing_not_mem, by simp [Frame.binds, hfind]⟩
    · exact .inl hold

theorem close {f : Nat} (hs : Placed ⟨t, log, some (f, [])⟩)
    (horderly : Orderly ⟨t, log, some (f, [])⟩) (hcounted : Counted ⟨t, log, some (f, [])⟩)
    (hkeeps : t.Keeps (t.modifyFrame f fun g => { g with state := .closed })) :
    Placed ⟨t.modifyFrame f fun g => { g with state := .closed }, log, none⟩ := by
  apply hs.of_keeps horderly hcounted hkeeps
  · intro i id hwaits
    obtain ⟨hi, hid⟩ := hwaits.resolve_right nofun
    dsimp only at hid
    rw [field_modifyFrame (·.pending) rfl] at hid
    exact .inl ⟨.inl ⟨hi, hid⟩, rfl⟩
  · exact fun _ _ _ => .inl

/-- Every step keeps the references in their places. -/
theorem step {s s' : Stage} (hs : s.Placed) (horderly : s.Orderly) (hcounted : s.Counted)
    (hstep : Step s s') : s'.Placed := by
  have hkeeps := hstep.keeps horderly
  cases hstep with
  | grow hgrows => exact hs.grow horderly hcounted hgrows
  | enter hstack hparent hnew => exact hs.enter horderly hcounted hkeeps hnew
  | record hstack name position access => exact hs.record horderly hcounted hkeeps
  | setAccess id access => exact hs.setAccess horderly hcounted hkeeps
  | leave hstack hids => exact hs.leave horderly hcounted hkeeps hstack hids
  | found hfind => exact hs.found horderly hcounted hkeeps hfind
  | passed hfind hparent => exact hs.passed horderly hcounted hkeeps hfind hparent
  | implied hfind hroot => exact hs.implied horderly hcounted hfind hroot
  | close => exact hs.close horderly hcounted hkeeps

theorem start (known : KnownGlobals) (rules : Rules) (strict : Bool) :
    Placed ⟨.start known rules false strict, [], none⟩ := by
  refine ⟨fun i id hwaits => ?_, nofun⟩
  obtain ⟨hi, hid⟩ := hwaits.resolve_right nofun
  obtain rfl : i = 0 := List.mem_singleton.mp hi
  cases hid

theorem steps {s s' : Stage} (hs : s.Placed) (horderly : s.Orderly) (hcounted : s.Counted)
    (hsteps : Steps s s') : s'.Placed := by
  induction hsteps with
  | refl => exact hs
  | tail hsteps hstep ih =>
      exact ih.step (horderly.steps hsteps) (hcounted.steps horderly hsteps) hstep

end Placed

end Stage

end ScriptLint.Scope

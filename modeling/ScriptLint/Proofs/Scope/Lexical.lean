import ScriptLint.Proofs.Scope.Search

/-! # Resolution is lexical scoping

References are resolved late, when frames close, and one frame at a time. All the same, what each is
resolved to depends on the final frames alone: it is the innermost frame on the way from its origin
that binds the name. A binding is used if a reference that does more than write comes to it.
-/

namespace ScriptLint.Scope

namespace Frame

variable {f : Frame}

theorem IsNew.uses (hnew : f.IsNew) (name : String) : f.uses name = false := by
  simp [Frame.uses, find?, hnew.index]

/-- A reference that is found makes the binding of its name used, unless it only writes. -/
theorem Indexed.uses_touch (hf : f.Indexed) {r : Reference} {b : Binding}
    (hfind : f.find? r.name = some b) (name : String) :
    (f.modify b.name (·.touch r)).uses name ↔
      f.uses name ∨ r.name = name ∧ r.access ≠ .write := by
  have hname : b.name = r.name := (hf.find?_eq_some_iff.mp hfind).2
  unfold Frame.uses
  rw [hf.find?_modify, hname]
  split
  next heq => simp [heq, hfind, Binding.touch]
  next hne => simp [Ne.symm hne]

end Frame

namespace Tracker

/-- The innermost frame around a reference that binds its name. -/
def resolver? (t : Tracker) (id : Nat) : Option Nat :=
  (t.path (t.reference id).origin).find? fun i =>
    (t.frame i).bindings.any (·.name = (t.reference id).name)

/-- Whether the way from a reference to the frame that binds its name, or else to the global one,
leaves a function. -/
def crosses (t : Tracker) (id : Nat) : Bool :=
  ((t.path (t.reference id).origin).takeWhile (· ≠ (t.resolver? id).getD 0)).any fun i =>
    (t.frame i).kind = .function

/-- Whether a reference of the name was resolved to the frame that did more than write, as it was
last set before. -/
def ReadIn (t : Tracker) (log : List Event) (i : Nat) (name : String) : Prop :=
  ∃ id crossed before, .resolved id (some i) crossed :: before <:+ log ∧
    (t.reference id).name = name ∧ lastAccess? id before ≠ some .write

theorem readIn_resolved (t : Tracker) (log : List Event) (id f : Nat) (crossed : Bool) (i : Nat)
    (name : String) :
    t.ReadIn (.resolved id (some f) crossed :: log) i name ↔
      t.ReadIn log i name ∨
        f = i ∧ (t.reference id).name = name ∧ lastAccess? id log ≠ some .write := by
  unfold ReadIn
  simp only [List.suffix_cons_iff]
  constructor
  · rintro ⟨id', crossed', before, heq | hsuffix, hread⟩
    · cases heq
      exact .inr ⟨rfl, hread⟩
    · exact .inl ⟨id', crossed', before, hsuffix, hread⟩
  · rintro (⟨id', crossed', before, hsuffix, hread⟩ | ⟨rfl, hread⟩)
    · exact ⟨id', crossed', before, .inr hsuffix, hread⟩
    · exact ⟨id, crossed, log, .inl rfl, hread⟩

end Tracker

namespace Stage

open Tracker

/-- The log tells how each reference uses its variable, and which bindings are used. -/
structure Told (s : Stage) : Prop where
  access : ∀ id < s.tracker.references.size,
    lastAccess? id s.log = some (s.tracker.reference id).access
  uses : ∀ i name, (s.tracker.frame i).uses name ↔ s.tracker.ReadIn s.log i name

namespace Told

variable {s s' : Stage}

/-- A step that resolves no reference to a binding has no effect on what is used. -/
theorem of_keeps (hs : s.Told) (hcounted : s.Counted) (hkeeps : s.tracker.Keeps s'.tracker)
    (hlog : ∀ id i crossed before, .resolved id (some i) crossed :: before <:+ s'.log ↔
      .resolved id (some i) crossed :: before <:+ s.log)
    (haccess : ∀ id < s'.tracker.references.size,
      lastAccess? id s'.log = some (s'.tracker.reference id).access)
    (huses : ∀ i name, (s'.tracker.frame i).uses name = (s.tracker.frame i).uses name) :
    s'.Told := by
  refine ⟨haccess, fun i name => ?_⟩
  rw [huses, hs.uses]
  refine exists_congr fun id => exists_congr fun crossed => exists_congr fun before => ?_
  rw [hlog]
  refine and_congr_right fun hsuffix => ?_
  have hid := hcounted.lt_size
    (.inr ⟨_, hsuffix.subset List.mem_cons_self, decide_eq_true (rfl : id = id)⟩)
  rw [(hkeeps.reference id hid).1]

variable {t t' : Tracker} {log : List Event}

theorem record (hs : Told ⟨t, log, none⟩) (hcounted : Counted ⟨t, log, none⟩) {name : String}
    {position : Position} {access : Access}
    (hkeeps : t.Keeps (t.addReference name position access)) :
    Told ⟨t.addReference name position access,
      .recorded t.references.size access :: log, none⟩ := by
  refine hs.of_keeps hcounted hkeeps ?_ ?_ ?_
  · intro id i crossed before
    rw [List.suffix_cons_iff]
    exact or_iff_right (by simp)
  · intro id hid
    have hold := hs.access id
    dsimp only at hid hold ⊢
    rw [addReference_references_size] at hid
    rw [reference_addReference, lastAccess?]
    grind
  · intro i name'
    exact field_addReference (·.uses name') (fun _ _ => rfl) t name position access i

theorem setAccess (hs : Told ⟨t, log, none⟩) (hcounted : Counted ⟨t, log, none⟩) {id : Nat}
    {access : Access} (hkeeps : t.Keeps (t.setAccess id access)) :
    Told ⟨t.setAccess id access, .accessSet id access :: log, none⟩ := by
  refine hs.of_keeps hcounted hkeeps ?_ ?_ fun _ _ => rfl
  · intro id i crossed before
    rw [List.suffix_cons_iff]
    exact or_iff_right (by simp)
  · intro id' hid
    have hold := hs.access id'
    dsimp only [Tracker.setAccess] at hid hold ⊢
    rw [modifyReference_size] at hid
    rw [reference_modifyReference, lastAccess?]
    grind

/-- A reference that is found makes the binding used, unless it was last set to only write. -/
theorem found {f id : Nat} {ids : List Nat} {b : Binding} (hs : Told ⟨t, log, some (f, id :: ids)⟩)
    (horderly : Orderly ⟨t, log, some (f, id :: ids)⟩)
    (hcounted : Counted ⟨t, log, some (f, id :: ids)⟩)
    (hfind : (t.frame f).find? (t.reference id).name = some b) :
    Told ⟨t.modifyFrame f (·.modify b.name (·.touch (t.reference id))),
      .resolved id (some f) (t.reference id).crossedFunction :: log, some (f, ids)⟩ := by
  have hf : f < t.frames.size := (horderly.closing f rfl).1
  have hid : id < t.references.size := hcounted.lt_size (.inl List.mem_cons_self)
  have haccess : lastAccess? id log = some (t.reference id).access := hs.access id hid
  have huses (i : Nat) (name : String) :
      ((t.modifyFrame f (·.modify b.name (·.touch (t.reference id)))).frame i).uses name ↔
        (t.frame i).uses name ∨
          f = i ∧ (t.reference id).name = name ∧ (t.reference id).access ≠ .write := by
    rw [frame_modifyFrame]
    split
    next h =>
      obtain ⟨rfl, -⟩ := h
      simpa using (horderly.indexed f).uses_touch hfind name
    next h =>
      have hne : f ≠ i := fun heq => h ⟨heq, hf⟩
      simp [hne]
  refine ⟨hs.access, fun i name => ?_⟩
  have hresolved := t.readIn_resolved log id f (t.reference id).crossedFunction i name
  rw [haccess] at hresolved
  simp only [ne_eq, Option.some.injEq] at hresolved
  exact (huses i name).trans ((or_congr_left (hs.uses i name)).trans hresolved.symm)

theorem step (hs : s.Told) (horderly : s.Orderly) (hcounted : s.Counted) (hstep : Step s s') :
    s'.Told := by
  have hkeeps := hstep.keeps horderly
  cases hstep with
  | grow hgrows =>
      refine hs.of_keeps hcounted hkeeps (fun _ _ _ _ => .rfl) ?_ ?_
      · intro id hid
        rw [Tracker.reference, hgrows.references]
        exact hs.access id (hgrows.references ▸ hid)
      · intro i name
        exact (hgrows.frame i).uses (horderly.indexed i) name
  | @enter t log f hstack hparent hnew =>
      apply hs.of_keeps hcounted hkeeps (fun _ _ _ _ => .rfl) hs.access
      intro i name
      dsimp only
      rw [frame_push]
      split
      next heq =>
        -- Nothing is used in a new frame, nor was it where there was no frame.
        rw [hnew.uses, heq, t.frame_of_size_le (Nat.le_refl _)]
        exact (Frame.IsNew.uses ⟨rfl, rfl, rfl, rfl⟩ name).symm
      next => rfl
  | record hstack name position access => exact hs.record hcounted hkeeps
  | setAccess id access => exact hs.setAccess hcounted hkeeps
  | @leave t log f stack ids hstack hids =>
      apply hs.of_keeps hcounted hkeeps (fun _ _ _ _ => .rfl) hs.access
      intro i name
      exact field_beginClosing (·.uses name) (fun _ _ _ => rfl) t f stack i
  | found hfind => exact hs.found horderly hcounted hfind
  | @passed t log f id parent ids hfind hparent =>
      apply hs.of_keeps hcounted hkeeps fun _ _ _ _ => .rfl
      · intro id' hid
        have hold := hs.access id' (passOn_references_size t f id parent ▸ hid)
        dsimp only at hold ⊢
        rw [reference_passOn, hold]
        split
        next h => rw [h.1]
        next => rfl
      · intro i name
        exact field_passOn (·.uses name) (fun _ _ => rfl) t f id parent i
  | implied hfind hroot =>
      refine hs.of_keeps hcounted hkeeps (fun id i crossed before => ?_) hs.access fun _ _ => rfl
      rw [List.suffix_cons_iff]
      exact or_iff_right (by simp)
  | close =>
      apply hs.of_keeps hcounted hkeeps (fun _ _ _ _ => .rfl) hs.access
      intro i name
      exact field_modifyFrame (·.uses name) rfl i

theorem start (known : KnownGlobals) (rules : Rules) (strict : Bool) :
    Told ⟨.start known rules false strict, [], none⟩ := by
  refine ⟨nofun, fun i name => ?_⟩
  have hnew : ((Tracker.start known rules false strict).frame i).IsNew := by
    cases i <;> exact ⟨rfl, rfl, rfl, rfl⟩
  simp [hnew.uses, ReadIn]

theorem steps (hs : s.Told) (horderly : s.Orderly) (hcounted : s.Counted) (hsteps : Steps s s') :
    s'.Told := by
  induction hsteps with
  | refl => exact hs
  | tail hsteps hstep ih =>
      exact ih.step (horderly.steps hsteps) (hcounted.steps horderly hsteps) hstep

end Told

end Stage

/-! ## The final frames -/

namespace Tracker

variable {t : Tracker}

/-- Where the search for a name has ended is the frame that binds it, if any does. -/
theorem Settled.resolver?_eq {id : Nat} {frame? : Option Nat} {crossed : Bool} (ht : t.Arena)
    (hindexed : ∀ i, (t.frame i).Indexed) (hsettled : t.Settled id frame? crossed) :
    t.resolver? id = frame? := by
  obtain ⟨⟨below, above, hpath, hbelow, -⟩, -, hbinds⟩ := hsettled
  have hnone : below.find? (fun i => (t.frame i).binds (t.reference id).name) = none :=
    List.find?_eq_none.mpr fun j hj => by simp [(hbelow j hj).2]
  unfold resolver?
  simp only [← (hindexed _).binds_eq_any]
  rw [hpath, List.find?_append, hnone, Option.none_or]
  cases frame? with
  | some i => exact List.find?_cons_of_pos hbinds
  | none =>
      -- The search ended in the global frame, beyond which there is none.
      have hroot : t.path 0 = [0] := path_of_root ((ht.root 0 ht.size_pos).mpr rfl)
      have habove := (path_of_path_eq_append hpath).symm.trans hroot
      have hglobal : (t.frame 0).binds (t.reference id).name = false := hbinds
      rw [Option.getD_none] at habove ⊢
      simp [habove, hglobal]

/-- The search leaves a function if the way to where it ends does. -/
theorem Settled.crosses_eq {id : Nat} {frame? : Option Nat} {crossed : Bool} (ht : t.Arena)
    (hindexed : ∀ i, (t.frame i).Indexed) (hsettled : t.Settled id frame? crossed) :
    t.crosses id = crossed := by
  have hresolver := hsettled.resolver?_eq ht hindexed
  obtain ⟨⟨below, above, hpath, -, hcrossed⟩, -⟩ := hsettled
  -- A way comes to a frame once, so what precedes the frame where it ends is below it.
  have hnodup : (below ++ frame?.getD 0 :: above).Nodup := hpath ▸ t.path_nodup _
  have hnot := (List.nodup_cons.mp (List.nodup_middle.mp hnodup)).1
  have htake : (below ++ frame?.getD 0 :: above).takeWhile (· ≠ frame?.getD 0) = below := by
    rw [List.takeWhile_append_of_pos, List.takeWhile_cons_of_neg (by simp), List.append_nil]
    intro j hj
    exact decide_eq_true fun heq => hnot (heq ▸ List.mem_append_left above hj)
  rw [crosses, hresolver, hpath, htake, Bool.eq_iff_iff, List.any_eq_true, hcrossed]
  simp only [decide_eq_true_eq]

end Tracker

namespace Stage

variable {s : Stage}

/-- An event that resolves a reference is right about it. -/
theorem Placed.resolved_eq (hs : s.Placed) (horderly : s.Orderly) {id : Nat} {event : Event}
    (hmem : event ∈ s.log) (hresolves : event.resolves id) :
    event = .resolved id (s.tracker.resolver? id) (s.tracker.crosses id) := by
  cases event with
  | recorded id' access => cases hresolves
  | accessSet id' access => cases hresolves
  | resolved id' frame? crossed =>
      obtain rfl : id' = id := of_decide_eq_true hresolves
      have hsettled := hs.settled id' frame? crossed hmem
      rw [hsettled.resolver?_eq horderly.arena horderly.indexed,
        hsettled.crosses_eq horderly.arena horderly.indexed]

/-- A reference that was resolved once was resolved right. -/
theorem Placed.filter_resolves (hs : s.Placed) (horderly : s.Orderly) {id : Nat}
    (honce : s.log.countP (·.resolves id) = 1) :
    s.log.filter (·.resolves id) =
      [.resolved id (s.tracker.resolver? id) (s.tracker.crosses id)] := by
  rw [List.countP_eq_length_filter] at honce
  obtain ⟨event, hevent⟩ := List.length_eq_one_iff.mp honce
  obtain ⟨hmem, hresolves⟩ := List.mem_filter.mp (hevent ▸ List.mem_singleton_self event)
  rw [hevent, hs.resolved_eq horderly hmem hresolves]

/-- A binding is used if a reference came to it that did more than write. -/
theorem Told.used_iff (hs : s.Told) (horderly : s.Orderly) (hcounted : s.Counted)
    (hplaced : s.Placed) {i : Nat} {b : Binding} (hb : b ∈ (s.tracker.frame i).bindings) :
    b.used ↔ ∃ id < s.tracker.references.size,
      ∃ before, .resolved id (some i) (s.tracker.crosses id) :: before <:+ s.log ∧
        (s.tracker.reference id).name = b.name ∧ lastAccess? id before ≠ some .write := by
  have hfind := (horderly.indexed i).find?_eq_some_iff.mpr ⟨hb, rfl⟩
  have huses : (s.tracker.frame i).uses b.name = b.used := by simp [Frame.uses, hfind]
  rw [← huses, hs.uses]
  constructor
  · rintro ⟨id, crossed, before, hsuffix, hread⟩
    have hmem := hsuffix.subset List.mem_cons_self
    have hresolves : (Event.resolved id (some i) crossed).resolves id := decide_eq_true rfl
    have heq := hplaced.resolved_eq horderly hmem hresolves
    obtain rfl : crossed = s.tracker.crosses id := (Event.resolved.inj heq).2.2
    exact ⟨id, hcounted.lt_size (.inr ⟨_, hmem, hresolves⟩), before, hsuffix, hread⟩
  · rintro ⟨id, -, before, hread⟩
    exact ⟨id, _, before, hread⟩

end Stage

namespace Operation

open Stage

/-- In every run that comes to its end, each reference is resolved once: to the innermost frame
around it that binds its name, or as a global where none does, and with the right opinion on whether
the way there leaves a function. A binding is used in the end if a reference was resolved to it
whose use, as it was last set before, was not only to write. -/
theorem resolution_is_lexical {known : KnownGlobals} {rules : Rules} {module strict : Bool}
    {sink : Sink} {operations : List Operation} {s : Session}
    (hopen : keepOpen (if module then 2 else 1) operations)
    (hrun : (performAll operations >>= fun _ => Action.finish).run.run
      ⟨.start known rules module strict, sink⟩ = (.ok (), s)) :
    ∃ log, ((logAll operations >>= fun _ => Logged.finish).run []).run.run
        ⟨.start known rules module strict, sink⟩ = (.ok ((), log), s) ∧
      (∀ id < s.tracker.references.size, log.filter (·.resolves id) =
        [.resolved id (s.tracker.resolver? id) (s.tracker.crosses id)]) ∧
      ∀ i, ∀ b ∈ (s.tracker.frame i).bindings, b.used ↔ ∃ id < s.tracker.references.size,
        ∃ before, .resolved id (some i) (s.tracker.crosses id) :: before <:+ log ∧
          (s.tracker.reference id).name = b.name ∧ lastAccess? id before ≠ some .write := by
  rw [Action.run_bind] at hrun
  rcases hmiddle : (performAll operations).run.run ⟨.start known rules module strict, sink⟩ with
    ⟨reason | ⟨⟩, s'⟩ <;> rw [hmiddle] at hrun
  · cases hrun
  obtain ⟨log', hlog', hsteps', -⟩ := exists_log_of_performAll hopen hmiddle
  obtain ⟨log, hlog, hsteps, hstack⟩ := Logged.exists_log_of_finish hrun log'
  have hstart := Orderly.start known rules strict
  have hall := hsteps'.trans hsteps
  have hcount := Counted.start known rules strict
  have horderly := hstart.steps hall
  have hcounted := hcount.steps hstart hall
  have hplaced := (Placed.start known rules strict).steps hstart hcount hall
  have htold := (Told.start known rules strict).steps hstart hcount hall
  refine ⟨log, ?_, ?_, fun i b => htold.used_iff horderly hcounted hplaced⟩
  · rw [StateT.run_bind, Action.run_bind, hlog']
    exact hlog
  · intro id hid
    apply hplaced.filter_resolves horderly
    -- No frame is left open for a reference to wait in.
    have hresolved := (hcounted.waits_or_resolved horderly hid).resolve_left ?_
    · exact hresolved.1
    · rintro ⟨-, i, hi, -⟩
      exact List.not_mem_nil (hstack ▸ hi)

/-- The variable that is read before it is declared is found, and that of the program is found from
inside the function; only the former is used. -/
theorem lexical_for_lateDeclaration :
    ∃ (s : Session) (log : List Event),
      (performAll lateDeclaration >>= fun _ => Action.finish).run.run
        ⟨.start {} (.ofOptions {}) false false, .start 50 3 (.ofList [])⟩ = (.ok (), s) ∧
      log.filter (·.resolves 0) = [.resolved 0 (some 1) false] ∧
      log.filter (·.resolves 1) = [.resolved 1 (some 0) true] ∧
      (s.tracker.frame 0).bindings.map (·.used) = [false] ∧
      (s.tracker.frame 1).bindings.map (·.used) = [true] := by
  have hrun : (performAll lateDeclaration >>= fun _ => Action.finish).run.run
      ⟨.start {} (.ofOptions {}) false false, .start 50 3 (.ofList [])⟩ = (.ok (), _) :=
    Prod.ext (by decide +kernel) rfl
  obtain ⟨log, -, hresolved, -⟩ := resolution_is_lexical (by decide) hrun
  refine ⟨_, log, hrun, ?_, ?_, by decide +kernel, by decide +kernel⟩
  · exact (hresolved 0 (by decide +kernel)).trans (by decide +kernel)
  · exact (hresolved 1 (by decide +kernel)).trans (by decide +kernel)

end Operation

end ScriptLint.Scope

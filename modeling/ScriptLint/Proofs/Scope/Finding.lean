import ScriptLint.Proofs.Scope.Fault
import ScriptLint.Proofs.Scope.Lexical

/-! # Faults are found

Whether there is ground for a remark on a reference is judged when it is resolved. But for the
access of the reference, which the log tells, nothing that the judgement depends on changes
afterwards, so the final frames tell it as well. In a run that comes to its end, what is told of a
fault is where the final frames show one.
-/

namespace ScriptLint.Scope

/-! ## What is settled -/

namespace Tracker

/-- Frames that are left keep their declarations and references keep their positions, besides what
else is past and stays. -/
structure Follows (t t' : Tracker) : Prop extends t.Keeps t' where
  declaration? : ∀ i < t.frames.size, i ∉ t.stack → ∀ name,
    (t'.frame i).declaration? name = (t.frame i).declaration? name
  position : ∀ id < t.references.size, (t'.reference id).position = (t.reference id).position

/-- A reference that is resolved to a binding of a frame is at fault, and stands at the place. -/
def Faulty (t : Tracker) (fault : Fault) (id f : Nat) (crossed : Bool) (place : Nat × Nat) : Prop :=
  ∃ b, (t.frame f).find? (t.reference id).name = some b ∧
    fault.Holds t b { t.reference id with crossedFunction := crossed } ∧
    (t.reference id).position.place = place

/-- There is ground for a remark on a reference that is resolved to a binding of a frame with the
access, and it stands at the place. -/
def Deserves (t : Tracker) (ground : Ground) (id f : Nat) (crossed : Bool) (access : Access)
    (place : Nat × Nat) : Prop :=
  ∃ b, (t.frame f).find? (t.reference id).name = some b ∧
    ground.Holds t b { t.reference id with crossedFunction := crossed, access } ∧
    (t.reference id).position.place = place

variable {t t' : Tracker}

theorem deserves_ground_iff (fault : Fault) {id f : Nat} {crossed : Bool} {access : Access}
    {place : Nat × Nat} :
    t.Deserves fault.ground id f crossed access place ↔ t.Faulty fault id f crossed place := by
  refine exists_congr fun b => and_congr_right fun _ => and_congr_left' ?_
  exact fault.settled rfl rfl rfl rfl rfl

theorem Follows.deserves_iff (hfollows : t.Follows t') (ground : Ground) {id f : Nat}
    {crossed : Bool} (hid : id < t.references.size)
    (horigin : (t.reference id).origin < t.frames.size)
    (hsettled : t.Settled id (some f) crossed) (access : Access) (place : Nat × Nat) :
    t'.Deserves ground id f crossed access place ↔ t.Deserves ground id f crossed access place := by
  obtain ⟨hreached, hleft, -⟩ := hsettled
  have hdeclared := hfollows.declaration? f (hreached.lt_size horigin) hleft (t.reference id).name
  obtain ⟨hname, horigin'⟩ := hfollows.reference id hid
  have hposition := hfollows.position id hid
  have hpath := hfollows.path_eq horigin
  have hholds {b b' : Binding} (h : b'.declaration = b.declaration) :
      ground.Holds t' b' { t'.reference id with crossedFunction := crossed, access } ↔
        ground.Holds t b { t.reference id with crossedFunction := crossed, access } :=
    ground.settled hpath h hposition horigin' rfl rfl
  unfold Deserves
  rw [hname, hposition]
  unfold Frame.declaration? at hdeclared
  cases hfind : (t.frame f).find? (t.reference id).name <;>
    cases hfind' : (t'.frame f).find? (t.reference id).name <;>
    simp only [hfind, hfind', Option.map_some, Option.map_none, Option.some.injEq,
      reduceCtorEq] at hdeclared
  next => simp
  next b b' => simp [hholds hdeclared]

end Tracker

namespace Stage

open Tracker

/-- Every step keeps what is settled. -/
theorem Step.follows {s s' : Stage} (hs : s.Orderly) (hstep : Step s s') :
    s.tracker.Follows s'.tracker := by
  refine ⟨hstep.keeps hs, ?_, ?_⟩
  · cases hstep with
    | grow hgrows =>
        intro i _ hleft name
        rw [hgrows.frozen i hleft]
    | enter hstack hparent hnew =>
        intro i hi _ name
        rw [frame_push, if_neg (Nat.ne_of_lt hi)]
    | @record t log hstack name position access =>
        intro i _ _ name'
        exact field_addReference (·.declaration? name') (fun _ _ => rfl) t name position access i
    | setAccess id access => exact fun _ _ _ _ => rfl
    | @leave t log f stack ids hstack hids =>
        intro i _ _ name
        exact field_beginClosing (·.declaration? name) (fun _ _ _ => rfl) t f stack i
    | @found t log f id ids b hfind =>
        intro i _ _ name
        have hrests : (t.frame f).Rests ((t.frame f).modify b.name (·.touch (t.reference id))) :=
          .modify _ _ fun _ => rfl
        exact field_modifyFrame (·.declaration? name) (hrests.declaration? name) i
    | @passed t log f id parent ids hfind hparent =>
        intro i _ _ name
        exact field_passOn (·.declaration? name) (fun _ _ => rfl) t f id parent i
    | implied hfind hroot => exact fun _ _ _ _ => rfl
    | close =>
        intro i _ _ name
        exact field_modifyFrame (·.declaration? name) rfl i
  · cases hstep with
    | grow hgrows =>
        intro id _
        rw [Tracker.reference, Tracker.reference, hgrows.references]
    | record hstack name position access =>
        intro id hid
        rw [reference_addReference, if_neg (Nat.ne_of_lt hid)]
    | setAccess id access =>
        intro id' _
        unfold Tracker.setAccess
        rw [reference_modifyReference]
        split
        next h => rw [h.1]
        next => rfl
    | passed hfind hparent =>
        intro id' _
        rw [reference_passOn]
        split
        next h => rw [h.1]
        next => rfl
    | enter | leave | found | implied | close => exact fun _ _ => rfl

/-- No step takes anything back from the log. -/
theorem Step.log_suffix {s s' : Stage} (hstep : Step s s') : s.log <:+ s'.log := by
  cases hstep with
  | grow | enter | leave | passed | close => exact List.suffix_rfl
  | record | setAccess | found | implied => exact List.suffix_cons _ _

/-- The log tells that there was ground for a remark on a reference at the place when it was
resolved, with its access as it was last set before. -/
def Judged (s : Stage) (ground : Ground) (place : Nat × Nat) : Prop :=
  ∃ id f crossed before access, .resolved id (some f) crossed :: before <:+ s.log ∧
    lastAccess? id before = some access ∧ s.tracker.Deserves ground id f crossed access place

/-- What every run keeps of the frames and the references. -/
structure Sound (s : Stage) : Prop where
  orderly : s.Orderly
  counted : s.Counted
  placed : s.Placed
  told : s.Told
  /-- The access of a reference is known when it is resolved. -/
  known : ∀ id frame? crossed before, .resolved id frame? crossed :: before <:+ s.log →
    ∃ access, lastAccess? id before = some access

namespace Sound

variable {s s' : Stage} {ground : Ground}

theorem step (hs : s.Sound) (hstep : Step s s') : s'.Sound := by
  refine ⟨hs.orderly.step hstep, hs.counted.step hs.orderly hstep,
    hs.placed.step hs.orderly hs.counted hstep, hs.told.step hs.orderly hs.counted hstep, ?_⟩
  intro id frame? crossed before hsuffix
  cases hstep with
  | grow | enter | leave | passed | close => exact hs.known id frame? crossed before hsuffix
  | record | setAccess =>
      refine hs.known id frame? crossed before ((List.suffix_cons_iff.mp hsuffix).resolve_left ?_)
      simp
  | found | implied =>
      rcases List.suffix_cons_iff.mp hsuffix with heq | hsuffix
      · cases heq
        exact ⟨_, hs.told.access id (hs.counted.lt_size (.inl List.mem_cons_self))⟩
      · exact hs.known id frame? crossed before hsuffix

theorem steps (hs : s.Sound) (hsteps : Steps s s') : s'.Sound := by
  induction hsteps with
  | refl => exact hs
  | tail _ hstep ih => exact ih.step hstep

theorem start (known : KnownGlobals) (rules : Rules) (module strict : Bool) :
    Sound ⟨.start known rules module strict, [], none⟩ := by
  have hscript : Sound ⟨.start known rules false strict, [], none⟩ :=
    ⟨.start known rules strict, .start known rules strict, .start known rules strict,
      .start known rules strict, by simp⟩
  -- A module begins as a script whose first step is to enter the frame of the module.
  cases module with
  | false => exact hscript
  | true => exact hscript.step (.enter (by simp [Tracker.start]) rfl ⟨rfl, rfl, rfl, rfl⟩)

/-- What was judged stays judged in the same way. -/
theorem deserves_iff (hs : s.Sound) (hsteps : Steps s s') {id f : Nat} {crossed : Bool}
    (hmem : .resolved id (some f) crossed ∈ s.log) (access : Access) (place : Nat × Nat) :
    s'.tracker.Deserves ground id f crossed access place ↔
      s.tracker.Deserves ground id f crossed access place := by
  induction hsteps using Relation.ReflTransGen.head_induction_on with
  | refl => rfl
  | @head s m hstep _ ih =>
      have hid := hs.counted.lt_size (.inr ⟨_, hmem, decide_eq_true rfl⟩)
      have hfirst := (hstep.follows hs.orderly).deserves_iff ground hid
        (hs.orderly.origin id hid) (hs.placed.settled id (some f) crossed hmem) access place
      exact (ih (hs.step hstep) (hstep.log_suffix.subset hmem)).trans hfirst

/-- Steps that resolve nothing to a binding judge nothing. -/
theorem judged_iff (hs : s.Sound) (hsteps : Steps s s')
    (hlog : ∀ id f crossed before, .resolved id (some f) crossed :: before <:+ s'.log ↔
      .resolved id (some f) crossed :: before <:+ s.log) (place : Nat × Nat) :
    s'.Judged ground place ↔ s.Judged ground place := by
  unfold Judged
  simp only [hlog]
  refine exists_congr fun id => exists_congr fun f => exists_congr fun crossed => ?_
  refine exists_congr fun before => exists_congr fun access => ?_
  refine and_congr_right fun hsuffix => and_congr_right fun _ => ?_
  exact hs.deserves_iff hsteps (hsuffix.subset List.mem_cons_self) access place

variable {t : Tracker} {log : List Event}

/-- A reference that is resolved to a binding adds its place if there is ground for a remark. -/
theorem judged_found {f id : Nat} {ids : List Nat} {b : Binding}
    (hs : Sound ⟨t, log, some (f, id :: ids)⟩)
    (hfind : (t.frame f).find? (t.reference id).name = some b) (place : Nat × Nat) :
    Judged ⟨t.modifyFrame f (·.modify b.name (·.touch (t.reference id))),
      .resolved id (some f) (t.reference id).crossedFunction :: log, some (f, ids)⟩ ground place ↔
    Judged ⟨t, log, some (f, id :: ids)⟩ ground place ∨
      ground.Holds t b (t.reference id) ∧ (t.reference id).position.place = place := by
  have hstep : Step ⟨t, log, some (f, id :: ids)⟩ _ := .found hfind
  have hwaits : WaitsIn ⟨t, log, some (f, id :: ids)⟩ f id :=
    .inr ⟨id :: ids, rfl, List.mem_cons_self⟩
  have hid := hs.counted.lt_size (.inl hwaits.mem_waiting)
  have haccess : lastAccess? id log = some (t.reference id).access := hs.told.access id hid
  have hsettled : t.Settled id (some f) (t.reference id).crossedFunction :=
    ⟨hs.placed.reached f id hwaits, hs.orderly.closing_not_mem, by simp [Frame.binds, hfind]⟩
  have hnew := (hstep.follows hs.orderly).deserves_iff ground hid (hs.orderly.origin id hid)
    hsettled (t.reference id).access place
  have hjudged : t.Deserves ground id f (t.reference id).crossedFunction (t.reference id).access
      place ↔ ground.Holds t b (t.reference id) ∧ (t.reference id).position.place = place := by
    simp [Tracker.Deserves, hfind]
  unfold Judged
  simp only [List.suffix_cons_iff]
  constructor
  · rintro ⟨id', f', crossed, before, access, heq | hsuffix, hlast, hdeserves⟩
    · cases heq
      obtain rfl := Option.some.inj (haccess.symm.trans hlast)
      exact .inr (hjudged.mp (hnew.mp hdeserves))
    · refine .inl ⟨id', f', crossed, before, access, hsuffix, hlast, ?_⟩
      exact (hs.deserves_iff (.single hstep) (hsuffix.subset List.mem_cons_self) _ _).mp hdeserves
  · rintro (⟨id', f', crossed, before, access, hsuffix, hlast, hdeserves⟩ | hholds)
    · refine ⟨id', f', crossed, before, access, .inr hsuffix, hlast, ?_⟩
      exact (hs.deserves_iff (.single hstep) (hsuffix.subset List.mem_cons_self) _ _).mpr hdeserves
    · exact ⟨id, f, _, log, _, .inl rfl, haccess, hnew.mpr (hjudged.mpr hholds)⟩

end Sound

/-- The sink tells of a ground what the log does, and the rules ask for it. -/
structure Reported (ground : Ground) (sink : Sink) (s : Stage) : Prop extends s.Sound where
  counts : ground.Counts s.tracker.rules
  shows : sink.isHalted = false → sink.Shows ground.code
  tells : sink.isHalted = false → ∀ place, sink.Tells ground.code place ↔ s.Judged ground place

namespace Reported

variable {ground : Ground} {sink sink' : Sink} {s s' : Stage}

/-- What is judged to be remarked on has to be told. -/
theorem of_gains (hs : Reported ground sink s) (hsound : s'.Sound)
    (hcounts : ground.Counts s'.tracker.rules) {New : Nat × Nat → Prop}
    (hgains : sink.Gains ground.code New sink')
    (hjudged : ∀ place, s'.Judged ground place ↔ s.Judged ground place ∨ New place) :
    Reported ground sink' s' := by
  have hopen (hsink' : sink'.isHalted = false) : sink.isHalted = false := by
    refine Bool.eq_false_iff.mpr fun hsink => ?_
    simp [hgains.halted hsink] at hsink'
  refine ⟨hsound, hcounts, ?_, ?_⟩
  · intro hsink'
    exact hgains.shows hsink' (hs.shows (hopen hsink'))
  · intro hsink' place
    rw [hgains.tells hsink' (hs.shows (hopen hsink')), hs.tells (hopen hsink'), hjudged]

/-- Where nothing is resolved to a binding, nothing is to be told. -/
theorem of_spares (hs : Reported ground sink s) (hsteps : Steps s s')
    (hlog : ∀ id f crossed before, .resolved id (some f) crossed :: before <:+ s'.log ↔
      .resolved id (some f) crossed :: before <:+ s.log)
    (hcounts : ground.Counts s'.tracker.rules) (hspares : sink.Spares ground.code sink') :
    Reported ground sink' s' :=
  hs.of_gains (hs.toSound.steps hsteps) hcounts hspares fun place => by
    rw [hs.toSound.judged_iff hsteps hlog, or_false]

end Reported

end Stage

/-! ## Logged runs -/

namespace Logged

open Stage

variable {α β : Type} {s : Session} {log : List Event}

/-- Whenever the logged action succeeds, its answer, the session and the log after it satisfy
`post`. -/
def Leads (logged : Logged α) (s : Session) (log : List Event)
    (post : α → Session → List Event → Prop) : Prop :=
  (logged.run log).Leads s fun answer s' => post answer.1 s' answer.2

namespace Leads

variable {post : α → Session → List Event → Prop}

theorem mono {logged : Logged α} {post' : α → Session → List Event → Prop}
    (hlogged : logged.Leads s log post') (himp : ∀ a s' log', post' a s' log' → post a s' log') :
    logged.Leads s log post :=
  Action.Leads.mono hlogged fun answer s' => himp answer.1 s' answer.2

theorem of_ensures {logged : Logged α} {post : α → Tracker → List Event → Prop}
    (hlogged : logged.Ensures s.tracker log post) :
    logged.Leads s log fun a s' log' => post a s'.tracker log' :=
  Action.Leads.of_ensures hlogged

theorem and {logged : Logged α} {post' : α → Session → List Event → Prop}
    (hlogged : logged.Leads s log post) (hlogged' : logged.Leads s log post') :
    logged.Leads s log fun a s' log' => post a s' log' ∧ post' a s' log' :=
  Action.Leads.and hlogged hlogged'

theorem pure {a : α} (hpost : post a s log) : Leads (Pure.pure a) s log post :=
  Action.Leads.pure hpost

theorem bind {first : Logged α} {next : α → Logged β} {post : β → Session → List Event → Prop}
    (hfirst : first.Leads s log fun a s' log' => (next a).Leads s' log' post) :
    (first >>= next).Leads s log post :=
  Action.Leads.bind hfirst

theorem lift {action : Action α} (haction : action.Leads s fun a s' => post a s' log) :
    Leads (liftM action) s log post :=
  Action.Leads.bind (haction.mono fun _ _ hpost => .pure hpost)

theorem note {event : Event} {post : Unit → Session → List Event → Prop}
    (hpost : post () s (event :: log)) : (note event).Leads s log post :=
  Action.Leads.pure hpost

/-- What each round of a loop takes from the items that are left to those after it holds in the end
of none. -/
theorem forM (inv : List α → Session → List Event → Prop) {items : List α}
    {step : α → Logged PUnit} (hstart : inv items s log)
    (hstep : ∀ a rest s log, inv (a :: rest) s log →
      (step a).Leads s log fun _ s' log' => inv rest s' log') :
    (items.forM step).Leads s log fun _ s' log' => inv [] s' log' := by
  induction items generalizing s log with
  | nil => exact .pure hstart
  | cons a rest ih =>
      exact .bind ((hstep a rest s log hstart).mono fun _ _ _ hrest => ih hrest)

end Leads

variable {ground : Ground}

/-- The session and the log tell the same of a ground, while a frame is closing or not. -/
abbrev Tells (ground : Ground) (s : Session) (log : List Event)
    (closing? : Option (Nat × List Nat)) : Prop :=
  Reported ground s.sink ⟨s.tracker, log, closing?⟩

theorem resolve_tells (f id : Nat) (ids : List Nat)
    (hs : Tells ground s log (some (f, id :: ids))) :
    (resolve f id).Leads s log fun _ s' log' => Tells ground s' log' (some (f, ids)) := by
  refine .bind (.lift (.tracker ?_))
  dsimp only
  split
  next b hfind =>
    refine .bind (.note (.lift ((ground.resolveTo_leads hs.counts f b _).mono ?_)))
    rintro _ ⟨_, sink⟩ ⟨rfl, hgains⟩
    exact hs.of_gains (hs.toSound.step (.found hfind)) hs.counts hgains
      (hs.toSound.judged_found hfind)
  next parent hfind hparent =>
    have hpassed : Tells ground { s with tracker := s.tracker.passOn f id parent } log
        (some (f, ids)) :=
      hs.of_spares (.single (.passed hfind hparent)) (fun _ _ _ _ => .rfl)
        ((Tracker.Rests.passOn s.tracker f id parent).rules ▸ hs.counts) (.refl _)
    unfold Tracker.passOn at hpassed
    split
    next hkind =>
      rw [if_pos hkind] at hpassed
      exact .bind (.lift (.update (.lift (.update hpassed))))
    next hkind =>
      rw [if_neg hkind] at hpassed
      exact .lift (.update hpassed)
  next hfind hroot =>
    refine .bind (.note (.lift ?_))
    refine (Action.Leads.and (.of_ensures ((Action.resolveGlobal_grows _).and
      (Action.resolveGlobal_rests _))) (.spares ground.elsewhere.2.1)).mono fun _ s' h => ?_
    obtain ⟨⟨hgrows, hrests⟩, hspares⟩ := h
    refine hs.of_spares (.tail (.single (.implied hfind hroot)) (.grow hgrows)) ?_
      (hrests.rules ▸ hs.counts) hspares
    simp [List.suffix_cons_iff]

/-- Closing a frame tells what there is ground for in its references. -/
theorem exitScope_tells (hs : Tells ground s log none) :
    exitScope.Leads s log fun _ s' log' => Tells ground s' log' none := by
  refine .bind (.lift (.tracker ?_))
  split
  next => exact .pure hs
  next f stack hstack =>
    have hids := s.tracker.mergeSort_pending_perm f stack
    have hleft := hs.of_spares (.single (.leave hstack hids)) (fun _ _ _ _ => .rfl) hs.counts
      (.refl _)
    refine .bind (.lift (.update (.bind ?_)))
    refine .bind (.lift (.tracker (.bind (.lift (.update ?_)))))
    refine (Leads.forM (fun ids s' log' => Tells ground s' log' (some (f, ids))) hleft
      fun id ids s' log' h => resolve_tells f id ids h).mono fun _ s' log' h => ?_
    refine .bind (.lift (.update (.lift ?_)))
    refine (Action.Leads.and (.of_ensures ((Action.reportUnused_grows f).and
      (Action.reportUnused_rests f))) (.spares ground.elsewhere.2.2)).mono fun _ s'' h' => ?_
    obtain ⟨⟨hgrows, hrests⟩, hspares⟩ := h'
    exact h.of_spares (.tail (.single .close) (.grow hgrows)) (fun _ _ _ _ => .rfl)
      (hrests.rules ▸ h.counts) hspares

/-- Closing all frames tells all that there is ground for. -/
theorem finish_tells (hs : Tells ground s log none) :
    finish.Leads s log fun _ s' log' => Tells ground s' log' none :=
  .bind (.lift (.tracker (.forM (fun _ s' log' => Tells ground s' log' none) hs
    fun _ _ _ _ h => exitScope_tells h)))

/-- What every run of the action ends with, every run of the logged action does. -/
theorem Erases.leads {logged : Logged α} {action : Action α} (hlogged : logged.Erases action)
    {post : α → Session → Prop} (haction : action.Leads s post) :
    logged.Leads s log fun a s' _ => post a s' := by
  rintro ⟨a, log'⟩ s' hrun
  refine haction a s' ?_
  rw [← hlogged log, map_eq_pure_bind, Action.run_bind, hrun]
  rfl

end Logged

namespace Operation

open Stage Logged

variable {s : Session} {log : List Event} {ground : Ground}

/-- The operation keeps to the code: it asks for remarks, and it neither drops nor adds any. -/
def Respects (fault : Fault) : Operation → Prop
  | setRules rules => fault.Counts rules
  | changeSink change => ∀ a : Sink, a.Spares fault.code (change a)
  | _ => True

/-- The operation keeps to the code of a ground. -/
def Heeds (ground : Ground) : Operation → Prop
  | setRules rules => ground.Counts rules
  | changeSink change => ∀ a : Sink, a.Spares ground.code (change a)
  | _ => True

theorem Respects.heeds {fault : Fault} {operation : Operation}
    (hrespects : operation.Respects fault) : operation.Heeds fault.ground := by
  cases operation with
  | setRules | changeSink => exact hrespects
  | _ => trivial

theorem perform_spares {operation : Operation} (hheeds : operation.Heeds ground)
    (hexit : operation ≠ .exitScope) (hcounts : ground.Counts s.tracker.rules) :
    operation.perform.Leads s fun _ s' =>
      s.sink.Spares ground.code s'.sink ∧ ground.Counts s'.tracker.rules := by
  have hdeclare (action : Action Unit) [action.Stepwise] [hrules : Action.KeepsRules action]
      [Action.ReportsOnly Action.ReportsOnly.declarationCodes action] : action.Leads s fun _ s' =>
        s.sink.Spares ground.code s'.sink ∧ ground.Counts s'.tracker.rules := by
    refine .and (.spares ground.elsewhere.1) fun a s' hrun => ?_
    have hsame := hrules.rules s
    rw [hrun] at hsame
    exact hsame ▸ hcounts
  cases operation with
  | exitScope => exact absurd rfl hexit
  | declare name kind position => exact hdeclare (Action.declare name kind position)
  | declareBlockFunction name position => exact hdeclare (Action.declareBlockFunction name position)
  | declareParameter name position distinct =>
      exact hdeclare (Action.declareParameter name position distinct)
  | setRules rules => exact .update ⟨.refl _, hheeds⟩
  | changeSink change =>
      rintro _ _ ⟨⟩
      exact ⟨hheeds s.sink, hcounts⟩
  | markInitialized name offset =>
      refine .update ⟨.refl _, ?_⟩
      unfold Tracker.markInitialized
      split <;> exact hcounts
  | markExported name =>
      refine .update ⟨.refl _, ?_⟩
      unfold Tracker.markExported
      split <;> exact hcounts
  | _ => exact .update ⟨.refl _, hcounts⟩

/-- Only closing a frame resolves references. -/
theorem log_resolved {operation : Operation} (hexit : operation ≠ .exitScope) {t : Tracker} :
    operation.log.Ensures t log fun _ _ log' => ∀ id f crossed before,
      .resolved id (some f) crossed :: before <:+ log' ↔
        .resolved id (some f) crossed :: before <:+ log := by
  have hlift (action : Action Unit) : (liftM action : Logged Unit).Ensures t log fun _ _ log' =>
      ∀ id f crossed before, .resolved id (some f) crossed :: before <:+ log' ↔
        .resolved id (some f) crossed :: before <:+ log :=
    .lift fun _ _ _ _ _ _ _ _ => .rfl
  cases operation with
  | exitScope => exact absurd rfl hexit
  | addReference name position access =>
      exact .bind (.lift (.tracker (.bind (.note (.lift (.update (by
        simp [List.suffix_cons_iff])))))))
  | setAccess id access => exact .bind (.note (.lift (.update (by simp [List.suffix_cons_iff]))))
  | _ => exact hlift _

theorem log_tells {operation : Operation} (hheeds : operation.Heeds ground)
    (hs : Tells ground s log none) (hstack : s.tracker.stack ≠ []) :
    operation.log.Leads s log fun _ s' log' => Tells ground s' log' none := by
  by_cases hexit : operation = .exitScope
  · rw [hexit]
    exact exitScope_tells hs
  · refine (Leads.and (.of_ensures (operation.log_steps hstack)) (.and (.of_ensures
      (log_resolved hexit)) (operation.log_erases.leads
        (perform_spares hheeds hexit hs.counts)))).mono ?_
    rintro _ s' log' ⟨hsteps, hlog, hspares, hcounts⟩
    exact hs.of_spares hsteps.1 hlog hcounts hspares

theorem logAll_tells {operations : List Operation}
    (hheeds : ∀ operation ∈ operations, operation.Heeds ground)
    (hopen : keepOpen s.tracker.stack.length operations) (hstack : s.tracker.stack ≠ [])
    (hs : Tells ground s log none) :
    (logAll operations).Leads s log fun _ s' log' => Tells ground s' log' none := by
  refine (Leads.forM (fun operations s' log' => Tells ground s' log' none ∧
    s'.tracker.stack ≠ [] ∧ keepOpen s'.tracker.stack.length operations ∧
      ∀ operation ∈ operations, operation.Heeds ground) ⟨hs, hstack, hopen, hheeds⟩ ?_).mono
    fun _ _ _ h => h.1
  rintro operation rest s' log' ⟨hs', hstack', hopen', hheeds'⟩
  obtain ⟨hpos, hrest⟩ := (Bool.and_eq_true _ _).mp hopen'
  refine (Leads.and (log_tells (hheeds' _ List.mem_cons_self) hs' hstack')
    (.of_ensures (operation.log_steps hstack'))).mono fun _ s'' log'' h => ?_
  obtain ⟨htells, -, hlength⟩ := h
  refine ⟨htells, ?_, hlength ▸ hrest, fun o ho => hheeds' o (List.mem_cons_of_mem _ ho)⟩
  exact List.ne_nil_of_length_pos (hlength ▸ of_decide_eq_true hpos)

end Operation

/-! ## Finished runs -/

theorem Tracker.length_start_stack (known : KnownGlobals) (rules : Rules) (module strict : Bool) :
    (Tracker.start known rules module strict).stack.length = if module then 2 else 1 := by
  cases module <;> rfl

namespace Stage.Sound

variable {t : Tracker} {log : List Event} {ground : Ground} {fault : Fault}

/-- In the end each reference that a frame binds was resolved to it, with some access. -/
theorem exists_resolved (hs : Sound ⟨t, log, none⟩) (hstack : t.stack = []) {id f : Nat}
    (hid : id < t.references.size) (hresolver : t.resolver? id = some f) :
    ∃ before access, .resolved id (some f) (t.crosses id) :: before <:+ log ∧
      lastAccess? id before = some access := by
  -- No frame is left open for the reference to wait in.
  have honce : t.Resolved log id := by
    refine (hs.counted.waits_or_resolved hs.orderly hid).resolve_left ?_
    rintro ⟨-, i, hi, -⟩
    exact List.not_mem_nil (hstack ▸ hi)
  obtain ⟨event, hmem, hresolves⟩ := List.countP_pos_iff.mp (honce.1 ▸ Nat.one_pos)
  rw [hs.placed.resolved_eq hs.orderly hmem hresolves, hresolver] at hmem
  obtain ⟨after, before, hsplit⟩ := List.append_of_mem hmem
  have hsuffix : .resolved id (some f) (t.crosses id) :: before <:+ log := ⟨after, hsplit.symm⟩
  obtain ⟨access, haccess⟩ := hs.known _ _ _ _ hsuffix
  exact ⟨before, access, hsuffix, haccess⟩

/-- In the end the log tells of references that the frames resolve, and where they do. -/
theorem judged_iff_resolver (hs : Sound ⟨t, log, none⟩) (place : Nat × Nat) :
    Judged ⟨t, log, none⟩ ground place ↔
      ∃ id < t.references.size, ∃ f before access, t.resolver? id = some f ∧
        .resolved id (some f) (t.crosses id) :: before <:+ log ∧
        lastAccess? id before = some access ∧
        t.Deserves ground id f (t.crosses id) access place := by
  constructor
  · rintro ⟨id, f, crossed, before, access, hsuffix, haccess, hdeserves⟩
    have hmem := hsuffix.subset List.mem_cons_self
    have hresolves : (Event.resolved id (some f) crossed).resolves id := decide_eq_true rfl
    have heq := hs.placed.resolved_eq hs.orderly hmem hresolves
    obtain ⟨-, hresolver, rfl⟩ := Event.resolved.inj heq
    exact ⟨id, hs.counted.lt_size (.inr ⟨_, hmem, hresolves⟩), f, before, access, hresolver.symm,
      hsuffix, haccess, hdeserves⟩
  · rintro ⟨id, -, f, before, access, -, hsuffix, haccess, hdeserves⟩
    exact ⟨id, f, _, before, access, hsuffix, haccess, hdeserves⟩

theorem judged_fault_iff (hs : Sound ⟨t, log, none⟩) (hstack : t.stack = []) (place : Nat × Nat) :
    Judged ⟨t, log, none⟩ fault.ground place ↔
      ∃ id < t.references.size, ∃ f, t.resolver? id = some f ∧
        t.Faulty fault id f (t.crosses id) place := by
  refine (hs.judged_iff_resolver place).trans ?_
  refine exists_congr fun id => and_congr_right fun hid => exists_congr fun f => ?_
  constructor
  · rintro ⟨before, access, hresolver, -, -, hdeserves⟩
    exact ⟨hresolver, (Tracker.deserves_ground_iff fault).mp hdeserves⟩
  · rintro ⟨hresolver, hfaulty⟩
    obtain ⟨before, access, hsuffix, haccess⟩ := hs.exists_resolved hstack hid hresolver
    exact ⟨before, access, hresolver, hsuffix, haccess,
      (Tracker.deserves_ground_iff fault).mpr hfaulty⟩

end Stage.Sound

section

open Operation

variable {known : KnownGlobals} {rules : Rules} {module strict : Bool} {limit totalLines : Nat}
  {disabled : Text.NameSet} {operations : List Operation} {s : Session} {log : List Event}

/-- In a run that comes to its end, with nothing dropped, what is told of a ground is what the log
tells. -/
theorem Ground.reported (ground : Ground) (hopen : keepOpen (if module then 2 else 1) operations)
    (hcounts : ground.Counts rules) (henabled : disabled.contains ground.code = false)
    (hheeds : ∀ operation ∈ operations, operation.Heeds ground)
    (hlog : ((logAll operations >>= fun _ => Logged.finish).run []).run.run
      ⟨.start known rules module strict, .start limit totalLines disabled⟩ = (.ok ((), log), s)) :
    Logged.Tells ground s log none ∧ s.tracker.stack = [] := by
  have hlength := Tracker.length_start_stack known rules module strict
  have hstart : Logged.Tells ground
      ⟨.start known rules module strict, .start limit totalLines disabled⟩ [] none := by
    refine ⟨.start known rules module strict, ?_,
      fun _ => Sink.shows_start henabled limit totalLines, fun _ place => ?_⟩
    · cases module <;> exact hcounts
    · refine iff_of_false ?_ ?_
      · rintro ⟨d, hmem, -⟩
        exact absurd hmem (Array.not_mem_empty d)
      · rintro ⟨id, f, crossed, before, access, hsuffix, -⟩
        exact List.not_mem_nil (hsuffix.subset List.mem_cons_self)
  have hstack : (Tracker.start known rules module strict).stack ≠ [] := by
    cases module <;> exact List.cons_ne_nil _ _
  have hleads : (logAll operations >>= fun _ => Logged.finish).Leads
      ⟨.start known rules module strict, .start limit totalLines disabled⟩ []
      fun _ s' log' => Logged.Tells ground s' log' none ∧ s'.tracker.stack = [] :=
    .bind ((logAll_tells hheeds (hlength ▸ hopen) hstack hstart).mono fun _ _ _ h =>
      .and (Logged.finish_tells h) ((Logged.Leads.of_ensures Logged.finish_steps).mono
        fun _ _ _ h' => h'.2))
  exact hleads _ s hlog

/-- In a run that comes to its end, with nothing dropped, a fault is told of the places where the
final frames show a reference that is at fault. -/
theorem Fault.told_iff (fault : Fault) (hopen : keepOpen (if module then 2 else 1) operations)
    (hcounts : fault.Counts rules) (henabled : disabled.contains fault.code = false)
    (hrespects : ∀ operation ∈ operations, operation.Respects fault)
    (hrun : (performAll operations >>= fun _ => Action.finish).run.run
      ⟨.start known rules module strict, .start limit totalLines disabled⟩ = (.ok (), s))
    (hlive : s.sink.isHalted = false) (place : Nat × Nat) :
    s.sink.Tells fault.code place ↔ ∃ id < s.tracker.references.size, ∃ f,
      s.tracker.resolver? id = some f ∧
        s.tracker.Faulty fault id f (s.tracker.crosses id) place := by
  obtain ⟨log, hlog⟩ :=
    ((logAll_erases operations).bind fun _ => .finish).exists_log hrun []
  obtain ⟨htells, hempty⟩ := fault.ground.reported hopen hcounts henabled
    (fun operation hmem => (hrespects operation hmem).heeds) hlog
  exact (htells.tells hlive place).trans (htells.toSound.judged_fault_iff hempty place)

end

end ScriptLint.Scope

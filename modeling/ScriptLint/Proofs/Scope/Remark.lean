import ScriptLint.Proofs.Scope.DeadZone

/-! # Remarks on uses

Of a reference that is resolved to a binding four remarks tell what is wrong with the use: one that
it stands in the dead zone, and three that it writes to what does not take it. In a run that comes
to its end each is made once or not at all, and the final frames tell which are made, with one
exception. A write is judged by the access that was set last before the reference was resolved, and
what is set afterwards comes too late.
-/

namespace ScriptLint.Scope

/-! ## What the log tells -/

/-- Of an event that comes once in a log it is determined when it came. -/
theorem cons_eq_of_suffix {events : List Event} {p : Event → Bool} (honce : events.countP p ≤ 1)
    {event event' : Event} {before before' : List Event} (hevent : p event) (hevent' : p event')
    (hsuffix : event :: before <:+ events) (hsuffix' : event' :: before' <:+ events) :
    event :: before = event' :: before' := by
  have hlater {event event' : Event} {before before' : List Event} (hevent : p event)
      (hevent' : p event') (hsuffix' : event' :: before' <:+ events)
      (hle : event :: before <:+ event' :: before') : event :: before = event' :: before' := by
    refine (List.suffix_cons_iff.mp hle).resolve_right fun hle => ?_
    have hpos := List.countP_pos_iff.mpr ⟨event, hle.subset List.mem_cons_self, hevent⟩
    have htwo := hsuffix'.sublist.countP_le (p := p)
    rw [List.countP_cons_of_pos hevent'] at htwo
    omega
  rcases List.suffix_or_suffix_of_suffix hsuffix hsuffix' with hle | hle
  · exact hlater hevent hevent' hsuffix' hle
  · exact (hlater hevent' hevent hsuffix hle).symm

/-- Where references stand at different places, what is told of a place is about the reference that
stands there. -/
theorem Ground.tells_iff_holds (ground : Ground) {s : Session} {log : List Event}
    (htells : Logged.Tells ground s log none) (hlive : s.sink.isHalted = false)
    (hplaces : ∀ id < s.tracker.references.size, ∀ id' < s.tracker.references.size,
      (s.tracker.reference id).position.place = (s.tracker.reference id').position.place → id = id')
    {id f : Nat} (hid : id < s.tracker.references.size)
    (hresolver : s.tracker.resolver? id = some f) {before : List Event} {access : Access}
    (hsuffix : .resolved id (some f) (s.tracker.crosses id) :: before <:+ log)
    (haccess : lastAccess? id before = some access) {b : Binding}
    (hfind : (s.tracker.frame f).find? (s.tracker.reference id).name = some b) :
    s.sink.Tells ground.code (s.tracker.reference id).position.place ↔
      ground.Holds s.tracker b
        { s.tracker.reference id with crossedFunction := s.tracker.crosses id, access } := by
  rw [htells.tells hlive, htells.toSound.judged_iff_resolver]
  constructor
  · rintro ⟨id', hid', f', before', access', -, hsuffix', haccess', b', hfind', hholds, hplace⟩
    obtain rfl := hplaces id' hid' id hid hplace
    have honce : log.countP (·.resolves id') ≤ 1 := by
      have hcounted := htells.counted id'
      rw [if_pos hid'] at hcounted
      dsimp only at hcounted
      omega
    have heq := cons_eq_of_suffix honce (by simp [Event.resolves]) (by simp [Event.resolves])
      hsuffix hsuffix'
    cases heq
    obtain rfl := Option.some.inj (haccess.symm.trans haccess')
    obtain rfl := Option.some.inj (hfind.symm.trans hfind')
    exact hholds
  · exact fun hholds => ⟨id, hid, f, before, access, hresolver, hsuffix, haccess, b, hfind, hholds,
      rfl⟩

/-! ## Runs -/

/-- The codes of the remarks on uses. -/
def useCodes : List String := ["E056", "E013", "W021", "W022"]

theorem Action.Stepwise.sound {α : Type} {action : Action α} (haction : action.Stepwise)
    {s : Session} (hs : s.sink.Sound) : (action.run.run s).2.sink.Sound :=
  haction.relates (R := fun a b => a.Sound → b.Sound) (fun _ => id) (fun hab hbc => hbc ∘ hab)
    (fun a code position arguments scope ha =>
      ha.step (Sink.Operation.run_effect (.report code position arguments scope) a)) s hs

namespace Operation

/-- The operation leaves the codes alone: whatever it does to the sink, it neither drops nor adds
remarks with them, and nothing is told twice. -/
def Leaves (codes : List String) : Operation → Prop
  | changeSink change => ∀ a : Sink,
      (∀ code ∈ codes, a.Spares code (change a)) ∧ (a.Sound → (change a).Sound)
  | _ => True

theorem Leaves.heeds {codes : List String} {operation : Operation} (hleaves : operation.Leaves codes)
    {ground : Ground} (hcode : ground.code ∈ codes) (hcounts : ∀ rules, ground.Counts rules) :
    operation.Heeds ground := by
  cases operation with
  | changeSink change => exact fun a => (hleaves a).1 ground.code hcode
  | setRules rules => exact hcounts rules
  | _ => trivial

theorem perform_sound {codes : List String} {operation : Operation}
    (hleaves : operation.Leaves codes) {s : Session} (hs : s.sink.Sound) :
    (operation.perform.run.run s).2.sink.Sound := by
  have hsound (action : Action Unit) [haction : action.Stepwise] :
      (action.run.run s).2.sink.Sound := haction.sound hs
  cases operation with
  | changeSink change => exact (hleaves s.sink).2 hs
  | exitScope => exact hsound Action.exitScope
  | declare name kind position => exact hsound (Action.declare name kind position)
  | declareBlockFunction name position => exact hsound (Action.declareBlockFunction name position)
  | declareParameter name position distinct =>
      exact hsound (Action.declareParameter name position distinct)
  | _ => exact hs

theorem performAll_sound {codes : List String} {operations : List Operation}
    (hleaves : ∀ operation ∈ operations, operation.Leaves codes) {s : Session}
    (hs : s.sink.Sound) :
    ((performAll operations >>= fun _ => Action.finish).run.run s).2.sink.Sound := by
  induction operations generalizing s with
  | nil => exact (inferInstance : Action.finish.Stepwise).sound hs
  | cons operation operations ih =>
      have hmiddle := perform_sound (hleaves operation List.mem_cons_self) hs
      have hperform : (performAll (operation :: operations) >>= fun _ => Action.finish) =
          operation.perform >>= fun _ => performAll operations >>= fun _ => Action.finish :=
        bind_assoc operation.perform _ _
      rw [hperform, Action.run_bind]
      rcases hrun : operation.perform.run.run s with ⟨reason | ⟨⟩, s'⟩ <;> rw [hrun] at hmiddle
      · exact hmiddle
      · exact ih (fun o ho => hleaves o (List.mem_cons_of_mem _ ho)) hmiddle

end Operation

/-! ## Exactness -/

/-- A frame that resolves a reference binds its name. -/
theorem Tracker.exists_find?_of_resolver? (t : Tracker) {id f : Nat} (hindexed : (t.frame f).Indexed)
    (hresolver : t.resolver? id = some f) :
    ∃ b, (t.frame f).find? (t.reference id).name = some b := by
  have hany : (t.frame f).bindings.any (·.name = (t.reference id).name) = true :=
    List.find?_some (p := fun i => (t.frame i).bindings.any (·.name = (t.reference id).name))
      hresolver
  obtain ⟨b, hb, hname⟩ := List.any_eq_true.mp hany
  exact ⟨b, hindexed.find?_eq_some_iff.mpr ⟨hb, of_decide_eq_true hname⟩⟩

theorem BindingKind.hasDeadZone_iff (kind : BindingKind) :
    kind.hasDeadZone ↔ kind ∈ [.letName, .constName, .className, .parameter] := by
  cases kind <;> decide

/-- Which code the remark on a write has is told by the kind. -/
theorem Binding.writeRemark?_code_iff (b : Binding) :
    ((∃ remark, b.writeRemark? = some remark ∧ remark.code = "E013") ↔
      b.kind ∈ [.constName, .imported]) ∧
    ((∃ remark, b.writeRemark? = some remark ∧ remark.code = "W021") ↔
      b.kind ∈ [.function, .className]) ∧
    ((∃ remark, b.writeRemark? = some remark ∧ remark.code = "W022") ↔ b.kind = .exception) := by
  unfold Binding.writeRemark?
  cases b.kind <;> simp

open Operation in
/-- In a run that comes to its end, with nothing dropped and references at different places, a
reference that is resolved to a binding is told once or not at all by each of four remarks. Which
ones is seen from the binding and the reference in the final frames, from the last end of the dead
zone that was set, and from the access that was last set before the reference was resolved. -/
theorem uses_told_exactly {known : KnownGlobals} {rules : Rules} {module strict : Bool}
    {limit totalLines : Nat} {disabled : Text.NameSet} {operations : List Operation} {s : Session}
    (hopen : keepOpen (if module then 2 else 1) operations)
    (henabled : ∀ code ∈ useCodes, disabled.contains code = false)
    (hleaves : ∀ operation ∈ operations, operation.Leaves useCodes)
    (hrun : (performAll operations >>= fun _ => Action.finish).run.run
      ⟨.start known rules module strict, .start limit totalLines disabled⟩ = (.ok (), s))
    (hlive : s.sink.isHalted = false)
    (hplaces : ∀ id < s.tracker.references.size, ∀ id' < s.tracker.references.size,
      (s.tracker.reference id).position.place = (s.tracker.reference id').position.place →
        id = id') :
    let ends := addEntries zoneEnd? operations
      ⟨.start known rules module strict, .start limit totalLines disabled⟩ fun _ _ => []
    ∃ log, ((logAll operations >>= fun _ => Logged.finish).run []).run.run
        ⟨.start known rules module strict, .start limit totalLines disabled⟩ = (.ok ((), log), s) ∧
      ∀ id < s.tracker.references.size, ∀ f, s.tracker.resolver? id = some f →
        let r := s.tracker.reference id
        ∃ b before access, (s.tracker.frame f).find? r.name = some b ∧
          .resolved id (some f) (s.tracker.crosses id) :: before <:+ log ∧
          lastAccess? id before = some access ∧
          s.sink.times "E056" r.position.place =
            (if b.kind ∈ [.letName, .constName, .className, .parameter] ∧
              s.tracker.crosses id = false ∧
              (ends f r.name).getLast?.any (r.position.offset < ·) then 1 else 0) ∧
          s.sink.times "E013" r.position.place =
            (if access.writes ∧ b.kind ∈ [.constName, .imported] then 1 else 0) ∧
          s.sink.times "W021" r.position.place =
            (if access.writes ∧ b.kind ∈ [.function, .className] then 1 else 0) ∧
          s.sink.times "W022" r.position.place =
            (if access.writes ∧ b.kind = .exception then 1 else 0) := by
  intro ends
  have htracks : s.tracker.Tracks ZoneAgrees ends := zoneChronicle.finished hopen hrun
  have hsound : s.sink.Sound := by
    have hfinal := performAll_sound hleaves (Sink.sound_start limit totalLines disabled)
      (s := ⟨.start known rules module strict, .start limit totalLines disabled⟩)
    rwa [hrun] at hfinal
  obtain ⟨log, hlog⟩ := ((logAll_erases operations).bind fun _ => .finish).exists_log hrun []
  refine ⟨log, hlog, fun id hid f hresolver => ?_⟩
  intro r
  have htells (ground : Ground) (hcode : ground.code ∈ useCodes)
      (hcounts : ∀ rules, ground.Counts rules) :=
    ground.reported hopen (hcounts rules) (henabled _ hcode)
      (fun operation hmem => (hleaves operation hmem).heeds hcode hcounts) hlog
  obtain ⟨hzone, hstack⟩ := htells Fault.deadZone.ground (by decide) fun _ => trivial
  obtain ⟨before, access, hsuffix, haccess⟩ := hzone.toSound.exists_resolved hstack hid hresolver
  obtain ⟨b, hfind⟩ := s.tracker.exists_find?_of_resolver? (hzone.orderly.indexed f) hresolver
  have htimes (ground : Ground) (hcode : ground.code ∈ useCodes)
      (hcounts : ∀ rules, ground.Counts rules) {p : Prop} [Decidable p]
      (hholds : ground.Holds s.tracker b
        { r with crossedFunction := s.tracker.crosses id, access } ↔ p) :
      s.sink.times ground.code r.position.place = if p then 1 else 0 :=
    hsound.times_eq ((ground.tells_iff_holds (htells ground hcode hcounts).1 hlive hplaces hid
      hresolver hsuffix haccess hfind).trans hholds)
  obtain ⟨hconstant, hfunction, hexception⟩ := b.writeRemark?_code_iff
  refine ⟨b, before, access, hfind, hsuffix, haccess, ?_, ?_, ?_, ?_⟩
  · refine htimes Fault.deadZone.ground (by decide) (fun _ => trivial) ?_
    have hin : { r with crossedFunction := s.tracker.crosses id, access }.inDeadZone b ↔
        b.kind.hasDeadZone ∧ s.tracker.crosses id = false ∧
          r.position.offset < b.initializedAt := by
      simp [Reference.inDeadZone, and_assoc]
    rw [← b.kind.hasDeadZone_iff]
    refine hin.trans (and_congr_right fun hkind => and_congr_right fun _ => ?_)
    simp [htracks f r.name b hfind hkind]
  · exact htimes (.write "E013" (by decide)) (by decide) (fun _ => trivial)
      (and_congr_right fun _ => hconstant)
  · exact htimes (.write "W021" (by decide)) (by decide) (fun _ => trivial)
      (and_congr_right fun _ => hfunction)
  · exact htimes (.write "W022" (by decide)) (by decide) (fun _ => trivial)
      (and_congr_right fun _ => hexception)

/-- A constant is used before its declaration, in what turns out to be an update. -/
def earlyUpdate : List Operation :=
  [.enterScope .block ⟨1, 1, 0⟩, .addReference "a" ⟨1, 3, 2⟩ .read, .setAccess 0 .readWrite,
    .declare "a" .constName ⟨1, 14, 13⟩, .exitScope]

theorem told_exactly_earlyUpdate :
    ∃ s : Session, (Operation.performAll earlyUpdate >>= fun _ => Action.finish).run.run
        ⟨.start {} (.ofOptions {}) false false, .start 50 1 (.ofList [])⟩ = (.ok (), s) ∧
      let place := (s.tracker.reference 0).position.place
      s.tracker.resolver? 0 = some 1 ∧ place = (1, 3) ∧
        s.sink.times "E056" place = 1 ∧ s.sink.times "E013" place = 1 ∧
        s.sink.times "W021" place = 0 ∧ s.sink.times "W022" place = 0 := by
  have hrun : (Operation.performAll earlyUpdate >>= fun _ => Action.finish).run.run
      ⟨.start {} (.ofOptions {}) false false, .start 50 1 (.ofList [])⟩ = (.ok (), _) :=
    Prod.ext (by decide +kernel) rfl
  obtain ⟨log, hlog, htold⟩ := uses_told_exactly (by decide) (by decide +kernel)
    (by simp [earlyUpdate, Operation.Leaves]) hrun (by decide +kernel) (by decide +kernel)
  obtain ⟨b, before, access, hfind, hsuffix, haccess, hzone, hconstant, hfunction, hexception⟩ :=
    htold 0 (by decide +kernel) 1 (by decide +kernel)
  have hkind : some .constName = some b.kind :=
    Eq.trans (by decide +kernel) (congrArg (Option.map Binding.kind) hfind)
  have hupdate : access = .readWrite := by
    have hevents : Except.ok ((), log) = Except.ok (ε := Halt) ((),
        [.resolved 0 (some 1) false, .accessSet 0 .readWrite, .recorded 0 .read]) :=
      Eq.trans (congrArg Prod.fst hlog).symm (by decide +kernel)
    cases hevents
    have hbefore := cons_eq_of_suffix (p := Event.resolves 0) (by decide) rfl
      (show Event.resolves 0 (.resolved 0 (some 1) false) by rfl) hsuffix List.suffix_rfl
    rw [(List.cons.inj hbefore).2] at haccess
    exact (Option.some.inj haccess).symm
  rw [if_pos ⟨by simp [← Option.some.inj hkind], by decide +kernel, by decide +kernel⟩] at hzone
  rw [hupdate, ← Option.some.inj hkind] at hconstant hfunction hexception
  exact ⟨_, hrun, by decide +kernel, by decide +kernel, hzone, hconstant, hfunction, hexception⟩

/-- A constant is read, and only after its block was closed the use is set to write. -/
def lateWrite : List Operation :=
  [.enterScope .block ⟨1, 1, 0⟩, .declare "a" .constName ⟨1, 9, 8⟩,
    .addReference "a" ⟨1, 16, 15⟩ .read, .exitScope, .setAccess 0 .write]

/-- A write that is set too late is not told, although the final access is a write. -/
theorem not_told_lateWrite :
    ∃ s : Session, (Operation.performAll lateWrite >>= fun _ => Action.finish).run.run
        ⟨.start {} (.ofOptions {}) false false, .start 50 1 (.ofList [])⟩ = (.ok (), s) ∧
      Operation.keepOpen 1 lateWrite ∧ s.sink.isHalted = false ∧ s.tracker.references.size = 1 ∧
      s.tracker.resolver? 0 = some 1 ∧
      ((s.tracker.frame 1).find? (s.tracker.reference 0).name).map (·.kind) = some .constName ∧
      (s.tracker.reference 0).access.writes ∧
      ¬ s.sink.Tells "E013" (s.tracker.reference 0).position.place := by
  refine ⟨_, Prod.ext (by decide +kernel) rfl, by decide, by decide +kernel, by decide +kernel,
    by decide +kernel, by decide +kernel, by decide +kernel, ?_⟩
  unfold Sink.Tells
  decide +kernel

end ScriptLint.Scope

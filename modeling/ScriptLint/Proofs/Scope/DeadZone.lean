import ScriptLint.Proofs.Scope.Chronicle

/-! # Where dead zones end

The dead zone of a name ends behind the name when it is declared, and is extended to where its
initial value ends. Only the last of these ends counts, and a use is held against it wherever it
stands: every use in front of it is in the dead zone, even one behind the name.
-/

namespace ScriptLint.Scope

/-- The end of the dead zone. -/
@[reducible] def zoneEnd : Aspect Nat where
  Has kind := kind.hasDeadZone
  value := Binding.initializedAt
  no_function := by decide
  settled h := (congrArg Binding.initializedAt h :)

/-! ## The ends that operations set -/

namespace Tracker

/-- Whether a parameter of the name is bound rather than rejected. The name that a function
expression has in its own body gives way. -/
def admitsParameter (t : Tracker) (name : String) : Bool :=
  (t.functionFrame.find? name).all (·.implicit)

/-- Whether a lexical declaration of the name is bound rather than rejected. -/
def admitsLexical (t : Tracker) (name : String) : Bool :=
  match t.current.find? name with
  | some b => b.implicit
  | none => !t.current.hoisted.contains name

/-- A name that the current frame binds is admitted if the binding gives way. -/
theorem admitsLexical_of_find? {t : Tracker} {name : String} {b : Binding}
    (hfind : (t.frame t.currentId).find? name = some b) : t.admitsLexical name = b.implicit := by
  have hfind : t.current.find? name = some b := hfind
  rw [admitsLexical, hfind]

theorem admitsLexical_of_unbound {t : Tracker} {name : String}
    (hnone : (t.frame t.currentId).find? name = none) :
    t.admitsLexical name = !(t.frame t.currentId).hoisted.contains name := by
  have hnone : t.current.find? name = none := hnone
  rw [admitsLexical, hnone]
  rfl

theorem admitsLexical_eq_false {t : Tracker} {name : String}
    (hbound : ∀ b, (t.frame t.currentId).find? name = some b → b.implicit = false)
    (hunbound : (t.frame t.currentId).find? name = none →
      (t.frame t.currentId).hoisted.contains name = true) : t.admitsLexical name = false := by
  cases hfind : (t.frame t.currentId).find? name with
  | some b => rw [admitsLexical_of_find? hfind, hbound b hfind]
  | none => rw [admitsLexical_of_unbound hfind, hunbound hfind, Bool.not_true]

/-- The innermost frame of the current function that binds the name. -/
def innermost? (t : Tracker) (name : String) : Option Nat :=
  t.functionIds.find? fun id => ((t.frame id).find? name).isSome

end Tracker

/-- The end that an operation sets for the dead zone of a name in a frame. -/
def Operation.zoneEnd? (t : Tracker) : Operation → Option (Entry Nat)
  | declare name .parameter position | declareParameter name position _ =>
    if t.admitsParameter name then some ⟨t.functionId, name, Action.afterName name position⟩
    else none
  | declare name kind position =>
    if kind.isLexical && t.admitsLexical name then
      some ⟨t.currentId, name, Action.afterName name position⟩
    else none
  | markInitialized name offset => (t.innermost? name).map (⟨·, name, offset⟩)
  | _ => none

/-- What a name is bound to agrees with the ends that were set for its dead zone: the last one
counts. -/
def ZoneAgrees (_ : Nat) (bound : Option Binding) (ends : List Nat) : Prop :=
  ∀ b, bound = some b → b.kind.hasDeadZone → ends.getLast? = some b.initializedAt

theorem ZoneAgrees.of_keeps {before after : Option Binding} (hkeeps : zoneEnd.Keeps before after)
    {f : Nat} {ends : List Nat} (h : ZoneAgrees f before ends) : ZoneAgrees f after ends := by
  intro b' hsome hkind
  obtain ⟨b, hsome', hkind', hend⟩ := hkeeps.of_some b' hsome hkind
  exact (h b hsome' hkind').trans (congrArg some hend)

/-- A new end. -/
theorem ZoneAgrees.append {f stop : Nat} {after : Option Binding} {ends : List Nat}
    (hafter : ∀ b, after = some b → b.kind.hasDeadZone → b.initializedAt = stop) :
    ZoneAgrees f after (ends ++ [stop]) :=
  fun b hsome hkind => by rw [hafter b hsome hkind, List.getLast?_append_of_ne_nil] <;> simp

theorem Tracker.Retains.zoneTracks {t t' : Tracker} {ends : Entries Nat}
    (hretains : t.Retains zoneEnd t') (ht : t.Tracks ZoneAgrees ends) : t'.Tracks ZoneAgrees ends :=
  fun f name => (ht f name).of_keeps (hretains f name)

namespace Tracker.Tracks

variable {t : Tracker} {ends : Entries Nat} {target : Nat}

/-- A binding is changed, with a new end of its dead zone. -/
theorem zoneModify (ht : t.Tracks ZoneAgrees ends) (htarget : target < t.frames.size)
    (hindexed : (t.frame target).Indexed) (name : String) {change : Binding → Binding} {stop : Nat}
    (hchange : ∀ b, (change b).kind.hasDeadZone → (change b).initializedAt = stop) :
    (t.modifyFrame target (·.modify name change)).Tracks ZoneAgrees
      (ends.add ⟨target, name, stop⟩) := by
  refine ht.add htarget (hindexed.find?_modify name change) (.append ?_)
  intro b hb
  obtain ⟨b', -, rfl⟩ := Option.map_eq_some_iff.mp hb
  exact hchange b'

/-- A new binding has the end that it comes with. -/
theorem zoneInsert (ht : t.Tracks ZoneAgrees ends) (htarget : target < t.frames.size)
    (hindexed : (t.frame target).Indexed) {b : Binding}
    (hnone : (t.frame target).find? b.name = none) :
    (t.modifyFrame target (·.insert b)).Tracks ZoneAgrees
      (ends.add ⟨target, b.name, b.initializedAt⟩) := by
  have hnew : (t.frame target).binds b.name = false := by simp [Frame.binds, hnone]
  refine ht.add htarget (hindexed.find?_insert hnew) (.append ?_)
  rintro _ ⟨⟩ -
  rfl

end Tracker.Tracks

namespace Action

variable {t : Tracker} {ends : Entries Nat}

/-- The declaration of a `var` or a function extends no dead zone. -/
theorem declareHoisted_retains (hindexed : ∀ i, (t.frame i).Indexed) (name : String)
    {kind : BindingKind} (hkind : kind = .varName ∨ kind = .function) (position : Position) :
    (declareHoisted name kind position).Ensures t fun _ t' => t.Retains zoneEnd t' := by
  have hgrows := Tracker.hoistAll_grows name t.innerIds_subset_stack
  have hfind := Tracker.find?_hoistAll name t.innerIds t
  have hhoisted : t.Retains zoneEnd (t.hoistAll name t.innerIds) :=
    fun i name' => .of_eq (hfind i name')
  have hindexed' (i : Nat) := (hgrows.frame i).indexed (hindexed i)
  have hthen {t' : Tracker} (h : (t.hoistAll name t.innerIds).Retains zoneEnd t') :
      t.Retains zoneEnd t' := fun i name' => (hhoisted i name').trans (h i name')
  refine declareHoisted_ensures (fun _ => .refl t) fun _ => ⟨fun hnone => ?_, fun b hb => ?_⟩
  · have hzone : ¬ zoneEnd.Has kind := by rcases hkind with rfl | rfl <;> decide
    exact hthen (.modifyFrame (.insert (hindexed' _) ((hfind _ _).trans hnone) hzone))
  · split
    · exact hhoisted
    · refine hthen (.modifyFrame (.modify (hindexed' _) name fun b' hb' hzone => ?_))
      obtain rfl : b = b' := Option.some.inj (hb.symm.trans ((hfind _ _).symm.trans hb'))
      rcases hkind with rfl | rfl
      · exact ⟨hzone, rfl⟩
      · exact absurd hzone zoneEnd.no_function

theorem declareLexical_zoneTracks (htarget : t.currentId < t.frames.size)
    (hindexed : ∀ i, (t.frame i).Indexed) (ht : t.Tracks ZoneAgrees ends) (name : String)
    {kind : BindingKind} (hkind : kind.isLexical) (position : Position) :
    (declareLexical name kind position).Ensures t fun _ t' => t'.Tracks ZoneAgrees
      (if t.admitsLexical name then ends.add ⟨t.currentId, name, afterName name position⟩
        else ends) := by
  refine declareLexical_ensures (fun b hb himplicit => ?_) (fun hnone hfree => ?_)
    fun hbound hunbound => ?_
  · rw [if_pos ((Tracker.admitsLexical_of_find? hb).trans himplicit)]
    exact ht.zoneModify htarget (hindexed _) name fun _ _ => rfl
  · have hadmits : t.admitsLexical name = true := by
      rw [Tracker.admitsLexical_of_unbound hnone, hfree, Bool.not_false]
    rw [if_pos hkind, if_pos hadmits]
    exact ht.zoneInsert htarget (hindexed _) hnone
  · rw [if_neg (by simp [Tracker.admitsLexical_eq_false hbound hunbound])]
    exact ht

theorem declareParameter_zoneTracks (htarget : t.functionId < t.frames.size)
    (hindexed : ∀ i, (t.frame i).Indexed) (ht : t.Tracks ZoneAgrees ends) (name : String)
    (position : Position) (distinct : Bool) :
    (declareParameter name position distinct).Ensures t fun _ t' => t'.Tracks ZoneAgrees
      (if t.admitsParameter name then ends.add ⟨t.functionId, name, afterName name position⟩
        else ends) := by
  have hadmits :
      t.admitsParameter name = ((t.frame t.functionId).find? name).all (·.implicit) := rfl
  refine declareParameter_ensures (fun b hb himplicit => ?_) (fun hnone => ?_)
    fun b hb himplicit => ?_
  · rw [if_pos (by simp [hadmits, hb, himplicit])]
    exact ht.zoneModify htarget (hindexed _) name fun _ _ => rfl
  · rw [if_pos (by simp [hadmits, hnone])]
    exact ht.zoneInsert htarget (hindexed _) hnone
  · rw [if_neg (by simp [hadmits, hb, himplicit])]
    exact ht

end Action

theorem Tracker.Tracks.markInitialized {t : Tracker} {ends : Entries Nat} (harena : t.Arena)
    (hindexed : ∀ i, (t.frame i).Indexed) (ht : t.Tracks ZoneAgrees ends) (name : String)
    (offset : Nat) : (t.markInitialized name offset).Tracks ZoneAgrees
      ((Operation.markInitialized name offset).addEntry Operation.zoneEnd? t ends) := by
  unfold Tracker.markInitialized
  split
  next hnone =>
    rw [Operation.addEntry_of_none (congrArg (Option.map _) hnone)]
    exact ht
  next i hi =>
    rw [Operation.addEntry_of_some (congrArg (Option.map _) hi)]
    have hmem := t.upToFunction_subset t.stack (List.mem_of_find?_eq_some hi)
    refine ht.zoneModify (harena.stack_lt i hmem) (hindexed i) name fun b hzone => ?_
    split at hzone
    next h => rw [if_pos h]
    next h => exact absurd hzone h

/-! ## One end for several names -/

namespace Frame

variable {f : Frame} {name : String} {change : Binding → Binding}

theorem find?_modify_self : (f.modify name change).find? name = (f.find? name).map change := by
  unfold Frame.modify Frame.find?
  split
  next place hplace => simp [hplace]
  next hnone => simp [hnone]

/-- Whatever name a changed binding is found under, it is the old one or the change of it. -/
theorem exists_find?_of_modify {name' : String} {b' : Binding}
    (hfind : (f.modify name change).find? name' = some b') :
    ∃ b, f.find? name' = some b ∧ (b' = b ∨ b' = change b) := by
  unfold Frame.modify Frame.find? at *
  split at hfind
  next place _ =>
    obtain ⟨place', hplace', hget⟩ := Option.bind_eq_some_iff.mp hfind
    rw [List.getElem?_modify] at hget
    obtain ⟨b, hb, rfl⟩ := Option.map_eq_some_iff.mp hget
    refine ⟨b, Option.bind_eq_some_iff.mpr ⟨place', hplace', hb⟩, ?_⟩
    by_cases hsame : place = place' <;> simp [hsame]
  next => exact ⟨b', hfind, .inl rfl⟩

theorem isSome_find?_modify (name' : String) :
    ((f.modify name change).find? name').isSome = (f.find? name').isSome := by
  unfold Frame.modify Frame.find?
  split
  · cases f.index.lookup name' <;> simp [List.getElem?_modify]
  · rfl

end Frame

namespace Tracker

variable {t : Tracker} {name : String} {stop : Nat}

/-- In the current function, the dead zone of the name ends at the offset, if the name has one. -/
def ZoneEndsAt (t : Tracker) (name : String) (stop : Nat) : Prop :=
  ∀ i b, t.innermost? name = some i → (t.frame i).find? name = some b → b.kind.hasDeadZone →
    b.initializedAt = stop

theorem isSome_find?_markInitialized (name : String) (stop i : Nat) (name' : String) :
    (((t.markInitialized name stop).frame i).find? name').isSome =
      ((t.frame i).find? name').isSome := by
  unfold markInitialized
  split
  next => rfl
  next =>
    rw [frame_modifyFrame]
    split
    next h => rw [← h.1, Frame.isSome_find?_modify]
    next => rfl

theorem innermost?_markInitialized (name : String) (stop : Nat) (name' : String) :
    (t.markInitialized name stop).innermost? name' = t.innermost? name' := by
  unfold innermost?
  rw [(markInitialized_grows name stop).functionIds_eq]
  simp only [isSome_find?_markInitialized]

theorem markInitialized_zoneEndsAt (name : String) (stop : Nat) :
    (t.markInitialized name stop).ZoneEndsAt name stop := by
  intro i b' hi hfind hzone
  rw [innermost?_markInitialized] at hi
  have hmarked : t.markInitialized name stop = t.modifyFrame i (·.modify name fun b =>
      if b.kind.hasDeadZone then { b with initializedAt := stop } else b) := by
    unfold markInitialized
    rw [show t.functionIds.find? _ = some i from hi]
  rw [hmarked, frame_modifyFrame] at hfind
  split at hfind
  next =>
    rw [Frame.find?_modify_self] at hfind
    obtain ⟨b, -, rfl⟩ := Option.map_eq_some_iff.mp hfind
    split at hzone
    next h => rw [if_pos h]
    next h => exact absurd hzone h
  next h =>
    -- A frame that does not exist binds no name.
    have hnone : t.frame i = default :=
      t.frame_of_size_le (Nat.le_of_not_lt fun hlt => h ⟨rfl, hlt⟩)
    rw [hnone] at hfind
    cases hfind

theorem ZoneEndsAt.markInitialized (ht : t.ZoneEndsAt name stop) (name' : String) :
    (t.markInitialized name' stop).ZoneEndsAt name stop := by
  intro i b' hi hfind hzone
  rw [innermost?_markInitialized] at hi
  unfold Tracker.markInitialized at hfind
  split at hfind
  next => exact ht i b' hi hfind hzone
  next =>
    rw [frame_modifyFrame] at hfind
    split at hfind
    next h =>
      obtain ⟨rfl, -⟩ := h
      obtain ⟨b, hfind', rfl | rfl⟩ := Frame.exists_find?_of_modify hfind
      · exact ht _ b' hi hfind' hzone
      · split at hzone
        next h => rw [if_pos h]
        next h => exact absurd hzone h
    next => exact ht i b' hi hfind hzone

/-- The tracker after the dead zones of several names are ended at one offset. -/
def markAll (names : List String) (stop : Nat) (t : Tracker) : Tracker :=
  names.foldl (fun t name => t.markInitialized name stop) t

theorem markAll_zoneEndsAt {names : List String} (hname : name ∈ names) :
    (t.markAll names stop).ZoneEndsAt name stop := by
  have hkeeps (names : List String) {t : Tracker} (ht : t.ZoneEndsAt name stop) :
      (t.markAll names stop).ZoneEndsAt name stop := by
    induction names generalizing t with
    | nil => exact ht
    | cons name' names ih => exact ih (ht.markInitialized name')
  induction names generalizing t with
  | nil => cases hname
  | cons name' names ih =>
      rcases List.mem_cons.mp hname with rfl | hmem
      · exact hkeeps names (markInitialized_zoneEndsAt _ stop)
      · exact ih hmem

end Tracker

/-! ## Other names -/

/-- What does not touch the name leaves the end of its dead zone. -/
theorem Tracker.ZoneEndsAt.of_find? {t t' : Tracker} {name : String} {stop : Nat}
    (ht : t.ZoneEndsAt name stop) (hgrows : t.Grows t')
    (hfind : ∀ i, (t'.frame i).find? name = (t.frame i).find? name) : t'.ZoneEndsAt name stop := by
  intro i b hi hb
  refine ht i b ?_ (hfind i ▸ hb)
  simpa only [innermost?, hgrows.functionIds_eq, hfind] using hi

theorem Tracker.find?_markInitialized_of_ne {t : Tracker} (hindexed : ∀ i, (t.frame i).Indexed)
    {name name' : String} (hne : name' ≠ name) (stop i : Nat) :
    ((t.markInitialized name stop).frame i).find? name' = (t.frame i).find? name' := by
  unfold markInitialized
  split
  next => rfl
  next =>
    rw [frame_modifyFrame]
    split
    next h => rw [← h.1, (hindexed _).find?_modify, if_neg hne]
    next => rfl

theorem Action.declareParameter_find?_of_ne {t : Tracker} (hindexed : ∀ i, (t.frame i).Indexed)
    {name name' : String} (hne : name' ≠ name) (position : Position) (distinct : Bool) :
    (declareParameter name position distinct).Ensures t fun _ t' =>
      ∀ i, (t'.frame i).find? name' = (t.frame i).find? name' := by
  have hchange {target : Nat} {change : Frame → Frame}
      (h : (change (t.frame target)).find? name' = (t.frame target).find? name') (i : Nat) :
      ((t.modifyFrame target change).frame i).find? name' = (t.frame i).find? name' := by
    rw [Tracker.frame_modifyFrame]
    split
    next heq => exact heq.1 ▸ h
    next => rfl
  refine declareParameter_ensures (fun _ _ _ => hchange ?_) (fun hnone => hchange ?_)
    fun _ _ _ _ => rfl
  · rw [(hindexed _).find?_modify, if_neg hne]
  · rw [(hindexed _).find?_insert (by simp [Frame.binds, hnone]), if_neg hne]

/-- The ends of dead zones keep to those that operations set. -/
theorem zoneChronicle : Chronicle Operation.zoneEnd? ZoneAgrees where
  unbound _ := nofun
  finish ht := Action.finish_retains.mono fun _ _ hretains => hretains.zoneTracks ht
  perform {t log ends} hs hstack ht operation := by
    have hkeep {action : Action Unit}
        (haction : action.Ensures t fun _ t' => t.Retains zoneEnd t') :
        action.Ensures t fun _ t' => t'.Tracks ZoneAgrees ends :=
      haction.mono fun _ t' hretains => hretains.zoneTracks ht
    have hcurrent := hs.arena.stack_lt _ (Tracker.currentId_mem_stack hstack)
    have hfunction := hs.arena.stack_lt _ (Tracker.functionId_mem_stack hstack)
    cases operation with
    | declare name kind position =>
        cases kind with
        | varName => exact hkeep (Action.declareHoisted_retains hs.indexed name (.inl rfl) position)
        | function =>
            exact hkeep (Action.declareHoisted_retains hs.indexed name (.inr rfl) position)
        | parameter =>
            rw [Operation.addEntry_of_ite rfl]
            exact Action.declareParameter_zoneTracks hfunction hs.indexed ht name position false
        | exception | imported =>
            exact hkeep (Action.declareLexical_retains hs.indexed name (by decide) position)
        | _ =>
            rw [Operation.addEntry_of_ite rfl]
            exact Action.declareLexical_zoneTracks hcurrent hs.indexed ht name rfl position
    | declareParameter name position distinct =>
        rw [Operation.addEntry_of_ite rfl]
        exact Action.declareParameter_zoneTracks hfunction hs.indexed ht name position distinct
    | markInitialized name offset =>
        exact .update (ht.markInitialized hs.arena hs.indexed name offset)
    | _ => exact hkeep (Operation.perform_retains hs.indexed rfl)

/-! ## Uses in dead zones -/

/-- Uses are held against the last end of the dead zone. -/
theorem Tracker.Tracks.deadZone_iff {t : Tracker} {ends : Entries Nat}
    (ht : t.Tracks ZoneAgrees ends) (id f : Nat) (place : Nat × Nat) :
    t.resolver? id = some f ∧ t.Faulty .deadZone id f (t.crosses id) place ↔
      (t.reference id).position.place = place ∧ t.Uses zoneEnd id f ∧ ∃ stop,
        (ends f (t.reference id).name).getLast? = some stop ∧
          (t.reference id).position.offset < stop := by
  have hin (b : Binding) : { t.reference id with crossedFunction := t.crosses id }.inDeadZone b ↔
      b.kind.hasDeadZone ∧ t.crosses id = false ∧
        (t.reference id).position.offset < b.initializedAt := by
    simp [Reference.inDeadZone, and_assoc]
  constructor
  · rintro ⟨hresolver, b, hfind, hfault, hplace⟩
    obtain ⟨hzone, hcrossed, hbefore⟩ := (hin b).mp hfault
    exact ⟨hplace, ⟨hresolver, hcrossed, b, hfind, hzone⟩, b.initializedAt, ht f _ b hfind hzone,
      hbefore⟩
  · rintro ⟨hplace, ⟨hresolver, hcrossed, b, hfind, hzone⟩, stop, hstop, hbefore⟩
    obtain rfl := Option.some.inj ((ht f _ b hfind hzone).symm.trans hstop)
    exact ⟨hresolver, b, hfind, (hin b).mpr ⟨hzone, hcrossed, hbefore⟩, hplace⟩

/-- What happens in `let {a, b = a} = {};`, written with braces, where the default stands behind the
name that it uses. -/
def laterDefault : List Operation :=
  [.addReference "a" ⟨1, 13, 12⟩ .read, .declare "a" .letName ⟨1, 6, 5⟩,
    .declare "b" .letName ⟨1, 9, 8⟩, .markInitialized "a" 19, .markInitialized "b" 19]

end ScriptLint.Scope

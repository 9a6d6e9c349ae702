import ScriptLint.Proofs.Scope.Chronicle
import ScriptLint.Proofs.Scope.Rejection

/-! # The own name of a function expression

A function expression has its own name inside its body, where no declaration made it. Every
declaration of the name takes it over without a report. A parameter and a lexical declaration then
count as if the name had been free. A `var` and a function only make the name a declared one: it is
a function as before, and stands where it stood before.
-/

namespace ScriptLint.Scope

/-- How a function expression has its own name, which stands at a position. -/
def Binding.own (name : String) (place : Position) : Binding :=
  { name, kind := .function, declaredAt := place, implicit := true }

/-- What a declaration makes of the own name of a function expression that stands at `place`. -/
def Binding.takeover (name : String) (place : Position) (kind : BindingKind) (position : Position) :
    Binding :=
  match kind with
  | .varName | .function => { name, kind := .function, declaredAt := place }
  | _ => { name, kind, declaredAt := position, initializedAt := Action.afterName name position }

/-- What an operation declares: a name, its kind, and where. -/
def Operation.declared? : Operation → Option (String × BindingKind × Position)
  | declare name kind position => some (name, kind, position)
  | declareParameter name position _ => some (name, .parameter, position)
  | _ => none

/-- Whether a declaration comes to the frame of the current function: a parameter always does, a
`var` or a function if no block on the way declares the name, and any other one if it is made
there. -/
def Tracker.comesToFunction (t : Tracker) (name : String) : BindingKind → Bool
  | .varName | .function => !t.innerIds.any fun id => (t.frame id).blocksVar name
  | .parameter => true
  | _ => t.currentId = t.functionId

/-! ## Where own names stand -/

/-- The own name that an operation binds, and where it stands. -/
def Operation.ownName? (t : Tracker) : Operation → Option (Entry Position)
  | declareFunctionName name position =>
    if (t.functionFrame.find? name).isSome then none else some ⟨t.functionId, name, position⟩
  | _ => none

/-- What a name is bound to agrees with the places at which it was bound as an own name: as long as
no declaration took it over, it is what the last one made it. -/
def OwnAgrees (_ : Nat) (bound : Option Binding) (places : List Position) : Prop :=
  ∀ b, bound = some b → b.implicit → ∃ place, places.getLast? = some place ∧
    b.declaration = .own b.name place

namespace OwnAgrees

variable {f : Nat} {before after : Option Binding} {places : List Position}

/-- Declarations may take own names over, but do not make any. -/
theorem of_kept (h : OwnAgrees f before places) (hkept : ∀ b', after = some b' → b'.implicit →
    ∃ b, before = some b ∧ b'.declaration = b.declaration) : OwnAgrees f after places := by
  intro b' hsome himplicit
  obtain ⟨b, hsome', hdeclared⟩ := hkept b' hsome himplicit
  have himplicit' : b.implicit = b'.implicit := (congrArg Binding.implicit hdeclared :).symm
  have hname : b.name = b'.name := (congrArg Binding.name hdeclared :).symm
  obtain ⟨place, hplace, hown⟩ := h b hsome' (himplicit'.trans himplicit)
  exact ⟨place, hplace, hdeclared.trans (hname ▸ hown)⟩

theorem of_eq (h : OwnAgrees f before places) (heq : after = before) : OwnAgrees f after places :=
  heq ▸ h

theorem of_declared (hafter : ∀ b, after = some b → b.implicit = false) :
    OwnAgrees f after places := by
  intro b hsome himplicit
  rw [hafter b hsome] at himplicit
  cases himplicit

end OwnAgrees

namespace Tracker

variable {t t' : Tracker} {places : Entries Position}

/-- Of one changed frame, each name is looked at. -/
theorem Tracks.ownModifyFrame (ht : t.Tracks OwnAgrees places) {target : Nat}
    {change : Frame → Frame} (hchange : ∀ name,
      OwnAgrees target ((change (t.frame target)).find? name) (places target name)) :
    (t.modifyFrame target change).Tracks OwnAgrees places := by
  intro i name
  rw [frame_modifyFrame]
  split
  next h => exact h.1 ▸ hchange name
  next => exact ht i name

theorem Tracks.ownInsert (hindexed : ∀ i, (t.frame i).Indexed) (ht : t.Tracks OwnAgrees places)
    {target : Nat} {b : Binding} (hnew : (t.frame target).find? b.name = none)
    (hdeclared : b.implicit = false) :
    (t.modifyFrame target (·.insert b)).Tracks OwnAgrees places := by
  refine ht.ownModifyFrame fun name => ?_
  rw [(hindexed target).find?_insert (by simp [Frame.binds, hnew])]
  split
  · exact .of_declared fun _ h => Option.some.inj h ▸ hdeclared
  · exact ht target name

theorem Tracks.ownModify (hindexed : ∀ i, (t.frame i).Indexed) (ht : t.Tracks OwnAgrees places)
    {target : Nat} (name : String) {change : Binding → Binding}
    (hchange : ∀ b, (t.frame target).find? name = some b → (change b).implicit →
      (change b).declaration = b.declaration) :
    (t.modifyFrame target (·.modify name change)).Tracks OwnAgrees places := by
  refine ht.ownModifyFrame fun name' => ?_
  rw [(hindexed target).find?_modify]
  split
  next heq =>
    subst heq
    refine (ht target name').of_kept fun b' hsome himplicit => ?_
    obtain ⟨b, hfind, rfl⟩ := Option.map_eq_some_iff.mp hsome
    exact ⟨b, hfind, hchange b hfind himplicit⟩
  next => exact ht target name'

/-- A declaration that takes a name over. -/
theorem Tracks.ownTaken (hindexed : ∀ i, (t.frame i).Indexed) (ht : t.Tracks OwnAgrees places)
    {target : Nat} (name : String) {change : Binding → Binding}
    (hchange : ∀ b, (change b).implicit = false) :
    (t.modifyFrame target (·.modify name change)).Tracks OwnAgrees places :=
  ht.ownModify hindexed name fun b _ himplicit =>
    absurd ((hchange b).symm.trans himplicit) Bool.false_ne_true

theorem Tracks.ownRests (ht : t.Tracks OwnAgrees places)
    (hrests : ∀ i, (t.frame i).Rests (t'.frame i)) : t'.Tracks OwnAgrees places := by
  intro i name
  refine (ht i name).of_kept fun b' hsome _ => ?_
  cases hfind : (t.frame i).find? name with
  | none => simp [(hrests i).find?_eq_none.mpr hfind] at hsome
  | some b =>
      obtain ⟨b'', hfind', hdeclared⟩ := (hrests i).exists_find? hfind
      obtain rfl : b' = b'' := Option.some.inj (hsome.symm.trans hfind')
      exact ⟨b, rfl, hdeclared⟩

theorem Tracks.ownSame (ht : t.Tracks OwnAgrees places)
    (hsame : ∀ i name, (t'.frame i).find? name = (t.frame i).find? name) :
    t'.Tracks OwnAgrees places := fun i name => (ht i name).of_eq (hsame i name)

theorem Tracks.ownPush (ht : t.Tracks OwnAgrees places) {f : Frame} (hempty : f.index = []) :
    (t.push f).Tracks OwnAgrees places := by
  intro i name
  rw [frame_push]
  split
  · refine .of_declared fun b hsome => ?_
    rw [Frame.find?, hempty] at hsome
    cases hsome
  · exact ht i name

/-- The end of a dead zone is none of an own name. -/
theorem Tracks.ownMarkInitialized (hindexed : ∀ i, (t.frame i).Indexed)
    (ht : t.Tracks OwnAgrees places) (name : String) (offset : Nat) :
    (t.markInitialized name offset).Tracks OwnAgrees places := by
  unfold Tracker.markInitialized
  split
  next => exact ht
  next i hi =>
    refine ht.ownModify hindexed name fun b hb himplicit => ?_
    have himplicit' : b.implicit = true := by
      split at himplicit <;> exact himplicit
    obtain ⟨place, -, hown⟩ := ht i name b hb himplicit'
    have hkind : b.kind = .function := (congrArg Binding.kind hown :)
    simp [hkind, BindingKind.hasDeadZone, BindingKind.isLexical]

theorem Tracks.ownDeclareFunctionName (htarget : t.functionId < t.frames.size)
    (hindexed : ∀ i, (t.frame i).Indexed) (ht : t.Tracks OwnAgrees places) (name : String)
    (position : Position) : (t.declareFunctionName name position).Tracks OwnAgrees
      ((Operation.declareFunctionName name position).addEntry Operation.ownName? t places) := by
  unfold Tracker.declareFunctionName Tracker.modifyFunction
  cases hfind : (t.frame t.functionId).find? name with
  | some b =>
      rw [Operation.addEntry_of_none (if_pos (by simp [functionFrame, hfind]))]
      refine ht.ownModifyFrame fun name' => ?_
      rw [hfind, Option.isSome_some, if_pos rfl]
      exact ht t.functionId name'
  | none =>
      rw [Operation.addEntry_of_some (if_neg (by simp [functionFrame, hfind]))]
      have hinsert (name' : String) : (if ((t.frame t.functionId).find? name).isSome
            then t.frame t.functionId
            else (t.frame t.functionId).insert (.own name position)).find? name' =
          if name' = name then some (.own name position)
          else (t.frame t.functionId).find? name' := by
        rw [hfind, Option.isSome_none, if_neg Bool.false_ne_true]
        exact (hindexed _).find?_insert (by simp [Frame.binds, Binding.own, hfind]) name'
      refine ht.add htarget hinsert ?_
      rintro _ ⟨⟩ -
      exact ⟨position, List.getLast?_concat .., rfl⟩

end Tracker

namespace Action

variable {t : Tracker} {places : Entries Position}

theorem declareHoisted_owns (hindexed : ∀ i, (t.frame i).Indexed)
    (ht : t.Tracks OwnAgrees places) (name : String) (kind : BindingKind) (position : Position) :
    (declareHoisted name kind position).Ensures t fun _ t' => t'.Tracks OwnAgrees places := by
  have hfind := Tracker.find?_hoistAll name t.innerIds t
  have hhoisted : (t.hoistAll name t.innerIds).Tracks OwnAgrees places := ht.ownSame hfind
  have hindexed' (i : Nat) : ((t.hoistAll name t.innerIds).frame i).Indexed :=
    ((Tracker.hoistAll_grows name t.innerIds_subset_stack).frame i).indexed (hindexed i)
  refine declareHoisted_ensures (fun _ => ht) fun _ => ⟨fun hnone => ?_, fun b _ => ?_⟩
  · exact hhoisted.ownInsert hindexed' ((hfind _ _).trans hnone) rfl
  · split
    · exact hhoisted
    · exact hhoisted.ownTaken hindexed' name fun _ => rfl

theorem declareLexical_owns (hindexed : ∀ i, (t.frame i).Indexed)
    (ht : t.Tracks OwnAgrees places) (name : String) (kind : BindingKind) (position : Position) :
    (declareLexical name kind position).Ensures t fun _ t' => t'.Tracks OwnAgrees places :=
  declareLexical_ensures (fun _ _ _ => ht.ownTaken hindexed name fun _ => rfl)
    (fun hnone _ => ht.ownInsert hindexed hnone rfl) fun _ _ => ht

theorem declareBlockFunction_owns (hindexed : ∀ i, (t.frame i).Indexed)
    (ht : t.Tracks OwnAgrees places) (name : String) (position : Position) :
    (declareBlockFunction name position).Ensures t fun _ t' => t'.Tracks OwnAgrees places :=
  declareBlockFunction_ensures ht fun hnone => ht.ownInsert hindexed hnone rfl

theorem declareParameter_owns (hindexed : ∀ i, (t.frame i).Indexed)
    (ht : t.Tracks OwnAgrees places) (name : String) (position : Position) (distinct : Bool) :
    (declareParameter name position distinct).Ensures t fun _ t' => t'.Tracks OwnAgrees places :=
  declareParameter_ensures (fun _ _ _ => ht.ownTaken hindexed name fun _ => rfl)
    (fun hnone => ht.ownInsert hindexed hnone rfl) fun _ _ _ => ht

theorem declare_owns (hindexed : ∀ i, (t.frame i).Indexed) (ht : t.Tracks OwnAgrees places)
    (name : String) (kind : BindingKind) (position : Position) :
    (declare name kind position).Ensures t fun _ t' => t'.Tracks OwnAgrees places := by
  unfold declare
  split
  · exact declareHoisted_owns hindexed ht name _ position
  · exact declareHoisted_owns hindexed ht name _ position
  · exact declareParameter_owns hindexed ht name position false
  · exact declareLexical_owns hindexed ht name kind position

theorem exitScope_owns (ht : t.Tracks OwnAgrees places) :
    exitScope.Ensures t fun _ t' => t'.Tracks OwnAgrees places :=
  exitScope_rests.mono fun _ _ hrests => ht.ownRests hrests.frame

end Action

/-- Own names keep to the places at which operations bind them. -/
theorem ownChronicle : Chronicle Operation.ownName? OwnAgrees where
  unbound _ := nofun
  finish ht := .bind (.tracker (.forM (fun _ t' => t'.Tracks OwnAgrees _) ht
    fun _ _ _ ht' => Action.exitScope_owns ht'))
  perform {t log places} hs hstack ht operation := by
    have hsame (change : Frame → Frame) (hchange : ∀ f name, (change f).find? name = f.find? name) :
        (t.modifyFunction change).Tracks OwnAgrees places :=
      ht.ownModifyFrame fun name => (ht t.functionId name).of_eq (hchange _ name)
    cases operation with
    | declare name kind position => exact Action.declare_owns hs.indexed ht name kind position
    | declareBlockFunction name position =>
        exact Action.declareBlockFunction_owns hs.indexed ht name position
    | declareParameter name position distinct =>
        exact Action.declareParameter_owns hs.indexed ht name position distinct
    | declareFunctionName name position =>
        have htarget := hs.arena.stack_lt _ (Tracker.functionId_mem_stack hstack)
        exact .update (ht.ownDeclareFunctionName htarget hs.indexed name position)
    | markInitialized name offset => exact .update (ht.ownMarkInitialized hs.indexed name offset)
    | exitScope => exact Action.exitScope_owns ht
    | enterScope kind start => exact .update (ht.ownPush rfl)
    | enterFunction facts start => exact .update (ht.ownPush rfl)
    | addReference name position access =>
        refine .update (ht.ownSame fun i name' => ?_)
        exact Tracker.field_addReference (·.find? name') (fun _ _ => rfl) t name position access i
    | markExported name =>
        refine .update ?_
        unfold Tracker.markExported
        split <;> exact ht
    | setAccess | addKnown | removeKnown | setRules => exact .update ht
    | changeSink change =>
        rintro sink _ _ ⟨⟩
        exact ht
    | _ => exact .update (hsame _ fun _ _ => rfl)

/-! ## Taking an own name over -/

/-- A frame has one binding of a name that it binds. -/
theorem Frame.Indexed.filter_name {f : Frame} (hf : f.Indexed) {name : String} {b : Binding}
    (hfind : f.find? name = some b) : f.bindings.filter (·.name = name) = [b] := by
  have honly : ∀ b' ∈ f.bindings.filter (·.name = name), b' = b := by
    intro b' hmem
    obtain ⟨hmem, hname⟩ := List.mem_filter.mp hmem
    have hfind' := hf.find?_eq_some_iff.mpr ⟨hmem, of_decide_eq_true hname⟩
    exact Option.some.inj (hfind'.symm.trans hfind)
  have hmem : b ∈ f.bindings.filter (·.name = name) := by
    obtain ⟨hmem, hname⟩ := hf.find?_eq_some_iff.mp hfind
    exact List.mem_filter.mpr ⟨hmem, decide_eq_true hname⟩
  have hnodup : (f.bindings.filter (·.name = name)).Nodup := (hf.nodup.of_map _).filter _
  rw [List.eq_replicate_iff.mpr ⟨rfl, honly⟩] at hnodup hmem ⊢
  have hle := List.nodup_replicate.mp hnodup
  have hpos := List.length_pos_of_mem hmem
  rw [List.length_replicate] at hpos
  rw [Nat.le_antisymm hle hpos]
  rfl

namespace Tracker

variable {t : Tracker} {name : String} {b b' : Binding}

/-- The current function has its own name, which stands at `place`. -/
structure HasOwn (t : Tracker) (name : String) (b : Binding) (place : Position) : Prop where
  indexed : ∀ i, (t.frame i).Indexed
  function_lt : t.functionId < t.frames.size
  find? : (t.frame t.functionId).find? name = some b
  own : b.declaration = .own name place

/-- What a frame declares under a name is one binding, whatever is known of its uses. -/
def Declares (t : Tracker) (i : Nat) (name : String) (b : Binding) : Prop :=
  ((t.frame i).bindings.filter (·.name = name)).map Binding.declaration = [b]

theorem declares_modify {i : Nat} (hi : i < t.frames.size) (hindexed : (t.frame i).Indexed)
    (hfind : (t.frame i).find? name = some b) {change : Binding → Binding}
    (hname : (change b).name = b.name) (hchange : (change b).declaration = b') :
    (t.modifyFrame i (·.modify name change)).Declares i name b' := by
  have hindexed' : ((t.frame i).modify name change).Indexed := by
    refine hindexed.modify fun b' hfind' => ?_
    obtain rfl : b = b' := Option.some.inj (hfind.symm.trans hfind')
    exact hname
  have hfind' : ((t.frame i).modify name change).find? name = some (change b) := by
    rw [hindexed.find?_modify, if_pos rfl, hfind, Option.map_some]
  rw [Declares, frame_modifyFrame, if_pos ⟨rfl, hi⟩, hindexed'.filter_name hfind',
    List.map_singleton, hchange]

end Tracker

namespace Action

/-- The action succeeds without a report, and the tracker after it satisfies `post`. -/
def Quietly (action : Action Unit) (s : Session) (post : Tracker → Prop) : Prop :=
  ∃ t', action.run.run s = (.ok (), ⟨t', s.sink⟩) ∧ post t'

variable {s : Session}

namespace Quietly

variable {post : Tracker → Prop}

theorem pure (hpost : post s.tracker) : Quietly (Pure.pure ()) s post := ⟨s.tracker, rfl, hpost⟩

theorem update {change : Tracker → Tracker} (hpost : post (change s.tracker)) :
    (update change).Quietly s post := ⟨change s.tracker, rfl, hpost⟩

theorem tracker_bind {next : Tracker → Action Unit} (hnext : (next s.tracker).Quietly s post) :
    (tracker >>= next).Quietly s post := hnext

theorem update_bind {change : Tracker → Tracker} {next : Action Unit}
    (hnext : next.Quietly { s with tracker := change s.tracker } post) :
    (Action.update change >>= fun _ => next).Quietly s post := hnext

end Quietly

variable {name : String} {b : Binding} {place : Position}

/-- A lexical declaration makes another binding of the name. -/
theorem declareLexical_quietly (hs : s.tracker.HasOwn name b place)
    (hcurrent : s.tracker.currentId = s.tracker.functionId) (kind : BindingKind)
    (position : Position) :
    (declareLexical name kind position).Quietly s (·.Declares s.tracker.functionId name
      { name, kind, declaredAt := position, initializedAt := afterName name position }) := by
  have himplicit : b.implicit = true := (congrArg Binding.implicit hs.own :)
  refine .tracker_bind ?_
  dsimp only
  rw [hcurrent, hs.find?]
  dsimp only
  rw [if_pos himplicit]
  refine .update (Tracker.declares_modify hs.function_lt (hs.indexed _) hs.find? rfl ?_)
  exact congrArg (fun b : Binding => { b with
    kind, implicit := false, declaredAt := position
    initializedAt := afterName name position }) hs.own

/-- So does a parameter. -/
theorem declareParameter_quietly (hs : s.tracker.HasOwn name b place) (position : Position)
    (distinct : Bool) :
    (declareParameter name position distinct).Quietly s (·.Declares s.tracker.functionId name
      { name, kind := .parameter, declaredAt := position
        initializedAt := afterName name position }) := by
  have himplicit : b.implicit = true := (congrArg Binding.implicit hs.own :)
  refine .tracker_bind ?_
  dsimp only
  rw [hs.find?]
  dsimp only
  rw [if_pos himplicit]
  refine .update (Tracker.declares_modify hs.function_lt (hs.indexed _) hs.find? rfl ?_)
  exact congrArg (fun b : Binding => { b with
    kind := .parameter, implicit := false, declaredAt := position
    initializedAt := afterName name position }) hs.own

/-- A `var` or a function keeps the binding, but for its being implicit. -/
theorem declareHoisted_quietly (hs : s.tracker.HasOwn name b place)
    (hpasses : (s.tracker.innerIds.any fun id => (s.tracker.frame id).blocksVar name) = false)
    (kind : BindingKind) (position : Position) :
    (declareHoisted name kind position).Quietly s (·.Declares s.tracker.functionId name
      { name, kind := .function, declaredAt := place }) := by
  have hkind : b.kind = .function := (congrArg Binding.kind hs.own :)
  have hblock : b.block? = none := (congrArg Binding.block? hs.own :)
  have himplicit : b.implicit = true := (congrArg Binding.implicit hs.own :)
  have hgrows := Tracker.hoistAll_grows name s.tracker.innerIds_subset_stack
  have hfind := (Tracker.find?_hoistAll name s.tracker.innerIds s.tracker s.tracker.functionId
    name).trans hs.find?
  refine .tracker_bind ?_
  dsimp only
  rw [hpasses, if_neg Bool.false_ne_true]
  refine .update_bind ?_
  rw [hs.find?]
  dsimp only
  -- The name is that of a function, but no earlier declaration.
  rw [if_neg (by simp [hkind, BindingKind.isLexical])]
  refine .update_bind ?_
  rw [himplicit, if_neg (by simp)]
  refine .pure (Tracker.declares_modify (hgrows.size ▸ hs.function_lt)
    ((hgrows.frame _).indexed (hs.indexed _)) hfind rfl ?_)
  rw [hkind, hblock, ite_self, ite_self]
  have hown := congrArg (fun b : Binding => { b with
    kind := .function, block? := none, implicit := false }) hs.own
  exact hown

end Action

namespace Operation

/-- In a run from the beginning of a program, any declaration that comes to a function which has the
name as its own only is neither rejected nor remarked on, and the function has one binding of the
name then. It is as if the name had been free, unless a `var` or a function was declared: then the
name is still that of a function, at the place where it stood last. -/
theorem own_name_taken_over {known : KnownGlobals} {rules : Rules} {module strict : Bool}
    {sink : Sink} {operations : List Operation} {s : Session}
    (hopen : keepOpen (if module then 2 else 1) operations)
    (hrun : (performAll operations).run.run ⟨.start known rules module strict, sink⟩ = (.ok (), s))
    {name : String} {b : Binding} (hfind : s.tracker.functionFrame.find? name = some b)
    (himplicit : b.implicit = true) {operation : Operation} {kind : BindingKind}
    {position : Position} (hdeclared : operation.declared? = some (name, kind, position))
    (hcomes : s.tracker.comesToFunction name kind = true) :
    ∃ place, (addEntries ownName? operations ⟨.start known rules module strict, sink⟩
        (fun _ _ => []) s.tracker.functionId name).getLast? = some place ∧
      ∃ t', operation.perform.run.run s = (.ok (), ⟨t', s.sink⟩) ∧
        ((t'.frame s.tracker.functionId).bindings.filter (·.name = name)).map Binding.declaration =
          [.takeover name place kind position] := by
  obtain ⟨log, -, hsteps, hstack⟩ := exists_log_of_performAll hopen hrun
  have horderly := (Stage.Orderly.start known rules strict).steps hsteps
  have htracks := ownChronicle.performed hopen hrun
  obtain ⟨place, hplace, hown⟩ := htracks _ name b hfind himplicit
  have hname : b.name = name := ((horderly.indexed _).find?_eq_some_iff.mp hfind).2
  have hs : s.tracker.HasOwn name b place :=
    ⟨horderly.indexed, horderly.arena.stack_lt _ (Tracker.functionId_mem_stack hstack), hfind,
      hname ▸ hown⟩
  refine ⟨place, hplace, ?_⟩
  cases operation with
  | declare name' kind' position' =>
      cases hdeclared
      cases kind with
      | varName | function =>
          exact Action.declareHoisted_quietly hs ((Bool.not_eq_true' _).mp hcomes) _ position
      | parameter => exact Action.declareParameter_quietly hs position false
      | _ => exact Action.declareLexical_quietly hs (of_decide_eq_true hcomes) _ position
  | declareParameter name' position' distinct =>
      cases hdeclared
      exact Action.declareParameter_quietly hs position distinct
  | _ => cases hdeclared

/-- What happens up to the body of `function f() {}`, an expression. -/
def namedFunction : List Operation :=
  [.enterFunction { name := "f" } ⟨1, 5, 4⟩, .declareFunctionName "f" ⟨1, 14, 13⟩]

/-- In its body, the name is still that of the function after `var f`. -/
theorem own_name_taken_over_namedFunction :
    ∃ s t', (performAll namedFunction).run.run
        ⟨.start {} (.ofOptions {}) false false, .start 50 1 (.ofList [])⟩ = (.ok (), s) ∧
      (declare "f" .varName ⟨1, 24, 23⟩).perform.run.run s = (.ok (), ⟨t', s.sink⟩) ∧
      ((t'.frame 1).bindings.filter (·.name = "f")).map Binding.declaration =
        [{ name := "f", kind := .function, declaredAt := ⟨1, 14, 13⟩ }] := by
  have hrun : (performAll namedFunction).run.run
      ⟨.start {} (.ofOptions {}) false false, .start 50 1 (.ofList [])⟩ = (.ok (), _) :=
    Prod.ext (by decide +kernel) rfl
  have hdeclared : (declare "f" .varName ⟨1, 24, 23⟩).declared? = some ("f", .varName, _) := rfl
  have htaken := own_name_taken_over (by decide) hrun
    (show _ = some (Binding.own "f" ⟨1, 14, 13⟩) by decide +kernel) rfl hdeclared
    (by decide +kernel)
  obtain ⟨place, hplace, t', hdeclare, hbinding⟩ := htaken
  obtain rfl : ⟨1, 14, 13⟩ = place := by
    refine Option.some.inj (Eq.trans ?_ hplace)
    decide +kernel
  exact ⟨_, t', hrun, hdeclare, hbinding⟩

end Operation

end ScriptLint.Scope

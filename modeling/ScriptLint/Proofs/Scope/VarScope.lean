import ScriptLint.Proofs.Scope.Chronicle

/-! # The scopes that declare a variable

A `var` may be declared any number of times and in different scopes of a function. Its binding keeps
only the first of these scopes, or none once the function itself is among them, and it is this one
scope that uses of the variable are held against.
-/

namespace ScriptLint.Scope

/-- The block of a `var`. -/
@[reducible] def varBlock : Aspect (Option Nat) where
  Has kind := kind = .varName
  value := Binding.block?
  no_function := nofun
  settled h := (congrArg Binding.block? h :)

/-! ## The scopes of declarations -/

namespace Tracker

/-- Whether a `var` of the name is rejected. -/
def refusesVar (t : Tracker) (name : String) : Bool :=
  (t.innerIds.any fun i => (t.frame i).blocksVar name) ||
    (t.functionFrame.find? name).any fun b => b.kind.isLexical || b.kind = .imported

theorem markInitialized_retains {t : Tracker} (hindexed : ∀ i, (t.frame i).Indexed) (name : String)
    (offset : Nat) : t.Retains varBlock (t.markInitialized name offset) := by
  unfold markInitialized
  split
  next => exact .refl t
  next =>
    refine .modifyFrame (.modify (hindexed _) name fun b _ => ?_)
    split <;> exact fun hkind => ⟨hkind, rfl⟩

end Tracker

/-- The scope in which an operation declares a `var`, for the function in which that comes to
rest. -/
def Operation.varScope? (t : Tracker) : Operation → Option (Entry Nat)
  | declare name .varName _ =>
    if t.refusesVar name then none else some ⟨t.functionId, name, t.currentId⟩
  | _ => none

/-- What a name is bound to agrees with the scopes that declare a `var` of the name: the block of a
`var` is the first of them, unless the frame itself is one. -/
structure VarAgrees (f : Nat) (bound : Option Binding) (scopes : List Nat) : Prop where
  unbound : bound = none → scopes = []
  bound : ∀ b, bound = some b → b.kind = .varName →
    scopes ≠ [] ∧ b.block? = if f ∈ scopes then none else scopes.head?

theorem VarAgrees.of_some {f : Nat} {b : Binding} {scopes : List Nat} (hvar : b.kind = .varName →
    scopes ≠ [] ∧ b.block? = if f ∈ scopes then none else scopes.head?) :
    VarAgrees f (some b) scopes where
  unbound hnone := by cases hnone
  bound _ hsome := Option.some.inj hsome ▸ hvar

theorem VarAgrees.of_keeps {before after : Option Binding} (hkeeps : varBlock.Keeps before after)
    {f : Nat} {scopes : List Nat} (h : VarAgrees f before scopes) : VarAgrees f after scopes where
  unbound hnone := h.unbound (hkeeps.of_none hnone)
  bound b' hsome hkind := by
    obtain ⟨b, hsome', hkind', hblock⟩ := hkeeps.of_some b' hsome hkind
    exact (show b.block? = b'.block? from hblock) ▸ h.bound b hsome' hkind'

namespace Tracker

variable {t t' : Tracker} {scopes : Entries Nat}

theorem Retains.varTracks (hretains : t.Retains varBlock t') (ht : t.Tracks VarAgrees scopes) :
    t'.Tracks VarAgrees scopes :=
  fun f name => (ht f name).of_keeps (hretains f name)

end Tracker

namespace Action

variable {t : Tracker} {scopes : Entries Nat} {name : String} {position : Position}

theorem declareHoisted_varTracks (harena : t.Arena) (hstack : t.stack ≠ [])
    (hindexed : ∀ i, (t.frame i).Indexed) (ht : t.Tracks VarAgrees scopes) {kind : BindingKind}
    (hkind : kind = .varName ∨ kind = .function) :
    (declareHoisted name kind position).Ensures t fun _ t' => t'.Tracks VarAgrees
      ((Operation.declare name kind position).addEntry Operation.varScope? t scopes) := by
  have hgrows := Tracker.hoistAll_grows name t.innerIds_subset_stack
  have hfind := Tracker.find?_hoistAll name t.innerIds t
  have hhoisted : (t.hoistAll name t.innerIds).Tracks VarAgrees scopes :=
    Tracker.Retains.varTracks (fun i name' => .of_eq (hfind i name')) ht
  have hindexed' := (hgrows.frame t.functionId).indexed (hindexed _)
  have htarget : t.functionId < (t.hoistAll name t.innerIds).frames.size := by
    rw [hgrows.size]
    exact harena.stack_lt _ (Tracker.functionId_mem_stack hstack)
  have hrefused (h : t.refusesVar name = true) :
      (Operation.declare name kind position).addEntry Operation.varScope? t scopes = scopes := by
    refine Operation.addEntry_of_none ?_
    rcases hkind with rfl | rfl
    · exact if_pos h
    · rfl
  have hfree (h : t.refusesVar name = false) :
      (Operation.declare name .varName position).addEntry Operation.varScope? t scopes =
        scopes.add ⟨t.functionId, name, t.currentId⟩ :=
    Operation.addEntry_of_some (if_neg (by simp [h]))
  refine declareHoisted_ensures (fun hblocked => ?_)
    fun hpassed => ⟨fun hnone => ?_, fun b hb => ?_⟩
  · rw [hrefused (by simp [Tracker.refusesVar, hblocked])]
    exact ht
  · have hnew : ((t.hoistAll name t.innerIds).frame t.functionId).binds name = false := by
      simp [Frame.binds, hfind, hnone]
    have hinsert {b : Binding} (hname : b.name = name) :=
      hname ▸ hindexed'.find?_insert (b := b) (hname.symm ▸ hnew)
    rcases hkind with rfl | rfl
    · rw [hfree (by simp [Tracker.refusesVar, Tracker.functionFrame, hnone, hpassed])]
      refine hhoisted.add htarget (hinsert rfl) (.of_some fun _ => ?_)
      simp [(ht t.functionId name).unbound hnone, Tracker.innerBlock?, eq_comm]
    · refine hhoisted.modifyFrame htarget (hinsert rfl) (fun _ _ _ => rfl) (.of_some ?_)
      rintro ⟨⟩
  · split
    next hrejected =>
      rw [hrefused (by simp [Tracker.refusesVar, Tracker.functionFrame, hb, hrejected])]
      exact hhoisted
    next haccepted =>
      have hmodify (merged : Binding) (name' : String) := calc
        _ = _ := hindexed'.find?_modify name (fun _ => merged) name'
        _ = if name' = name then some merged else _ := by rw [hfind, hb, Option.map_some]
      rcases hkind with rfl | rfl
      · rw [hfree (by simp [Tracker.refusesVar, Tracker.functionFrame, hb, hpassed, haccepted])]
        refine hhoisted.add htarget (hmodify _) (.of_some fun hvar => ?_)
        obtain ⟨hne, hblock⟩ := (ht t.functionId name).bound b hb hvar
        refine ⟨List.append_ne_nil_of_right_ne_nil _ (List.cons_ne_nil _ _), ?_⟩
        dsimp only
        rw [hblock, List.head?_append_of_ne_nil _ hne]
        by_cases hdirect : t.currentId = t.functionId <;>
          simp [Tracker.innerBlock?, hdirect, eq_comm]
      · -- The name of a function is no `var` any more.
        refine hhoisted.modifyFrame htarget (hmodify _) (fun _ _ _ => rfl) (.of_some ?_)
        rintro ⟨⟩

end Action

/-- The blocks of variables keep to the scopes in which operations declare them. -/
theorem varChronicle : Chronicle Operation.varScope? VarAgrees where
  unbound _ := ⟨fun _ => rfl, nofun⟩
  finish ht := Action.finish_retains.mono fun _ _ hretains => hretains.varTracks ht
  perform {t log scopes} hs hstack ht operation := by
    have hkeep {action : Action Unit}
        (haction : action.Ensures t fun _ t' => t.Retains varBlock t') :
        action.Ensures t fun _ t' => t'.Tracks VarAgrees scopes :=
      haction.mono fun _ t' hretains => hretains.varTracks ht
    cases operation with
    | declare name kind position =>
        cases kind with
        | varName =>
            exact Action.declareHoisted_varTracks hs.arena hstack hs.indexed ht (.inl rfl)
        | function =>
            exact Action.declareHoisted_varTracks hs.arena hstack hs.indexed ht (.inr rfl)
        | parameter =>
            exact hkeep (Action.declareParameter_retains hs.indexed name (by decide) position false)
        | _ => exact hkeep (Action.declareLexical_retains hs.indexed name (by decide) position)
    | declareParameter name position distinct =>
        exact hkeep (Action.declareParameter_retains hs.indexed name (by decide) position distinct)
    | markInitialized name offset =>
        exact hkeep (.update (Tracker.markInitialized_retains hs.indexed name offset))
    | _ => exact hkeep (Operation.perform_retains hs.indexed rfl)

/-! ## Uses of variables -/

namespace Tracker

variable {t : Tracker} {scopes : Entries Nat}

/-- Uses of a variable are held against the first scope that declares it. -/
theorem Tracks.outside_iff (ht : t.Tracks VarAgrees scopes) (id f : Nat) (place : Nat × Nat) :
    t.resolver? id = some f ∧ t.Faulty .outside id f (t.crosses id) place ↔
      (t.reference id).position.place = place ∧ t.Uses varBlock id f ∧
        f ∉ scopes f (t.reference id).name ∧ ∃ first,
          (scopes f (t.reference id).name).head? = some first ∧
            t.isWithin (t.reference id).origin first = false := by
  have hagrees := ht f (t.reference id).name
  constructor
  · rintro ⟨hresolver, b, hfind, ⟨hvar, hcrossed, block, hblock, hwithin⟩, hplace⟩
    obtain ⟨hne, hfirst⟩ := hagrees.bound b hfind hvar
    rw [hblock] at hfirst
    split at hfirst
    · cases hfirst
    · exact ⟨hplace, ⟨hresolver, hcrossed, b, hfind, hvar⟩, ‹_›, block, hfirst.symm, hwithin⟩
  · rintro ⟨hplace, ⟨hresolver, hcrossed, b, hfind, hvar⟩, hdirect, first, hfirst, hwithin⟩
    obtain ⟨hne, hblock⟩ := hagrees.bound b hfind hvar
    rw [if_neg hdirect, hfirst] at hblock
    exact ⟨hresolver, b, hfind, ⟨hvar, hcrossed, first, hblock, hwithin⟩, hplace⟩

end Tracker

open Operation in
/-- In a run that comes to its end, with nothing dropped, uses out of scope are told of exactly the
places of those uses of a `var` that lie outside the first scope that declares it, unless the
function declares it directly. What other scopes declare it does not matter. -/
theorem told_outside_iff {known : KnownGlobals} {rules : Rules} {module strict : Bool}
    {limit totalLines : Nat} {disabled : Text.NameSet} {operations : List Operation} {s : Session}
    (hopen : keepOpen (if module then 2 else 1) operations)
    (hfuncscope : rules.funcscope = false) (henabled : disabled.contains "W038" = false)
    (hrespects : ∀ operation ∈ operations, operation.Respects .outside)
    (hrun : (performAll operations >>= fun _ => Action.finish).run.run
      ⟨.start known rules module strict, .start limit totalLines disabled⟩ = (.ok (), s))
    (hlive : s.sink.isHalted = false) (place : Nat × Nat) :
    let scopes := addEntries varScope? operations
      ⟨.start known rules module strict, .start limit totalLines disabled⟩ fun _ _ => []
    s.sink.Tells "W038" place ↔ ∃ id < s.tracker.references.size,
      (s.tracker.reference id).position.place = place ∧ ∃ f, s.tracker.Uses varBlock id f ∧
        f ∉ scopes f (s.tracker.reference id).name ∧ ∃ first,
          (scopes f (s.tracker.reference id).name).head? = some first ∧
            s.tracker.isWithin (s.tracker.reference id).origin first = false := by
  have htracks := varChronicle.finished hopen hrun
  refine (Fault.told_iff .outside hopen hfuncscope henabled hrespects hrun hlive place).trans ?_
  refine exists_congr fun id => and_congr_right fun _ => ?_
  simp only [htracks.outside_iff, exists_and_left]

/-- What happens in `{ var i } { var i; i }`, where the use is inside the second declaration. -/
def siblingBlocks : List Operation :=
  [.enterScope .block ⟨1, 1, 0⟩, .declare "i" .varName ⟨1, 7, 6⟩, .exitScope,
    .enterScope .block ⟨1, 11, 10⟩, .declare "i" .varName ⟨1, 17, 16⟩,
    .addReference "i" ⟨1, 20, 19⟩ .read, .exitScope]

theorem told_outside_siblingBlocks :
    ∃ s : Session, (Operation.performAll siblingBlocks >>= fun _ => Action.finish).run.run
        ⟨.start {} (.ofOptions {}) false false, .start 50 1 (.ofList [])⟩ = (.ok (), s) ∧
      s.tracker.isWithin (s.tracker.reference 0).origin 2 ∧
      Operation.addEntries Operation.varScope? siblingBlocks
        ⟨.start {} (.ofOptions {}) false false, .start 50 1 (.ofList [])⟩ (fun _ _ => []) 0 "i" =
          [1, 2] ∧
      s.sink.Tells "W038" (1, 20) := by
  have hrun : (Operation.performAll siblingBlocks >>= fun _ => Action.finish).run.run
      ⟨.start {} (.ofOptions {}) false false, .start 50 1 (.ofList [])⟩ = (.ok (), _) :=
    Prod.ext (by decide +kernel) rfl
  have hrespects : ∀ operation ∈ siblingBlocks, operation.Respects .outside := by
    simp [siblingBlocks, Operation.Respects]
  have htold := told_outside_iff (by decide) rfl (by decide +kernel) hrespects hrun
    (by decide +kernel) (1, 20)
  refine ⟨_, hrun, by decide +kernel, by decide +kernel, htold.mpr ?_⟩
  refine ⟨0, by decide +kernel, by decide +kernel, 0, ⟨?_, ?_, ?_⟩, ?_, 1, ?_, ?_⟩
  · decide +kernel
  · decide +kernel
  · exact ⟨⟨"i", .varName, ⟨1, 7, 6⟩, 0, none, true, some 1, false⟩, by decide +kernel, rfl⟩
  · decide +kernel
  · decide +kernel
  · decide +kernel

end ScriptLint.Scope

import ScriptLint.Proofs.Scope.Arena
import ScriptLint.Proofs.Scope.Stepwise

/-! # What scope analysis does to the tracker

A calculus of postconditions for actions that succeed. The sink has no say in it: what a report
leaves behind in the tracker does not depend on whether it is dropped. The first use is that
declarations of all kinds only make open frames grow.
-/

namespace ScriptLint.Scope

namespace Tracker

variable {t t' : Tracker}

theorem currentId_mem_stack (hstack : t.stack ≠ []) : t.currentId ∈ t.stack := by
  unfold currentId
  cases h : t.stack with
  | nil => exact absurd h hstack
  | cons i rest => exact List.mem_cons_self

theorem upToFunction_subset (t : Tracker) (ids : List Nat) : t.upToFunction ids ⊆ ids := by
  induction ids with
  | nil => exact List.Subset.refl _
  | cons i ids ih =>
      unfold upToFunction
      split
      · simp
      · exact List.cons_subset_cons i ih

theorem upToFunction_ne_nil {ids : List Nat} (hids : ids ≠ []) : t.upToFunction ids ≠ [] := by
  cases ids with
  | nil => exact absurd rfl hids
  | cons i ids =>
      unfold upToFunction
      split <;> simp

theorem functionId_mem_stack (hstack : t.stack ≠ []) : t.functionId ∈ t.stack := by
  have hids : t.functionIds ≠ [] := upToFunction_ne_nil hstack
  unfold functionId
  rw [List.getLastD_eq_getLast?, List.getLast?_eq_some_getLast hids]
  exact t.upToFunction_subset t.stack (List.getLast_mem hids)

theorem innerIds_subset_stack (t : Tracker) : t.innerIds ⊆ t.stack :=
  fun _ hmem => t.upToFunction_subset t.stack (List.dropLast_subset _ hmem)

/-- Changing the frame of the current function lets the tracker grow if it lets the frame grow. -/
theorem Grows.modifyFunction (hstack : t.stack ≠ []) {change : Frame → Frame}
    (hchange : ∀ f : Frame, f.Grows (change f)) : t.Grows (t.modifyFunction change) :=
  .modifyFrame (functionId_mem_stack hstack) (hchange _)

/-- The block of the current function that is read, if any. -/
def innerBlock? (t : Tracker) : Option Nat :=
  if t.currentId = t.functionId then none else some t.currentId

/-- The tracker after a name has passed through frames. -/
def hoistAll (name : String) (ids : List Nat) (t : Tracker) : Tracker :=
  ids.foldl (fun t id => t.modifyFrame id (·.hoist name)) t

theorem hoistAll_grows (name : String) {ids : List Nat} (hids : ids ⊆ t.stack) :
    t.Grows (t.hoistAll name ids) := by
  induction ids generalizing t with
  | nil => exact .refl t
  | cons i ids ih =>
      obtain ⟨hi, hids⟩ := List.cons_subset.mp hids
      exact (Grows.modifyFrame hi (.hoist _ name)).trans (ih hids)

theorem find?_hoistAll (name : String) (ids : List Nat) (t : Tracker) (i : Nat) (name' : String) :
    ((t.hoistAll name ids).frame i).find? name' = (t.frame i).find? name' := by
  induction ids generalizing t with
  | nil => rfl
  | cons j ids ih =>
      refine (ih (t.modifyFrame j (·.hoist name))).trans ?_
      rw [frame_modifyFrame]
      split
      next h =>
        obtain ⟨rfl, -⟩ := h
        unfold Frame.hoist
        split <;> rfl
      next => rfl

end Tracker

namespace Action

variable {α β : Type} {t : Tracker} {post : α → Tracker → Prop}

/-- Whenever the action succeeds on the tracker, with any sink, its answer and the tracker after it
satisfy `post`. -/
def Ensures (action : Action α) (t : Tracker) (post : α → Tracker → Prop) : Prop :=
  ∀ sink a s, action.run.run ⟨t, sink⟩ = (.ok a, s) → post a s.tracker

namespace Ensures

theorem mono {action : Action α} {post' : α → Tracker → Prop} (haction : action.Ensures t post')
    (himp : ∀ a t', post' a t' → post a t') : action.Ensures t post :=
  fun sink a s hrun => himp a s.tracker (haction sink a s hrun)

theorem and {action : Action α} {post' : α → Tracker → Prop} (haction : action.Ensures t post)
    (haction' : action.Ensures t post') : action.Ensures t fun a t' => post a t' ∧ post' a t' :=
  fun sink a s hrun => ⟨haction sink a s hrun, haction' sink a s hrun⟩

theorem pure {a : α} (hpost : post a t) : Ensures (Pure.pure a : Action α) t post := by
  rintro sink a' s ⟨⟩
  exact hpost

theorem bind {first : Action α} {next : α → Action β} {post : β → Tracker → Prop}
    (hfirst : first.Ensures t fun a t' => (next a).Ensures t' post) :
    (first >>= next).Ensures t post := by
  intro sink b s hrun
  rw [run_bind] at hrun
  rcases hmiddle : first.run.run ⟨t, sink⟩ with ⟨reason | a, s'⟩ <;> rw [hmiddle] at hrun
  · cases hrun
  · exact hfirst sink a s' hmiddle s'.sink b s hrun

theorem tracker {post : Tracker → Tracker → Prop} (hpost : post t t) :
    Ensures tracker t post := by
  rintro sink a s ⟨⟩
  exact hpost

theorem update {change : Tracker → Tracker} {post : Unit → Tracker → Prop}
    (hpost : post () (change t)) : (update change).Ensures t post := by
  rintro sink a s ⟨⟩
  exact hpost

theorem report {code : String} {position : Position} {arguments : List String} {scope : String}
    {hcode : Halt.IsRegular code} {post : Unit → Tracker → Prop} (hpost : post () t) :
    (report code position arguments scope hcode).Ensures t post := by
  intro sink a s hrun
  rw [run_report] at hrun
  obtain ⟨-, rfl⟩ := Prod.mk.inj hrun
  exact hpost

theorem ite {c : Prop} [Decidable c] {first second : Action α} (hfirst : c → first.Ensures t post)
    (hsecond : ¬ c → second.Ensures t post) : (if c then first else second).Ensures t post := by
  split
  next hc => exact hfirst hc
  next hc => exact hsecond hc

/-- What each round of a loop takes from the items that are left to those after it holds in the end
of none. -/
theorem forM (inv : List α → Tracker → Prop) {items : List α} {step : α → Action PUnit}
    (hstart : inv items t)
    (hstep : ∀ a rest t, inv (a :: rest) t → (step a).Ensures t fun _ t' => inv rest t') :
    (items.forM step).Ensures t fun _ t' => inv [] t' := by
  induction items generalizing t with
  | nil => exact .pure hstart
  | cons a rest ih => exact .bind ((hstep a rest t hstart).mono fun _ _ hrest => ih hrest)

end Ensures

/-! ## Declarations -/

theorem checkNew_ensures {name : String} {target : Nat} {position : Position}
    {post : Unit → Tracker → Prop} (hpost : post () t) :
    (checkNew name target position).Ensures t post := by
  unfold checkNew
  refine .bind (.tracker ?_)
  -- The second check follows the first, whether that reports or not.
  have hrest : (if t.rules.shadow = .outer && t.isShadowing name target then
      Action.report "W123" position [name] t.functionName else Pure.pure ()).Ensures t post :=
    .ite (fun _ => .report hpost) fun _ => .pure hpost
  exact .ite (fun _ => .bind (.report hrest)) fun _ => hrest

theorem bindNew_ensures {target : Nat} {binding : Binding} {post : Unit → Tracker → Prop}
    (hpost : post () (t.modifyFrame target (·.insert binding))) :
    (bindNew target binding).Ensures t post :=
  .bind (checkNew_ensures (.update hpost))

theorem reject_ensures {code name : String} {position : Position} {hcode : Halt.IsRegular code}
    {post : Unit → Tracker → Prop} (hpost : post () t) :
    (reject code name position hcode).Ensures t post :=
  .bind (.tracker (.report hpost))

/-- A `var` or a function passes through the inner frames, unless one of them blocks it; then it is
new in the function, or it joins what the function has under the name, or it is rejected there. -/
theorem declareHoisted_ensures {name : String} {kind : BindingKind} {position : Position}
    {post : Unit → Tracker → Prop}
    (hblocked : (t.innerIds.any fun id => (t.frame id).blocksVar name) = true → post () t)
    (hpassed : (t.innerIds.any fun id => (t.frame id).blocksVar name) = false →
      let hoisted := t.hoistAll name t.innerIds
      ((t.frame t.functionId).find? name = none →
        post () (hoisted.modifyFrame t.functionId (·.insert
          { name, kind, declaredAt := position, block? := t.innerBlock? }))) ∧
      ∀ b, (t.frame t.functionId).find? name = some b →
        if b.kind.isLexical || b.kind = .imported then post () hoisted
        else post () (hoisted.modifyFrame t.functionId (·.modify name fun _ =>
          { b with
            kind := if kind = .function then .function else b.kind
            block? := if t.innerBlock?.isNone then none else b.block?
            implicit := false }))) :
    (declareHoisted name kind position).Ensures t post := by
  refine .bind (.tracker (.ite (fun h => reject_ensures (hblocked h)) fun h => .bind (.update ?_)))
  obtain ⟨hnew, hfound⟩ := hpassed (Bool.eq_false_iff.mpr h)
  dsimp only
  split
  next hnone => exact bindNew_ensures (hnew hnone)
  next b hb =>
    refine .ite (fun hrejected => reject_ensures ?_) fun haccepted => .bind (.update ?_)
    · exact (if_pos hrejected).mp (hfound b hb)
    · have hmerged := (if_neg haccepted).mp (hfound b hb)
      exact .ite (fun _ => reject_ensures hmerged) fun _ => .pure hmerged

/-- A lexical declaration takes over an implicit binding, or it is new, or it is rejected. -/
theorem declareLexical_ensures {name : String} {kind : BindingKind} {position : Position}
    {post : Unit → Tracker → Prop}
    (htaken : ∀ b, (t.frame t.currentId).find? name = some b → b.implicit = true →
      post () (t.modifyFrame t.currentId (·.modify name fun b =>
        { b with
          kind, implicit := false, declaredAt := position
          initializedAt := afterName name position })))
    (hnew : (t.frame t.currentId).find? name = none →
      (t.frame t.currentId).hoisted.contains name = false →
        post () (t.modifyFrame t.currentId (·.insert
          { name, kind, declaredAt := position
            initializedAt := if kind.isLexical then afterName name position else 0 })))
    (hrejected : (∀ b, (t.frame t.currentId).find? name = some b → b.implicit = false) →
      ((t.frame t.currentId).find? name = none →
        (t.frame t.currentId).hoisted.contains name = true) → post () t) :
    (declareLexical name kind position).Ensures t post := by
  refine .bind (.tracker ?_)
  dsimp only
  split
  next b hb =>
    refine .ite (fun himplicit => .update (htaken b hb himplicit)) fun himplicit =>
      reject_ensures (hrejected (fun b' hb' => ?_) fun hnone => ?_)
    · obtain rfl : b = b' := Option.some.inj (hb.symm.trans hb')
      exact Bool.eq_false_iff.mpr himplicit
    · cases hb.symm.trans hnone
  next hnone =>
    refine .ite (fun hhoisted => reject_ensures (hrejected (fun b hb => ?_) fun _ => hhoisted))
      fun hfree => bindNew_ensures (hnew hnone (Bool.eq_false_iff.mpr hfree))
    cases hnone.symm.trans hb

/-- A function in a block is new, or it changes nothing. -/
theorem declareBlockFunction_ensures {name : String} {position : Position}
    {post : Unit → Tracker → Prop} (hsame : post () t)
    (hnew : (t.frame t.currentId).find? name = none →
      post () (t.modifyFrame t.currentId (·.insert
        { name, kind := .function, declaredAt := position }))) :
    (declareBlockFunction name position).Ensures t post := by
  refine .bind (.tracker ?_)
  dsimp only
  split
  next => exact .ite (fun _ => reject_ensures hsame) fun _ => .pure hsame
  next hnone => exact .ite (fun _ => reject_ensures hsame) fun _ => bindNew_ensures (hnew hnone)

/-- A parameter takes over an implicit binding, or it is new, or it is rejected. -/
theorem declareParameter_ensures {name : String} {position : Position} {distinct : Bool}
    {post : Unit → Tracker → Prop}
    (htaken : ∀ b, (t.frame t.functionId).find? name = some b → b.implicit = true →
      post () (t.modifyFrame t.functionId (·.modify name fun b =>
        { b with
          kind := .parameter, implicit := false, declaredAt := position
          initializedAt := afterName name position })))
    (hnew : (t.frame t.functionId).find? name = none →
      post () (t.modifyFrame t.functionId (·.insert
        { name, kind := .parameter, declaredAt := position
          initializedAt := afterName name position })))
    (hrejected : ∀ b, (t.frame t.functionId).find? name = some b → b.implicit = false →
      post () t) :
    (declareParameter name position distinct).Ensures t post := by
  refine .bind (.tracker ?_)
  dsimp only
  split
  next b hb =>
    refine .ite (fun himplicit => .update (htaken b hb himplicit)) fun himplicit => ?_
    have hsame := hrejected b hb (Bool.eq_false_iff.mpr himplicit)
    exact .ite (fun _ => reject_ensures hsame) fun _ => reject_ensures hsame
  next hnone => exact bindNew_ensures (hnew hnone)

theorem insert_grows {i : Nat} (hi : i ∈ t.stack) {b : Binding}
    (hnone : (t.frame i).find? b.name = none) (hunused : b.used = false) :
    t.Grows (t.modifyFrame i (·.insert b)) :=
  .modifyFrame hi (.insert (by simp [Frame.binds, hnone]) hunused)

/-- A binding may change in what concerns neither its name nor its use. -/
theorem modify_grows {i : Nat} (hi : i ∈ t.stack) {name : String} {existing : Binding}
    (hexisting : (t.frame i).find? name = some existing) {change : Binding → Binding}
    (hname : (change existing).name = existing.name)
    (hused : (change existing).used = existing.used) :
    t.Grows (t.modifyFrame i (·.modify name change)) := by
  refine .modifyFrame hi (.modify fun b hb => ?_)
  obtain rfl : existing = b := Option.some.inj (hexisting.symm.trans hb)
  exact ⟨hname, hused⟩

theorem declareHoisted_grows (hstack : t.stack ≠ []) (name : String) (kind : BindingKind)
    (position : Position) :
    (declareHoisted name kind position).Ensures t fun _ t' => t.Grows t' := by
  -- The name passes through the inner frames first, which changes no look-up.
  have hhoist := Tracker.hoistAll_grows name t.innerIds_subset_stack
  have htarget : t.functionId ∈ (t.hoistAll name t.innerIds).stack :=
    hhoist.stack ▸ Tracker.functionId_mem_stack hstack
  have hfind := Tracker.find?_hoistAll name t.innerIds t t.functionId name
  refine declareHoisted_ensures (fun _ => .refl t) fun _ => ⟨fun hnone => ?_, fun b hb => ?_⟩
  · exact hhoist.trans (insert_grows htarget (hfind.trans hnone) rfl)
  · split
    · exact hhoist
    · exact hhoist.trans (modify_grows htarget (hfind.trans hb) rfl rfl)

theorem declareLexical_grows (hstack : t.stack ≠ []) (name : String) (kind : BindingKind)
    (position : Position) :
    (declareLexical name kind position).Ensures t fun _ t' => t.Grows t' :=
  have htarget := Tracker.currentId_mem_stack hstack
  declareLexical_ensures (fun _ hb _ => modify_grows htarget hb rfl rfl)
    (fun hnone _ => insert_grows htarget hnone rfl) fun _ _ => .refl t

theorem declareBlockFunction_grows (hstack : t.stack ≠ []) (name : String) (position : Position) :
    (declareBlockFunction name position).Ensures t fun _ t' => t.Grows t' :=
  declareBlockFunction_ensures (.refl t) fun hnone =>
    insert_grows (Tracker.currentId_mem_stack hstack) hnone rfl

theorem declareParameter_grows (hstack : t.stack ≠ []) (name : String) (position : Position)
    (distinct : Bool) :
    (declareParameter name position distinct).Ensures t fun _ t' => t.Grows t' :=
  have htarget := Tracker.functionId_mem_stack hstack
  declareParameter_ensures (fun _ hb _ => modify_grows htarget hb rfl rfl)
    (fun hnone => insert_grows htarget hnone rfl) fun _ _ _ => .refl t

theorem declare_grows (hstack : t.stack ≠ []) (name : String) (kind : BindingKind)
    (position : Position) : (declare name kind position).Ensures t fun _ t' => t.Grows t' := by
  unfold declare
  split
  · exact declareHoisted_grows hstack name _ position
  · exact declareHoisted_grows hstack name _ position
  · exact declareParameter_grows hstack name position false
  · exact declareLexical_grows hstack name kind position

end Action

namespace Tracker

variable {t : Tracker}

theorem declareFunctionName_grows (hstack : t.stack ≠ []) (name : String) (position : Position) :
    t.Grows (t.declareFunctionName name position) := by
  refine .modifyFunction hstack fun f => ?_
  split
  next => exact .refl f
  next hnone => exact .insert (by simpa [Frame.binds] using hnone) rfl

theorem markInitialized_grows (name : String) (offset : Nat) :
    t.Grows (t.markInitialized name offset) := by
  unfold markInitialized
  split
  next => exact .refl t
  next i hi =>
    refine .modifyFrame (t.upToFunction_subset t.stack (List.mem_of_find?_eq_some hi))
      (.modify fun b _ => ?_)
    split <;> exact ⟨rfl, rfl⟩

end Tracker

end ScriptLint.Scope

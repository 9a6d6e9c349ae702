import Mathlib.Data.List.FinRange
import ScriptLint.Proofs.Scope.Unlimited

/-! # Notes on unused bindings

When a frame is closed its unused bindings are listed and, unless the rule is off, reported.
Whether a report is made does not show in the sink, which may drop it, so closing a frame is told
with notes: on the frame, and on each report next to where it is made. Without the notes it is
closing a frame again.
-/

namespace ScriptLint.Scope

variable {α β : Type}

/-! ## Which bindings are listed -/

/-- Whether the binding at a place is listed as unused. A parameter is listed according to the rule;
where that looks at its place, no later parameter may be used. -/
def IsListed (rule : UnusedRule) (exported : List String) (bindings : List Binding)
    (i : Fin bindings.length) : Prop :=
  (bindings.get i).used = false ∧ (bindings.get i).implicit = false ∧
    (bindings.get i).kind ≠ .exception ∧ (bindings.get i).name ∉ exported ∧
      ((bindings.get i).kind = .parameter →
        match rule with
        | .vars => False
        | .strict => True
        | .off | .lastParam =>
          ∀ j, i < j → (bindings.get j).kind = .parameter → (bindings.get j).used = false)

instance (rule : UnusedRule) (exported : List String) (bindings : List Binding)
    (i : Fin bindings.length) : Decidable (IsListed rule exported bindings i) := by
  unfold IsListed
  cases rule <;> infer_instance

theorem unusedBindings_cons (rule : UnusedRule) (exported : List String) (b : Binding)
    (rest : List Binding) : unusedBindings rule exported.contains (b :: rest) =
      if IsListed rule exported (b :: rest) (0 : Fin (rest.length + 1)) then
        b :: unusedBindings rule exported.contains rest
      else unusedBindings rule exported.contains rest := by
  have hlater : (∀ j : Fin (rest.length + 1), 0 < j → (b :: rest)[(j : Nat)].kind = .parameter →
      (b :: rest)[(j : Nat)].used = false) ↔
      ∀ b' ∈ rest, b'.kind = .parameter → b'.used = false := by
    rw [Fin.forall_fin_succ]
    simp [List.forall_mem_iff_getElem, Fin.forall_iff]
  have hlast : (!rest.any fun later => later.kind = .parameter && later.used) = true ↔
      ∀ b' ∈ rest, b'.kind = .parameter → b'.used = false := by
    simp
  have hown : (!b.isExempt exported.contains) = true ↔
      b.used = false ∧ b.implicit = false ∧ b.kind ≠ .exception ∧ b.name ∉ exported := by
    simp [Binding.isExempt, and_assoc]
  refine if_congr ?_ rfl rfl
  rw [Bool.and_eq_true, hown, Bool.or_eq_true, decide_eq_true_eq, ← imp_iff_not_or]
  cases rule <;> simp [IsListed, hlater, hlast, and_assoc]

theorem isListed_cons_succ (rule : UnusedRule) (exported : List String) (b : Binding)
    (rest : List Binding) (i : Fin rest.length) :
    IsListed rule exported (b :: rest) i.succ ↔ IsListed rule exported rest i := by
  have hlater : (∀ j : Fin (rest.length + 1), i.succ < j →
      (b :: rest)[(j : Nat)].kind = .parameter →
      (b :: rest)[(j : Nat)].used = false) ↔
      ∀ j : Fin rest.length, i < j → rest[(j : Nat)].kind = .parameter →
        rest[(j : Nat)].used = false := by
    rw [Fin.forall_fin_succ]
    simp
  cases rule <;> simp [IsListed, hlater]

/-- The bindings that are listed, in order, are those at the places that are listed. -/
theorem unusedBindings_eq (rule : UnusedRule) (exported : List String) (bindings : List Binding) :
    unusedBindings rule exported.contains bindings =
      ((List.finRange bindings.length).filter (IsListed rule exported bindings ·)).map
        bindings.get := by
  induction bindings with
  | nil => rfl
  | cons b rest ih =>
      have hrest : ((List.finRange rest.length).map Fin.succ).filter
          (IsListed rule exported (b :: rest) ·) =
            ((List.finRange rest.length).filter (IsListed rule exported rest ·)).map Fin.succ := by
        rw [List.filter_map]
        refine congrArg _ (List.filter_congr fun i _ => ?_)
        simp [isListed_cons_succ]
      have hplaces : List.finRange (b :: rest).length =
          (0 : Fin (rest.length + 1)) :: (List.finRange rest.length).map Fin.succ :=
        List.finRange_succ
      rw [unusedBindings_cons, hplaces, List.filter_cons, hrest, ih]
      split <;> simp_all

/-! ## Notes -/

/-- The report of an unused binding. -/
def UnusedBinding.remark (b : UnusedBinding) : Diagnostic :=
  { code := "W098", arguments := [b.name], position := b.position, scope := b.scope }

/-- What is noted when a frame is closed. -/
inductive Note where
  /-- The frame is closed, and these names are exported by then. -/
  | closed (frame : Nat) (exported : List String)
  /-- A report is made, whether the sink takes it or not. -/
  | reported (d : Diagnostic)

/-- The frame that is closed, with the exported names. -/
def Note.closing? : Note → Option (Nat × List String)
  | closed frame exported => some (frame, exported)
  | reported _ => none

/-- The report that is made. -/
def Note.report? : Note → Option Diagnostic
  | closed _ _ => none
  | reported d => some d

/-- An action that keeps notes, the newest last. -/
abbrev Noted (α : Type) := StateT (List Note) Action α

namespace Noted

def note (n : Note) : Noted Unit := modify (· ++ [n])

/-- Report to the sink and note the report. -/
def report (code : String) (position : Position) (arguments : List String) (scope : String)
    (hcode : Halt.IsRegular code := by decide) : Noted Unit := do
  note (.reported { code, arguments, position, scope })
  Action.report code position arguments scope hcode

theorem isRegular_unused : Halt.IsRegular "W098" := by decide

/-- List the unused bindings of a closed frame. -/
def reportUnused (frame : Nat) : Noted Unit := do
  let t ← Action.tracker
  note (.closed frame t.exported)
  let scope := t.functionNameOf frame
  let found := unusedBindings t.rules.unused t.exported.contains (t.frame frame).bindings
  found.forM fun b => do
    Action.update fun t => { t with unused := t.unused ++ [⟨b.name, b.kind, b.declaredAt, scope⟩] }
    if t.rules.unused ≠ .off then report "W098" b.declaredAt [b.name] scope isRegular_unused

/-- Close the innermost frame. -/
def exitScope : Noted Unit := do
  let t ← Action.tracker
  match t.stack with
  | [] => pure ()
  | id :: stack =>
    Action.update fun t => { t with stack }.modifyFrame id fun f => { f with state := .closing }
    Action.resolveAll id
    Action.update (·.modifyFrame id fun f => { f with state := .closed })
    reportUnused id

/-- Close all frames, the global one last. -/
def finish : Noted Unit := do
  let t ← Action.tracker
  t.stack.forM fun _ => exitScope

end Noted

namespace Operation

/-- Perform an operation and note what becomes of unused bindings. -/
def noted : Operation → Noted Unit
  | exitScope => Noted.exitScope
  | operation => operation.perform

/-- Perform operations in turn and note what becomes of unused bindings. -/
def notedAll (operations : List Operation) : Noted Unit := operations.forM noted

end Operation

/-! ## Notes change nothing -/

namespace Noted

/-- The action with notes is the action without them. -/
def Erases (noted : Noted α) (action : Action α) : Prop :=
  ∀ notes, Prod.fst <$> noted.run notes = action

namespace Erases

theorem exists_notes {noted : Noted α} {action : Action α} (hnoted : Erases noted action)
    {a : α} {s s' : Session} (hrun : action.run.run s = (.ok a, s')) (notes : List Note) :
    ∃ notes', (noted.run notes).run.run s = (.ok (a, notes'), s') := by
  rw [← hnoted notes, map_eq_pure_bind, Action.run_bind] at hrun
  rcases h : (noted.run notes).run.run s with ⟨reason | ⟨a', notes'⟩, s''⟩ <;> rw [h] at hrun
  · cases hrun
  · cases hrun
    exact ⟨notes', rfl⟩

theorem lift (action : Action α) : Erases (liftM action) action := by
  intro notes
  simp

theorem pure (a : α) : Erases (Pure.pure a) (Pure.pure a) := by
  intro notes
  simp

theorem bind {first : Noted α} {next : α → Noted β} {action : Action α} {then' : α → Action β}
    (hfirst : Erases first action) (hnext : ∀ a, Erases (next a) (then' a)) :
    Erases (first >>= next) (action >>= then') := by
  intro notes
  simp only [StateT.run_bind, map_bind, hnext _ _]
  rw [← hfirst notes]
  simp

theorem note {noted : Noted α} {action : Action α} (hnoted : Erases noted action) (n : Note) :
    Erases (note n >>= fun _ => noted) action :=
  fun notes => by simpa [Noted.note] using hnoted (notes ++ [n])

theorem forM {items : List α} {noted : α → Noted PUnit} {step : α → Action PUnit}
    (hstep : ∀ a, Erases (noted a) (step a)) : Erases (items.forM noted) (items.forM step) := by
  induction items with
  | nil => exact .pure _
  | cons a rest ih => exact .bind (hstep a) fun _ => ih

theorem reportUnused (frame : Nat) : Erases (reportUnused frame) (Action.reportUnused frame) := by
  refine .bind (.lift _) fun t => .note (.forM fun b => .bind (.lift _) fun _ => ?_) _
  split
  · exact .note (.lift _) _
  · exact .pure ()

theorem exitScope : Erases exitScope Action.exitScope := by
  refine .bind (.lift _) fun t => ?_
  cases t.stack with
  | nil => exact .pure ()
  | cons id stack =>
      exact .bind (.lift _) fun _ => .bind (.lift _) fun _ =>
        .bind (.lift _) fun _ => .reportUnused id

theorem finish : Erases finish Action.finish :=
  .bind (.lift _) fun _ => .forM fun _ => .exitScope

theorem operation (operation : Operation) : Erases operation.noted operation.perform := by
  unfold Operation.noted
  split
  · exact .exitScope
  · exact .lift _

theorem operations (operations : List Operation) :
    Erases (Operation.notedAll operations) (Operation.performAll operations) := .forM .operation

end Erases

/-! ## What actions with notes leave behind -/

variable {t : Tracker} {notes : List Note}

/-- Whenever the action succeeds on the tracker after the notes, its answer, the tracker and the
notes after it satisfy `post`. -/
def Ensures (noted : Noted α) (t : Tracker) (notes : List Note)
    (post : α → Tracker → List Note → Prop) : Prop :=
  (noted.run notes).Ensures t fun answer t' => post answer.1 t' answer.2

namespace Ensures

variable {post : α → Tracker → List Note → Prop}

theorem mono {noted : Noted α} {post' : α → Tracker → List Note → Prop}
    (hnoted : noted.Ensures t notes post')
    (himp : ∀ a t' notes', post' a t' notes' → post a t' notes') :
    noted.Ensures t notes post :=
  Action.Ensures.mono hnoted fun answer t' => himp answer.1 t' answer.2

theorem pure {a : α} (hpost : post a t notes) : Ensures (Pure.pure a) t notes post :=
  Action.Ensures.pure hpost

theorem bind {first : Noted α} {next : α → Noted β} {post : β → Tracker → List Note → Prop}
    (hfirst : first.Ensures t notes fun a t' notes' => (next a).Ensures t' notes' post) :
    (first >>= next).Ensures t notes post :=
  Action.Ensures.bind hfirst

theorem lift {action : Action α} (haction : action.Ensures t fun a t' => post a t' notes) :
    Ensures (liftM action) t notes post :=
  Action.Ensures.bind (haction.mono fun _ _ hpost => .pure hpost)

theorem note {n : Note} {post : Unit → Tracker → List Note → Prop}
    (hpost : post () t (notes ++ [n])) : (note n).Ensures t notes post :=
  Action.Ensures.pure hpost

/-- What each round of a loop takes from the items that are left to those after it holds in the end
of none. -/
theorem forM (inv : List α → Tracker → List Note → Prop) {items : List α}
    {step : α → Noted PUnit} (hstart : inv items t notes)
    (hstep : ∀ a rest t notes, inv (a :: rest) t notes →
      (step a).Ensures t notes fun _ t' notes' => inv rest t' notes') :
    (items.forM step).Ensures t notes fun _ t' notes' => inv [] t' notes' := by
  induction items generalizing t notes with
  | nil => exact .pure hstart
  | cons a rest ih =>
      exact .bind ((hstep a rest t notes hstart).mono fun _ _ _ hrest => ih hrest)

end Ensures

end Noted

open Action in
/-- Where no notes are taken, nothing is reported of unused bindings. -/
theorem not_reported_without_notes (s : Session) {d : Diagnostic} (hd : d.code = "W098") :
    (∀ f, d ∈ ((resolveAll f).run.run s).2.sink.accepted → d ∈ s.sink.accepted) ∧
    ∀ operation : Operation, operation ≠ .exitScope → (∀ change, operation ≠ .changeSink change) →
      d ∈ (operation.perform.run.run s).2.sink.accepted → d ∈ s.sink.accepted := by
  have hdeclared (action : Action Unit)
      [haction : ReportsOnly ReportsOnly.declarationCodes action] :
      d ∈ (action.run.run s).2.sink.accepted → d ∈ s.sink.accepted :=
    fun hmem => haction.spares (by decide) s hmem hd
  refine ⟨fun f hmem => ?_, fun operation hexit hsink => ?_⟩
  · exact (inferInstance : ReportsOnly resolutionCodes (resolveAll f)).spares (by decide) s hmem hd
  · cases operation with
    | exitScope => exact absurd rfl hexit
    | changeSink change => exact absurd rfl (hsink change)
    | declare name kind position => exact hdeclared (Action.declare name kind position)
    | declareBlockFunction name position =>
      exact hdeclared (Action.declareBlockFunction name position)
    | declareParameter name position distinct =>
        exact hdeclared (Action.declareParameter name position distinct)
    | _ => exact id

/-! ## Closing a frame -/

/-- The entries for those bindings of a function that are listed. -/
def listedEntries (rule : UnusedRule) (exported : List String) (bindings : List Binding)
    (scope : String) : List UnusedBinding :=
  ((List.finRange bindings.length).filter (IsListed rule exported bindings ·)).map fun i =>
    ⟨(bindings.get i).name, (bindings.get i).kind, (bindings.get i).declaredAt, scope⟩

/-- The unused bindings that a frame adds to the list when it is closed. -/
def Tracker.listed (t : Tracker) (rule : UnusedRule) (exported : List String) (f : Nat) :
    List UnusedBinding :=
  listedEntries rule exported (t.frame f).bindings (t.functionNameOf f)

namespace Noted

/-- The notes on a closed frame with the entries that are listed of it. -/
def closing (rule : UnusedRule) (exported : List String) (f : Nat) (listed : List UnusedBinding) :
    List Note :=
  .closed f exported :: if rule = .off then [] else listed.map fun b => .reported b.remark

section

variable (rule : UnusedRule) (exported : List String) (f : Nat) (listed : List UnusedBinding)

theorem filterMap_closing? :
    (closing rule exported f listed).filterMap Note.closing? = [(f, exported)] := by
  by_cases hoff : rule = .off <;>
    simp [closing, hoff, Note.closing?, List.filterMap_map, Function.comp_def]

theorem filterMap_report? : (closing rule exported f listed).filterMap Note.report? =
    if rule = .off then [] else listed.map (·.remark) := by
  by_cases hoff : rule = .off <;>
    simp [closing, hoff, Note.report?, List.filterMap_cons, List.filterMap_map, Function.comp_def]

end

variable {t : Tracker} {notes : List Note}

/-- What a closed frame adds to the list is noted as reported, unless the rule is off. -/
theorem reportUnused_ensures (f : Nat) :
    (reportUnused f).Ensures t notes fun _ t' notes' =>
      let listed := t.listed t.rules.unused t.exported f
      t' = { t with unused := t.unused ++ listed } ∧
        notes' = notes ++ closing t.rules.unused t.exported f listed := by
  let entry (b : Binding) : UnusedBinding := ⟨b.name, b.kind, b.declaredAt, t.functionNameOf f⟩
  let found := unusedBindings t.rules.unused t.exported.contains (t.frame f).bindings
  have hlisted : t.listed t.rules.unused t.exported f = found.map entry := by
    simp only [found, unusedBindings_eq, List.map_map]
    rfl
  refine .bind (.lift (.tracker (.bind (.note ?_))))
  -- What is left of the loop is what is still to be listed and reported.
  refine (Ensures.forM (fun rest t' notes' => ∃ done, found = done ++ rest ∧
    t' = { t with unused := t.unused ++ done.map entry } ∧
    notes' = notes ++ closing t.rules.unused t.exported f (done.map entry))
    ⟨[], by simp [found], by simp, by simp [closing]⟩ ?_).mono ?_
  · rintro b rest t' notes' ⟨done, hfound, rfl, rfl⟩
    refine .bind (.lift (.update ?_))
    split
    next hon =>
      refine .bind (.note (.lift (.report ⟨done ++ [b], by simpa using hfound, ?_, ?_⟩)))
      · simp [entry]
      · simp [closing, hon, entry, UnusedBinding.remark]
    next hoff =>
      refine .pure ⟨done ++ [b], by simpa using hfound, ?_, ?_⟩
      · simp [entry]
      · simp [closing, not_not.mp hoff]
  · rintro _ t' notes' ⟨done, hfound, ht', hnotes'⟩
    obtain rfl : found = done := by simpa using hfound
    dsimp only
    rw [hlisted]
    exact ⟨ht', hnotes'⟩

end Noted

end ScriptLint.Scope

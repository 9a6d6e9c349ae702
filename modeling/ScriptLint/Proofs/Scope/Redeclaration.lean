import ScriptLint.Proofs.Scope.Account
import ScriptLint.Proofs.Scope.Rejection

/-! # Redeclarations

Of two declarations of one name in a function, the second is rejected if and only if the two are in
conflict: both in one scope and one of them lexical, or one of them lexical and the other one a
`var` or a function that comes from its scope or from inside it. It does not matter which of the two
comes first.
-/

namespace ScriptLint.Scope

/-! ## What a first declaration leaves -/

namespace Form

/-- The frame in which a declaration comes to rest. -/
def home (t : Tracker) (form : Form) : Nat := if form.isLexical then t.currentId else t.functionId

variable {form : Form} {name : String} {t t' t'' : Tracker}

/-- A `var` may pass neither a function of a block nor a lexical declaration. -/
theorem blocks_of_isLexical (hlexical : form.isLexical = true) :
    form.kind.isLexical = true ∨ form.kind = .function := by
  cases form with
  | lexical kind hkind => exact .inl hkind
  | blockFunction => exact .inr rfl
  | hoisted kind hkind => cases hlexical

theorem not_blocks_of_hoisted (hhoisted : form.isLexical = false) :
    ¬ (form.kind.isLexical = true ∨ form.kind = .imported) := by
  cases form with
  | lexical | blockFunction => cases hhoisted
  | hoisted kind hkind =>
      change ¬ (kind.isLexical = true ∨ kind = .imported)
      rcases hkind with rfl | rfl <;> decide

/-- In the frames of the function, a name is bound where its only declaration came to rest, and it
passed through the blocks that were open at that time. -/
structure Stands (form : Form) (name : String) (t t' : Tracker) : Prop where
  bound : ∃ b, (t'.frame (form.home t)).find? name = some b ∧ b.kind = form.kind ∧
    b.implicit = false
  free : ∀ i ∈ t'.functionIds, i ≠ form.home t → (t'.frame i).find? name = none
  hoisted : ∀ i ∈ t'.functionIds,
    name ∈ (t'.frame i).hoisted ↔ form.isLexical = false ∧ i ∈ t.innerIds

/-- The name is unknown in the frames of the function. -/
def Fresh (t : Tracker) (name : String) : Prop :=
  ∀ i ∈ t.functionIds, (t.frame i).find? name = none ∧ name ∉ (t.frame i).hoisted

theorem Stands.insert (form : Form) {u : Tracker} {b : Binding} (hname : b.name = name)
    (hkind : b.kind = form.kind) (himplicit : b.implicit = false)
    (hhome : form.home t < u.frames.size) (hids : u.functionIds = t.functionIds)
    (hfree : ∀ i ∈ t.functionIds, (u.frame i).find? name = none)
    (hhoisted : ∀ i ∈ t.functionIds,
      name ∈ (u.frame i).hoisted ↔ form.isLexical = false ∧ i ∈ t.innerIds) :
    form.Stands name t (u.modifyFrame (form.home t) (·.insert b)) := by
  have hids' : (u.modifyFrame (form.home t) (·.insert b)).functionIds = t.functionIds :=
    (Tracker.upToFunction_congr fun i _ => Tracker.field_modifyFrame (·.kind) rfl i).trans hids
  refine ⟨⟨b, ?_, hkind, himplicit⟩, ?_, ?_⟩
  · rw [Tracker.frame_modifyFrame, if_pos ⟨rfl, hhome⟩]
    simp [Frame.find?, Frame.insert, hname]
  · intro i hi hne
    rw [Tracker.frame_modifyFrame, if_neg fun h => hne h.1.symm]
    exact hfree i (hids' ▸ hi)
  · intro i hi
    rw [Tracker.field_modifyFrame (·.hoisted) rfl]
    exact hhoisted i (hids' ▸ hi)

theorem mem_hoisted_hoistAll {ids : List Nat} (hids : ∀ i ∈ ids, i < t.frames.size) (i : Nat) :
    name ∈ ((t.hoistAll name ids).frame i).hoisted ↔ name ∈ (t.frame i).hoisted ∨ i ∈ ids := by
  induction ids generalizing t with
  | nil => simp [Tracker.hoistAll]
  | cons j ids ih =>
      have hrest : ∀ k ∈ ids, k < (t.modifyFrame j (·.hoist name)).frames.size := by
        intro k hk
        rw [Tracker.modifyFrame_size]
        exact hids k (List.mem_cons_of_mem j hk)
      have hj := hids j List.mem_cons_self
      refine (ih hrest).trans ?_
      rw [Tracker.frame_modifyFrame]
      by_cases heq : j = i
      · subst heq
        simp only [hj, and_self, if_true, Frame.hoist]
        split <;> simp_all
      · simp [heq, Ne.symm heq]

/-- A first declaration binds the name where it comes to rest. -/
theorem perform_stands (ht : t.Arena) (hstack : t.stack ≠ []) (hfresh : Fresh t name)
    (form : Form) (position : Position) :
    (form.operation name position).perform.Ensures t fun _ t' => form.Stands name t t' := by
  have hcurrent := hfresh _ (Tracker.currentId_mem_functionIds hstack)
  have hlt : t.currentId < t.frames.size := ht.stack_lt _ (Tracker.currentId_mem_stack hstack)
  cases form with
  | lexical kind hkind =>
      rw [perform_lexical]
      refine .bind (.tracker ?_)
      dsimp only
      rw [hcurrent.1]
      refine .ite (fun h => absurd (List.contains_iff_mem.mp h) hcurrent.2) fun _ => ?_
      refine Action.bindNew_ensures (Stands.insert (lexical kind hkind) rfl rfl rfl hlt rfl
        (fun i hi => (hfresh i hi).1) fun i hi => ?_)
      simp [(hfresh i hi).2, isLexical]
  | blockFunction =>
      refine .bind (.tracker ?_)
      dsimp only
      rw [hcurrent.1]
      refine .ite (fun h => absurd (List.contains_iff_mem.mp h) hcurrent.2) fun _ => ?_
      refine Action.bindNew_ensures (Stands.insert blockFunction rfl rfl rfl hlt rfl
        (fun i hi => (hfresh i hi).1) fun i hi => ?_)
      simp [(hfresh i hi).2, isLexical]
  | hoisted kind hkind =>
      rw [perform_hoisted]
      have hfunction := hfresh t.functionId (by
        rw [Tracker.functionIds_eq_append hstack]
        exact List.mem_append_right _ List.mem_cons_self)
      have hgrows := Tracker.hoistAll_grows name t.innerIds_subset_stack
      have hids := hgrows.functionIds_eq
      have hpassed : ¬ (t.innerIds.any fun i => (t.frame i).blocksVar name) = true := by
        rw [List.any_eq_true]
        rintro ⟨i, hi, hblocks⟩
        have hnone := (hfresh i (List.dropLast_subset _ hi)).1
        simp [Frame.blocksVar, hnone] at hblocks
      refine .bind (.tracker (.ite (fun h => absurd h hpassed) fun _ => .bind (.update ?_)))
      dsimp only
      rw [hfunction.1]
      refine Action.bindNew_ensures (Stands.insert (hoisted kind hkind)
        (u := t.hoistAll name t.innerIds) rfl rfl rfl ?_ hids (fun i hi => ?_) fun i hi => ?_)
      · rw [hgrows.size]
        exact ht.stack_lt _ (Tracker.functionId_mem_stack hstack)
      · rw [Tracker.find?_hoistAll]
        exact (hfresh i hi).1
      · rw [mem_hoisted_hoistAll fun i hi => ht.stack_lt i (t.innerIds_subset_stack hi)]
        simp [(hfresh i hi).2, isLexical]

theorem perform_grows (hstack : t.stack ≠ []) (form : Form) (name : String)
    (position : Position) :
    (form.operation name position).perform.Ensures t fun _ t' => t.Grows t' := by
  cases form with
  | lexical kind _ => exact Action.declare_grows hstack name kind position
  | blockFunction => exact Action.declareBlockFunction_grows hstack name position
  | hoisted kind _ => exact Action.declare_grows hstack name kind position

/-- What a first declaration left is still there after a walk through scopes. -/
theorem Stands.roams (hstands : form.Stands name t t') (hhome : form.home t < t'.frames.size)
    (hinner : ∀ i ∈ t.innerIds, i < t'.frames.size) (hroams : t'.Roams t'')
    (ht'' : ∀ i ∈ t''.functionIds, i < t''.frames.size) : form.Stands name t t'' := by
  obtain ⟨b, hfind, hkind, himplicit⟩ := hstands.bound
  obtain ⟨b', hfind', hdeclared⟩ := (hroams.frame _ hhome).exists_find? hfind
  refine ⟨⟨b', hfind', ?_, ?_⟩, ?_, ?_⟩
  · exact (congrArg Binding.kind hdeclared).trans hkind
  · exact (congrArg Binding.implicit hdeclared).trans himplicit
  · intro i hi hne
    by_cases hlt : i < t'.frames.size
    · have hmem := (hroams.functionIds i hi).resolve_right (Nat.not_le_of_lt hlt)
      exact (hroams.frame i hlt).find?_eq_none.mpr (hstands.free i hmem hne)
    · have hblank := hroams.blank i (Nat.le_of_not_lt hlt) (ht'' i hi)
      exact Option.map_eq_none_iff.mp (hblank.declaration? name)
  · intro i hi
    by_cases hlt : i < t'.frames.size
    · have hmem := (hroams.functionIds i hi).resolve_right (Nat.not_le_of_lt hlt)
      rw [(hroams.frame i hlt).hoisted]
      exact hstands.hoisted i hmem
    · have hblank := hroams.blank i (Nat.le_of_not_lt hlt) (ht'' i hi)
      rw [hblank.hoisted]
      exact iff_of_false List.not_mem_nil fun h => hlt (hinner i h.2)

end Form

/-! ## Two declarations -/

/-- A session to which operations lead from the beginning of a program, with a frame open all
along. -/
def Session.Reachable (s : Session) : Prop :=
  ∃ known rules module strict sink operations,
    Operation.keepOpen (if module then 2 else 1) operations ∧
      (Operation.performAll operations).run.run ⟨.start known rules module strict, sink⟩ =
        (.ok (), s)

theorem Session.Reachable.arena {s : Session} (hs : s.Reachable) :
    s.tracker.Arena ∧ s.tracker.stack ≠ [] := by
  obtain ⟨known, rules, module, strict, sink, operations, hopen, hrun⟩ := hs
  obtain ⟨log, -, hsteps, hstack⟩ := Operation.exists_log_of_performAll hopen hrun
  exact ⟨((Stage.Orderly.start known rules strict).steps hsteps).arena, hstack⟩

/-- Two declarations of a name that was unknown in their function, with scopes opened and closed
between them, where the second one is free to be reported. -/
structure Redeclaration where
  name : String
  before : Session
  first : Form
  firstPosition : Position
  middle : Session
  walk : List Operation
  after : Session
  second : Form
  secondPosition : Position
  reachable : before.Reachable
  fresh : Form.Fresh before.tracker name
  first_inner : first = .blockFunction → before.tracker.currentId ≠ before.tracker.functionId
  declared : (first.operation name firstPosition).perform.run.run before = (.ok (), middle)
  roams : ∀ operation ∈ walk, operation.roams
  stays : Operation.keepOpen before.tracker.functionIds.length walk
  walked : (Operation.performAll walk).run.run middle = (.ok (), after)
  second_inner : second = .blockFunction → after.tracker.currentId ≠ after.tracker.functionId
  running : after.sink.isHalted = false
  shown : after.sink.suppresses "E011" secondPosition.line = false
  untold : ∀ d ∈ after.sink.accepted,
    d.key ≠ ("E011", secondPosition.line, secondPosition.column)

namespace Redeclaration

variable (r : Redeclaration)

/-- The scope of the first declaration. -/
def firstFrame : Nat := r.before.tracker.currentId

/-- The scope of the second declaration. -/
def secondFrame : Nat := r.after.tracker.currentId

/-- Whether the second declaration is rejected. -/
def IsRejected : Prop :=
  ∃ d ∈ ((r.second.operation r.name r.secondPosition).perform.run.run r.after).2.sink.accepted,
    d ∉ r.after.sink.accepted ∧ d.code = "E011"

/-- Whether the declarations conflict: in one scope with a lexical one among them, unless both are
functions in a block of code that is not strict; or one of them lexical and the other one not, made
in the scope of the first or inside it. -/
def Conflict : Prop :=
  (r.firstFrame = r.secondFrame ∧ (r.first.isLexical ∨ r.second.isLexical) ∧
      ¬ (r.first = .blockFunction ∧ r.second = .blockFunction ∧
        r.after.tracker.isStrict = false)) ∨
    (r.first.isLexical ∧ r.second.isLexical = false ∧
      r.after.tracker.isWithin r.secondFrame r.firstFrame) ∨
    (r.second.isLexical ∧ r.first.isLexical = false ∧
      r.after.tracker.isWithin r.firstFrame r.secondFrame)

/-- Whether another pair of declarations is the pair in the opposite order at the same places. -/
structure Reverses (r' r : Redeclaration) : Prop where
  first : r'.first = r.second
  second : r'.second = r.first
  same : r'.firstFrame = r'.secondFrame ↔ r.firstFrame = r.secondFrame
  inside : r'.after.tracker.isWithin r'.secondFrame r'.firstFrame =
    r.after.tracker.isWithin r.firstFrame r.secondFrame
  outside : r'.after.tracker.isWithin r'.firstFrame r'.secondFrame =
    r.after.tracker.isWithin r.secondFrame r.firstFrame
  strict : r.firstFrame = r.secondFrame → r'.after.tracker.isStrict = r.after.tracker.isStrict

theorem Reverses.conflict_iff {r' r : Redeclaration} (h : r'.Reverses r) :
    r'.Conflict ↔ r.Conflict := by
  unfold Conflict
  rw [h.first, h.second, h.same, h.inside, h.outside]
  by_cases hsame : r.firstFrame = r.secondFrame
  · rw [h.strict hsame]
    tauto
  · simp only [hsame, false_and, false_or]
    tauto

/-- The second declaration is rejected if and only if the name is taken by then. -/
theorem isRejected_iff : r.IsRejected ↔ r.second.IsTaken r.after.tracker r.name := by
  have hjudges := Action.perform_judges r.name r.secondPosition r.after r.second
  constructor
  · rintro ⟨d, hmem, hnew, hcode⟩
    by_contra hfree
    exact hnew (hjudges.spares hfree d hmem hcode)
  · intro htaken
    obtain ⟨scope, hsink⟩ := hjudges.rejects htaken
    have hshown : ¬ r.after.sink.Drops
        { code := "E011", arguments := [r.name], position := r.secondPosition, scope } := by
      rintro (hsuppressed | ⟨d, hmem, hkey⟩)
      · exact Bool.false_ne_true (r.shown.symm.trans hsuppressed)
      · exact r.untold d hmem hkey
    refine ⟨{ code := "E011", arguments := [r.name], position := r.secondPosition, scope }, ?_,
      fun hold => hshown (.inr ⟨_, hold, rfl⟩), rfl⟩
    rw [hsink, Sink.report_accepted_of_shown r.running hshown]
    exact Array.mem_push_self

/-- What is known of the frames when the second declaration is made. -/
structure Ready (r : Redeclaration) : Prop where
  stands : r.first.Stands r.name r.before.tracker r.after.tracker
  function : r.after.tracker.functionId = r.before.tracker.functionId
  first_mem : r.firstFrame ∈ r.before.tracker.functionIds
  second_mem : r.secondFrame ∈ r.after.tracker.functionIds
  inner : r.before.tracker.functionIds = r.before.tracker.innerIds ++ [r.before.tracker.functionId]
  inner' : r.after.tracker.functionIds = r.after.tracker.innerIds ++ [r.after.tracker.functionId]
  nodup : r.before.tracker.functionIds.Nodup
  nodup' : r.after.tracker.functionIds.Nodup
  /-- The second declaration is made inside the scope of the first. -/
  inside : r.after.tracker.isWithin r.secondFrame r.firstFrame ↔
    r.firstFrame ∈ r.after.tracker.functionIds
  /-- The first declaration is made inside the scope of the second. -/
  outside : r.after.tracker.isWithin r.firstFrame r.secondFrame ↔
    r.secondFrame ∈ r.before.tracker.functionIds

theorem ready : r.Ready := by
  obtain ⟨ht, hstack⟩ := r.reachable.arena
  have hgrows := Form.perform_grows hstack _ _ _ _ _ _ r.declared
  have hstands := Form.perform_stands ht hstack r.fresh _ _ _ _ _ r.declared
  have hopen : Operation.keepOpen r.middle.tracker.functionIds.length r.walk := by
    rw [hgrows.functionIds_eq]
    exact r.stays
  obtain ⟨hroams, ht', hstack'⟩ := Operation.performAll_roams r.roams (ht.of_grows hgrows)
    (hgrows.stack ▸ hstack) hopen _ _ _ r.walked
  have hfunction : r.after.tracker.functionId = r.before.tracker.functionId := by
    rw [hroams.functionId, Tracker.functionId, hgrows.functionIds_eq, Tracker.functionId]
  have hcurrent : r.firstFrame < r.middle.tracker.frames.size :=
    hgrows.size ▸ ht.stack_lt _ (Tracker.currentId_mem_stack hstack)
  -- The ways outwards from the two scopes are what was open at the two times.
  have hpath : r.after.tracker.path r.firstFrame = r.before.tracker.stack := by
    obtain ⟨i, rest, hcons⟩ := List.exists_cons_of_ne_nil hstack
    have hi : r.firstFrame = i := by rw [firstFrame, Tracker.currentId, hcons]; rfl
    rw [← ht.stack i rest hcons, ← hi, ← hgrows.path_eq]
    exact Tracker.path_congr fun j hj => (hroams.frame j (by omega)).parent?
  have hpath' : r.after.tracker.path r.secondFrame = r.after.tracker.stack := by
    obtain ⟨i, rest, hcons⟩ := List.exists_cons_of_ne_nil hstack'
    have hi : r.secondFrame = i := by rw [secondFrame, Tracker.currentId, hcons]; rfl
    rw [hi, ht'.stack i rest hcons]
  have hmem := Tracker.currentId_mem_functionIds hstack
  have hmem' := Tracker.currentId_mem_functionIds hstack'
  have hlt (i : Nat) (hi : i ∈ r.before.tracker.stack) : i < r.middle.tracker.frames.size :=
    hgrows.size ▸ ht.stack_lt i hi
  refine ⟨?_, hfunction, hmem, hmem', Tracker.functionIds_eq_append hstack,
    Tracker.functionIds_eq_append hstack', ?_, ?_, ?_, ?_⟩
  · refine hstands.roams (hlt _ ?_) (fun i hi => ?_) hroams fun i hi => ?_
    · unfold Form.home
      split
      · exact Tracker.currentId_mem_stack hstack
      · exact Tracker.functionId_mem_stack hstack
    · exact hlt i (Tracker.innerIds_subset_stack _ hi)
    · exact ht'.stack_lt i (Tracker.upToFunction_subset _ _ hi)
  · exact ht.stack_nodup.sublist (Tracker.upToFunction_prefix _ _).sublist
  · exact ht'.stack_nodup.sublist (Tracker.upToFunction_prefix _ _).sublist
  · rw [Tracker.isWithin, hpath', List.contains_iff_mem, Tracker.mem_functionIds_iff ht' hstack',
      hfunction]
    exact (and_iff_left ((Tracker.mem_functionIds_iff ht hstack).mp hmem).2).symm
  · rw [Tracker.isWithin, hpath, List.contains_iff_mem, Tracker.mem_functionIds_iff ht hstack,
      ← hfunction]
    exact (and_iff_left ((Tracker.mem_functionIds_iff ht' hstack').mp hmem').2).symm

/-- A declaration that belongs to its block looks for the name there. -/
theorem taken_in_block {P : Binding → Prop} {Q : Prop}
    (hP : ∀ b, b.kind = r.first.kind → b.implicit = false → (P b ↔ Q)) :
    ((∃ b, r.after.tracker.current.find? r.name = some b ∧ P b) ∨
      r.after.tracker.current.find? r.name = none ∧ r.name ∈ r.after.tracker.current.hoisted) ↔
    r.secondFrame = r.first.home r.before.tracker ∧ Q ∨
      r.first.isLexical = false ∧ r.secondFrame ∈ r.before.tracker.innerIds := by
  have h := r.ready
  have hcurrent : r.after.tracker.current = r.after.tracker.frame r.secondFrame := rfl
  rw [hcurrent, h.stands.hoisted _ h.second_mem]
  by_cases hhome : r.secondFrame = r.first.home r.before.tracker
  · obtain ⟨b, hfind, hkind, himplicit⟩ := h.stands.bound
    -- What comes to rest in the function did not pass through it.
    have houter : ¬ (r.first.isLexical = false ∧
        r.first.home r.before.tracker ∈ r.before.tracker.innerIds) := by
      rintro ⟨hlexical, hinner⟩
      rw [Form.home, hlexical] at hinner
      have hnodup := h.nodup
      rw [h.inner, List.nodup_append] at hnodup
      exact hnodup.2.2 _ hinner _ List.mem_cons_self rfl
    simp [hhome, hfind, hP b hkind himplicit, houter]
  · simp [h.stands.free _ h.second_mem hhome, hhome]

/-- A declaration that comes to rest in the function looks for the name in all open scopes. -/
theorem taken_in_function :
    ((∃ i ∈ r.after.tracker.innerIds, (r.after.tracker.frame i).blocksVar r.name) ∨
      ∃ b, r.after.tracker.functionFrame.find? r.name = some b ∧
        (b.kind.isLexical ∨ b.kind = .imported)) ↔
    r.first.isLexical ∧ r.firstFrame ∈ r.after.tracker.functionIds := by
  have h := r.ready
  obtain ⟨b, hfind, hkind, -⟩ := h.stands.bound
  have hfree (i : Nat) (hi : i ∈ r.after.tracker.functionIds)
      (hbound : (r.after.tracker.frame i).find? r.name ≠ none) :
      i = r.first.home r.before.tracker := by
    by_contra hne
    exact hbound (h.stands.free i hi hne)
  have hinner (i : Nat) (hi : i ∈ r.after.tracker.innerIds) : i ≠ r.after.tracker.functionId := by
    have hnodup := h.nodup'
    rw [h.inner', List.nodup_append] at hnodup
    exact hnodup.2.2 i hi _ List.mem_cons_self
  have houter : r.after.tracker.functionId ∈ r.after.tracker.functionIds := by
    rw [h.inner']
    exact List.mem_append_right _ List.mem_cons_self
  cases hlexical : r.first.isLexical with
  | false =>
      -- The name is bound in the function, and not as one of a block.
      have hhome : r.first.home r.before.tracker = r.after.tracker.functionId := by
        rw [Form.home, hlexical, h.function]
        rfl
      refine iff_of_false ?_ (fun h => Bool.false_ne_true h.1)
      rintro (⟨i, hi, hblocks⟩ | ⟨b', hfind', hkind'⟩)
      · refine hinner i hi ((hfree i (List.dropLast_subset _ hi) fun hnone => ?_).trans hhome)
        simp [Frame.blocksVar, hnone] at hblocks
      · rw [hhome] at hfind
        obtain rfl : b = b' := Option.some.inj (hfind.symm.trans hfind')
        rw [hkind] at hkind'
        exact Form.not_blocks_of_hoisted hlexical hkind'
  | true =>
      have hhome : r.first.home r.before.tracker = r.firstFrame := by
        rw [Form.home, hlexical]
        rfl
      rw [hhome] at hfind hfree
      refine Iff.trans ⟨?_, fun hmem => ?_⟩ (iff_and_self.mpr fun _ => rfl)
      · rintro (⟨i, hi, hblocks⟩ | ⟨b', hfind', -⟩)
        · have hmem := List.dropLast_subset _ hi
          refine hfree i hmem (fun hnone => ?_) ▸ hmem
          simp [Frame.blocksVar, hnone] at hblocks
        · refine hfree _ houter (fun hnone => ?_) ▸ houter
          rw [Tracker.functionFrame, hnone] at hfind'
          cases hfind'
      · rw [h.inner', List.mem_append, List.mem_singleton] at hmem
        rcases hmem with hmem | hfunction
        · refine .inl ⟨r.firstFrame, hmem, ?_⟩
          simpa [Frame.blocksVar, hfind, hkind] using Form.blocks_of_isLexical hlexical
        · rw [hfunction] at hfind
          refine .inr ⟨b, hfind, .inl (hkind ▸ ?_)⟩
          -- A function directly in the function is not one of a block.
          cases hform : r.first with
          | lexical kind hkind => exact hkind
          | blockFunction => exact absurd (hfunction.trans h.function) (r.first_inner hform)
          | hoisted kind hkind => simp [hform, Form.isLexical] at hlexical

theorem isTaken_iff : r.second.IsTaken r.after.tracker r.name ↔ r.Conflict := by
  have h := r.ready
  have hinner := h.inner
  have hfunction := h.function
  have hmem := h.first_mem
  have hmem' := h.second_mem
  have hfirst := r.first_inner
  have hsecond := r.second_inner
  unfold Conflict
  rw [h.inside, h.outside]
  cases hform : r.second with
  | lexical kind hkind =>
      refine (r.taken_in_block (P := fun b => b.implicit = false) (Q := True) ?_).trans ?_
      · intro b _ himplicit
        exact iff_true_intro himplicit
      · cases hform' : r.first <;>
          simp only [Form.home, Form.isLexical, firstFrame, secondFrame] at * <;> grind
  | blockFunction =>
      refine (r.taken_in_block
        (P := fun b => b.kind ≠ .function ∨ r.after.tracker.isStrict = true)
        (Q := r.first.kind ≠ .function ∨ r.after.tracker.isStrict = true) ?_).trans ?_
      · intro b hkind _
        rw [hkind]
      · cases hform' : r.first <;>
          simp only [Form.home, Form.isLexical, Form.kind, firstFrame, secondFrame] at * <;>
          grind [BindingKind.isLexical]
  | hoisted kind hkind =>
      refine r.taken_in_function.trans ?_
      cases hform' : r.first <;>
        simp only [Form.isLexical, firstFrame, secondFrame] at * <;> grind

/-- The second declaration is rejected if and only if the two conflict, and it is rejected if and
only if it would be in the opposite order. -/
theorem rejected_iff_conflict :
    (r.IsRejected ↔ r.Conflict) ∧
      ∀ r' : Redeclaration, r'.Reverses r → (r'.IsRejected ↔ r.IsRejected) := by
  have hconflict (r : Redeclaration) : r.IsRejected ↔ r.Conflict :=
    r.isRejected_iff.trans r.isTaken_iff
  refine ⟨hconflict r, fun r' hreverses => ?_⟩
  rw [hconflict r', hconflict r]
  exact hreverses.conflict_iff

/-- The session after operations in a function. -/
def inFunction (operations : List Operation) : Session :=
  ((Operation.performAll (.enterFunction {} ⟨1, 1, 0⟩ :: operations)).run.run
    ⟨.start {} (.ofOptions {}) false false, .start 50 1 (.ofList [])⟩).2

/-- What happens in `function () { let x; { var x } }`. -/
def letThenVar : Redeclaration where
  name := "x"
  before := inFunction []
  first := .lexical .letName rfl
  firstPosition := ⟨1, 19, 18⟩
  middle := inFunction [.declare "x" .letName ⟨1, 19, 18⟩]
  walk := [.enterScope .block ⟨1, 22, 21⟩]
  after := inFunction [.declare "x" .letName ⟨1, 19, 18⟩, .enterScope .block ⟨1, 22, 21⟩]
  second := .hoisted .varName (.inl rfl)
  secondPosition := ⟨1, 28, 27⟩
  reachable := ⟨{}, .ofOptions {}, false, false, .start 50 1 (.ofList []),
    [.enterFunction {} ⟨1, 1, 0⟩], rfl, rfl⟩
  fresh := by unfold Form.Fresh; decide +kernel
  first_inner := nofun
  declared := Prod.ext (by decide +kernel) rfl
  roams := by decide
  stays := by decide +kernel
  walked := Prod.ext (by decide +kernel) rfl
  second_inner := nofun
  running := by decide +kernel
  shown := by decide +kernel
  untold := by decide +kernel

/-- What happens in `function () { { var x } let x }`. -/
def varThenLet : Redeclaration where
  name := "x"
  before := inFunction [.enterScope .block ⟨1, 15, 14⟩]
  first := .hoisted .varName (.inl rfl)
  firstPosition := ⟨1, 21, 20⟩
  middle := inFunction [.enterScope .block ⟨1, 15, 14⟩, .declare "x" .varName ⟨1, 21, 20⟩]
  walk := [.exitScope]
  after := inFunction
    [.enterScope .block ⟨1, 15, 14⟩, .declare "x" .varName ⟨1, 21, 20⟩, .exitScope]
  second := .lexical .letName rfl
  secondPosition := ⟨1, 29, 28⟩
  reachable := ⟨{}, .ofOptions {}, false, false, .start 50 1 (.ofList []),
    [.enterFunction {} ⟨1, 1, 0⟩, .enterScope .block ⟨1, 15, 14⟩], rfl, rfl⟩
  fresh := by unfold Form.Fresh; decide +kernel
  first_inner := nofun
  declared := Prod.ext (by decide +kernel) rfl
  roams := by decide
  stays := by decide +kernel
  walked := Prod.ext (by decide +kernel) rfl
  second_inner := nofun
  running := by decide +kernel
  shown := by decide +kernel
  untold := by decide +kernel

theorem rejected_either_way :
    varThenLet.Reverses letThenVar ∧ letThenVar.IsRejected ∧ varThenLet.IsRejected := by
  have hreverses : varThenLet.Reverses letThenVar :=
    ⟨rfl, rfl, by decide +kernel, by decide +kernel, by decide +kernel, by decide +kernel⟩
  obtain ⟨hfirst, hsecond⟩ := rejected_iff_conflict letThenVar
  have hrejected : letThenVar.IsRejected :=
    hfirst.mpr (.inr (.inl ⟨rfl, rfl, by decide +kernel⟩))
  exact ⟨hreverses, hrejected, (hsecond varThenLet hreverses).mpr hrejected⟩

end Redeclaration

end ScriptLint.Scope

import Mathlib.Data.List.Find
import ScriptLint.Proofs.Scope.DeadZone
import ScriptLint.Proofs.Scope.Touch

/-! # Declarators

A declarator declares the names of its target in the current frame, and its initial value ends the
dead zones of these names. The ends are set by name, though, wherever in the current function the
name is bound: that is the new binding if the declaration was admitted, and an older one, which may
be that of a block around it, if it was rejected.
-/

namespace ScriptLint.Scope

/-- The binding with the end of its dead zone moved, if it has a dead zone. -/
def Binding.endZone (stop : Nat) (b : Binding) : Binding :=
  if b.kind.hasDeadZone then { b with initializedAt := stop } else b

namespace Binding

variable {b b' : Binding} {stop : Nat}

@[simp]
theorem endZone_kind : (b.endZone stop).kind = b.kind := by
  unfold endZone
  split <;> rfl

@[simp]
theorem endZone_implicit : (b.endZone stop).implicit = b.implicit := by
  unfold endZone
  split <;> rfl

@[simp]
theorem endZone_endZone : (b.endZone stop).endZone stop = b.endZone stop := by
  by_cases hzone : b.kind.hasDeadZone <;> simp [endZone, hzone]

theorem declaration_endZone (h : b'.declaration = b.declaration) :
    (b'.endZone stop).declaration = (b.endZone stop).declaration := by
  have hkind : b'.kind = b.kind := (congrArg Binding.kind h :)
  by_cases hzone : b.kind.hasDeadZone
  · rw [endZone, endZone, if_pos (hkind ▸ hzone), if_pos hzone]
    exact (congrArg (fun b : Binding => { b with initializedAt := stop }) h :)
  · rwa [endZone, endZone, if_neg (hkind ▸ hzone), if_neg hzone]

end Binding

namespace Reference

variable {b b' : Binding}

/-- Whether a use is too early is told by what was declared. -/
theorem inDeadZone_congr (r : Reference) (h : b'.declaration = b.declaration) :
    r.inDeadZone b' = r.inDeadZone b := by
  have hkind : b'.kind = b.kind := (congrArg Binding.kind h :)
  have hend : b'.initializedAt = b.initializedAt := (congrArg Binding.initializedAt h :)
  rw [inDeadZone, hkind, hend]
  rfl

theorem inDeadZone_endZone (r : Reference) (stop : Nat) (b : Binding) :
    r.inDeadZone (b.endZone stop) =
      (b.kind.hasDeadZone && !r.crossedFunction && r.position.offset < stop) := by
  cases hzone : b.kind.hasDeadZone <;> simp [inDeadZone, Binding.endZone, hzone]

end Reference

namespace Tracker

variable {t t' t'' : Tracker} {name : String} {kind : BindingKind}

/-! ## Names that are declared -/

/-- The current frame binds the name anew, as what was declared, and all else is as before. -/
structure Rebinds (t : Tracker) (name : String) (kind : BindingKind) (t' : Tracker) : Prop where
  hoisted : ∀ i, (t'.frame i).hoisted = (t.frame i).hoisted
  other : ∀ i name', ¬ (i = t.currentId ∧ name' = name) →
    (t'.frame i).find? name' = (t.frame i).find? name'
  bound : ∃ b, (t'.frame t.currentId).find? name = some b ∧ b.kind = kind ∧ b.implicit = false

theorem Rebinds.modifyFrame (htarget : t.currentId < t.frames.size) {change : Frame → Frame}
    {b : Binding} (hhoisted : (change (t.frame t.currentId)).hoisted = (t.frame t.currentId).hoisted)
    (hchange : ∀ name', (change (t.frame t.currentId)).find? name' =
      if name' = name then some b else (t.frame t.currentId).find? name')
    (hkind : b.kind = kind) (himplicit : b.implicit = false) :
    t.Rebinds name kind (t.modifyFrame t.currentId change) where
  hoisted := field_modifyFrame Frame.hoisted hhoisted
  other i name' hother := by
    rw [frame_modifyFrame]
    split
    next h =>
      obtain ⟨rfl, -⟩ := h
      rw [hchange, if_neg fun heq => hother ⟨rfl, heq⟩]
    next => rfl
  bound := ⟨b, by rw [frame_modifyFrame, if_pos ⟨rfl, htarget⟩, hchange, if_pos rfl], hkind,
    himplicit⟩

end Tracker

/-- A lexical declaration binds the name anew if it is admitted, and changes nothing if it is
rejected. -/
theorem Action.declareLexical_rebinds {t : Tracker} (htarget : t.currentId < t.frames.size)
    (hindexed : (t.frame t.currentId).Indexed) (name : String) (kind : BindingKind)
    (position : Position) :
    (declareLexical name kind position).Ensures t fun _ t' =>
      t.admitsLexical name = true ∧ t.Rebinds name kind t' ∨
        t.admitsLexical name = false ∧ t' = t := by
  refine declareLexical_ensures (fun b hb himplicit => ?_) (fun hnone hfree => ?_)
    fun hbound hunbound => .inr ⟨Tracker.admitsLexical_eq_false hbound hunbound, rfl⟩
  · refine .inl ⟨(Tracker.admitsLexical_of_find? hb).trans himplicit, ?_⟩
    have hhoisted (f : Frame) (change : Binding → Binding) :
        (f.modify name change).hoisted = f.hoisted := by
      unfold Frame.modify
      split <;> rfl
    have hchange (change : Binding → Binding) (name' : String) :
        ((t.frame t.currentId).modify name change).find? name' =
          if name' = name then some (change b) else (t.frame t.currentId).find? name' := by
      rw [hindexed.find?_modify, hb]
      rfl
    exact .modifyFrame htarget (hhoisted _ _) (hchange _) rfl rfl
  · refine .inl ⟨by rw [Tracker.admitsLexical_of_unbound hnone, hfree, Bool.not_false], ?_⟩
    have hnew : (t.frame t.currentId).binds name = false := by simp [Frame.binds, hnone]
    exact .modifyFrame htarget rfl (hindexed.find?_insert hnew) rfl rfl

namespace Tracker

variable {t t' t'' : Tracker} {name : String} {kind : BindingKind} {names : List String} {stop : Nat}

/-- Whether a name is admitted is told by what the current frame declares. -/
theorem admitsLexical_congr (hdeclared : t'.current.declaration? name = t.current.declaration? name)
    (hhoisted : t'.current.hoisted = t.current.hoisted) :
    t'.admitsLexical name = t.admitsLexical name := by
  have htold (t : Tracker) : t.admitsLexical name =
      ((t.current.declaration? name).map Binding.implicit).getD
        (!t.current.hoisted.contains name) := by
    unfold admitsLexical Frame.declaration?
    cases t.current.find? name <;> rfl
  rw [htold, htold, hdeclared, hhoisted]

/-- The names were declared in the current frame one after the other: those that were admitted are
bound there now, and all else is as before. -/
structure DeclaresAll (t : Tracker) (kind : BindingKind) (names : List String) (t' : Tracker) :
    Prop where
  hoisted : ∀ i, (t'.frame i).hoisted = (t.frame i).hoisted
  other : ∀ i name, ¬ (i = t.currentId ∧ name ∈ names ∧ t.admitsLexical name = true) →
    (t'.frame i).find? name = (t.frame i).find? name
  bound : ∀ name ∈ names, t.admitsLexical name = true →
    ∃ b, (t'.frame t.currentId).find? name = some b ∧ b.kind = kind ∧ b.implicit = false

namespace DeclaresAll

theorem nil (t : Tracker) : t.DeclaresAll kind [] t :=
  ⟨fun _ => rfl, fun _ _ _ => rfl, fun _ hmem => absurd hmem List.not_mem_nil⟩

theorem cons_of_rejected (hrejected : t.admitsLexical name = false)
    (hrest : t.DeclaresAll kind names t') : t.DeclaresAll kind (name :: names) t' := by
  have hmem {name' : String} (h : name' ∈ name :: names) (hadmits : t.admitsLexical name' = true) :
      name' ∈ names := by
    refine (List.mem_cons.mp h).resolve_left ?_
    rintro rfl
    exact Bool.false_ne_true (hrejected.symm.trans hadmits)
  exact ⟨hrest.hoisted, fun i name' h => hrest.other i name' fun ⟨hi, hmem', hadmits⟩ =>
    h ⟨hi, List.mem_cons_of_mem name hmem', hadmits⟩, fun name' h hadmits =>
    hrest.bound name' (hmem h hadmits) hadmits⟩

/-- A name that was admitted is rejected from then on. -/
theorem cons_of_admitted (hadmitted : t.admitsLexical name = true)
    (hcurrent : t'.currentId = t.currentId) (hfirst : t.Rebinds name kind t')
    (hrest : t'.DeclaresAll kind names t'') :
    t.DeclaresAll kind (name :: names) t'' := by
  obtain ⟨b, hb, hkind, himplicit⟩ := hfirst.bound
  have hrejected : t'.admitsLexical name = false := by
    have hfind : t'.current.find? name = some b := by rw [current, hcurrent, hb]
    rw [admitsLexical, hfind]
    exact himplicit
  have hadmits {name' : String} (hne : name' ≠ name) :
      t'.admitsLexical name' = t.admitsLexical name' := by
    refine admitsLexical_congr ?_ ?_
    · rw [Frame.declaration?, current, hcurrent, hfirst.other _ _ fun h => hne h.2]
      rfl
    · rw [current, hcurrent]
      exact hfirst.hoisted _
  refine ⟨fun i => (hrest.hoisted i).trans (hfirst.hoisted i), fun i name' h => ?_,
    fun name' hmem hadmits' => ?_⟩
  · have hsecond : (t''.frame i).find? name' = (t'.frame i).find? name' := by
      refine hrest.other i name' fun hbound => ?_
      obtain ⟨hi, hmem, hadmits'⟩ := hbound
      have hne : name' ≠ name := by
        rintro rfl
        exact Bool.false_ne_true (hrejected.symm.trans hadmits')
      exact h ⟨hi.trans hcurrent, List.mem_cons_of_mem name hmem, (hadmits hne).symm.trans hadmits'⟩
    refine hsecond.trans (hfirst.other i name' ?_)
    rintro ⟨rfl, rfl⟩
    exact h ⟨rfl, List.mem_cons_self, hadmitted⟩
  · by_cases hname : name' = name
    · subst hname
      refine ⟨b, ?_, hkind, himplicit⟩
      rw [hrest.other _ _ fun h => Bool.false_ne_true (hrejected.symm.trans h.2.2), hb]
    · obtain ⟨b', hb', hdeclared⟩ := hrest.bound name'
        ((List.mem_cons.mp hmem).resolve_left hname) ((hadmits hname).trans hadmits')
      exact ⟨b', hcurrent ▸ hb', hdeclared⟩

end DeclaresAll

/-! ## Dead zones that are ended -/

/-- The end of a dead zone is set where the name is found, from the current frame outwards. -/
theorem find?_markInitialized (harena : t.Arena) (hindexed : ∀ i, (t.frame i).Indexed)
    (name : String) (stop i : Nat) (name' : String) :
    ((t.markInitialized name stop).frame i).find? name' =
      if name' = name ∧ t.innermost? name = some i then
        ((t.frame i).find? name').map (·.endZone stop)
      else (t.frame i).find? name' := by
  unfold markInitialized
  split
  next hnone =>
    have hnone : t.innermost? name = none := hnone
    simp [hnone]
  next j hj =>
    have hmem := t.upToFunction_subset t.stack (List.mem_of_find?_eq_some hj)
    have hj : t.innermost? name = some j := hj
    rw [frame_modifyFrame]
    by_cases hi : j = i
    · subst hi
      rw [if_pos ⟨rfl, harena.stack_lt j hmem⟩, (hindexed j).find?_modify]
      by_cases hname : name' = name
      · subst hname
        rw [if_pos rfl, if_pos ⟨rfl, hj⟩]
        rfl
      · rw [if_neg hname, if_neg fun h => hname h.1]
    · rw [if_neg fun h => hi h.1, if_neg fun h => hi (Option.some.inj (hj.symm.trans h.2))]

theorem find?_markAll (harena : t.Arena) (hindexed : ∀ i, (t.frame i).Indexed)
    (names : List String) (stop i : Nat) (name : String) :
    ((t.markAll names stop).frame i).find? name =
      if name ∈ names ∧ t.innermost? name = some i then
        ((t.frame i).find? name).map (·.endZone stop)
      else (t.frame i).find? name := by
  induction names generalizing t with
  | nil => simp [markAll]
  | cons name' names ih =>
      have hgrows := t.markInitialized_grows name' stop
      have hrest := ih (t := t.markInitialized name' stop) (harena.of_grows hgrows)
        fun j => (hgrows.frame j).indexed (hindexed j)
      rw [markAll, List.foldl_cons, ← markAll, hrest, innermost?_markInitialized,
        find?_markInitialized harena hindexed]
      by_cases hname : name = name'
      · subst hname
        by_cases hi : t.innermost? name = some i <;> by_cases hmem : name ∈ names <;>
          simp [hi, hmem, Function.comp_def]
      · simp [hname]

/-! ## Where names are found -/

theorem innermost?_congr (hids : t'.functionIds = t.functionIds)
    (hsame : ∀ i ∈ t.functionIds,
      ((t'.frame i).find? name).isSome = ((t.frame i).find? name).isSome) :
    t'.innermost? name = t.innermost? name := by
  unfold innermost?
  rw [hids]
  exact List.find?_congr hsame

theorem innermost?_current (hstack : t.stack ≠ []) {b : Binding}
    (hfind : (t.frame t.currentId).find? name = some b) :
    t.innermost? name = some t.currentId := by
  obtain ⟨i, rest, hcons⟩ := List.exists_cons_of_ne_nil hstack
  have hcurrent : t.currentId = i := by rw [currentId, hcons]; rfl
  obtain ⟨inner, hids⟩ : ∃ inner, t.functionIds = i :: inner := by
    rw [functionIds, hcons, upToFunction]
    split <;> exact ⟨_, rfl⟩
  rw [hcurrent] at hfind ⊢
  rw [innermost?, hids]
  exact List.find?_cons_of_pos (by rw [hfind]; rfl)

namespace Untouched

theorem currentId (h : t.Untouched t') : t'.currentId = t.currentId := by
  rw [Tracker.currentId, h.stack]
  rfl

theorem functionIds (h : t.Untouched t') (ht : t.Arena) : t'.functionIds = t.functionIds := by
  rw [Tracker.functionIds, h.stack]
  exact upToFunction_congr fun i hi => h.kind i (ht.stack_lt i hi)

theorem isSome_find? (h : t.Untouched t') {i : Nat} (hi : i < t.frames.size) (name : String) :
    ((t'.frame i).find? name).isSome = ((t.frame i).find? name).isSome := by
  have hnone : (t'.frame i).find? name = none ↔ (t.frame i).find? name = none :=
    (h.untouched hi).find?_eq_none
  rw [Bool.eq_iff_iff, Option.isSome_iff_ne_none, Option.isSome_iff_ne_none]
  exact not_congr hnone

theorem innermost? (h : t.Untouched t') (ht : t.Arena) (name : String) :
    t'.innermost? name = t.innermost? name :=
  innermost?_congr (h.functionIds ht) fun i hi =>
    h.isSome_find? (ht.stack_lt i (t.upToFunction_subset t.stack hi)) name

theorem admitsLexical (h : t.Untouched t') (hstack : t.stack ≠ []) (ht : t.Arena) (name : String) :
    t'.admitsLexical name = t.admitsLexical name := by
  have hcurrent := h.untouched (ht.stack_lt _ (currentId_mem_stack hstack))
  refine admitsLexical_congr ?_ ?_ <;> rw [current, h.currentId]
  · exact hcurrent.declaration? name
  · exact hcurrent.hoisted

end Untouched

namespace DeclaresAll

variable (h : t.DeclaresAll kind names t') (hgrows : t.Grows t')
include h hgrows

/-- A rejected name is found where it was. -/
theorem innermost?_of_rejected (hrejected : t.admitsLexical name = false) :
    t'.innermost? name = t.innermost? name := by
  refine innermost?_congr hgrows.functionIds_eq fun i _ => ?_
  rw [h.other i name fun h => Bool.false_ne_true (hrejected.symm.trans h.2.2)]

/-- A name that was admitted is found in the current frame. -/
theorem innermost?_of_admitted (hstack : t.stack ≠ []) (hmem : name ∈ names)
    (hadmitted : t.admitsLexical name = true) : t'.innermost? name = some t.currentId := by
  obtain ⟨b, hb, -⟩ := h.bound name hmem hadmitted
  have hcurrent : t'.currentId = t.currentId := by
    rw [Tracker.currentId, hgrows.stack]
    rfl
  rw [← hcurrent]
  exact innermost?_current (hgrows.stack ▸ hstack) (hcurrent ▸ hb)

end DeclaresAll

/-! ## What becomes of older bindings -/

/-- What a declarator leaves of a binding `b` that a frame had for a name before. The initial value,
if there is one, ends at `stop?`. -/
structure Survives (t : Tracker) (kind : BindingKind) (names : List String) (stop? : Option Nat)
    (i : Nat) (name : String) (b b' : Binding) : Prop where
  /-- The own name of a function expression gives way to the declaration. -/
  takenOver : i = t.currentId → name ∈ names → b.implicit = true →
    b'.kind = kind ∧ b'.implicit = false
  /-- The dead zone of what a rejected name is bound to is moved, and uses are told too early by
  where it ends now. -/
  moved : ∀ stop ∈ stop?, name ∈ names → t.admitsLexical name = false →
    t.innermost? name = some i → b'.declaration = (b.endZone stop).declaration ∧
      ∀ r : Reference, r.inDeadZone b' =
        (b.kind.hasDeadZone && !r.crossedFunction && r.position.offset < stop)
  /-- All else is as it was declared, and the same uses are too early. -/
  kept : ¬ (i = t.currentId ∧ name ∈ names ∧ b.implicit = true) →
    ¬ (stop?.isSome ∧ name ∈ names ∧ t.admitsLexical name = false ∧ t.innermost? name = some i) →
    b'.declaration = b.declaration ∧ ∀ r : Reference, r.inDeadZone b' = r.inDeadZone b

theorem lt_of_find? {i : Nat} {b : Binding} (hfind : (t.frame i).find? name = some b) :
    i < t.frames.size := by
  refine Nat.lt_of_not_le fun hle => ?_
  rw [t.frame_of_size_le hle] at hfind
  cases hfind

section

variable {t₁ t₂ t₃ : Tracker} {stop? : Option Nat} {i : Nat}

/-- What is done at last changes a binding in the end of its dead zone at most. -/
theorem find?_elim_markAll (harena : t.Arena) (hindexed : ∀ i, (t.frame i).Indexed) {b : Binding}
    (hfind : (t.frame i).find? name = some b) :
    ((stop?.elim t (t.markAll names)).frame i).find? name =
      some (if name ∈ names ∧ t.innermost? name = some i then stop?.elim b b.endZone else b) := by
  cases stop? with
  | none => simpa using hfind
  | some stop =>
      change ((t.markAll names stop).frame i).find? name = _
      rw [find?_markAll harena hindexed, hfind]
      split <;> rfl

/-- The steps of a declarator: the target is read, its names are declared, and the initial value is
read. -/
structure DeclaratorSteps (t : Tracker) (kind : BindingKind) (names : List String)
    (t₁ t₂ t₃ : Tracker) : Prop where
  stack : t.stack ≠ []
  arena : t.Arena
  target : t.Untouched t₁
  targetArena : t₁.Arena
  declared : t₁.DeclaresAll kind names t₂
  grows : t₁.Grows t₂
  value : t₂.Untouched t₃

namespace DeclaratorSteps

variable (h : t.DeclaratorSteps kind names t₁ t₂ t₃)
include h

theorem admitsLexical : t₁.admitsLexical name = t.admitsLexical name :=
  h.target.admitsLexical h.stack h.arena name

/-- In the end a rejected name is found where it was. -/
theorem innermost?_of_rejected (hrejected : t.admitsLexical name = false) :
    t₃.innermost? name = t.innermost? name := by
  rw [h.value.innermost? (h.targetArena.of_grows h.grows),
    h.declared.innermost?_of_rejected h.grows (h.admitsLexical.trans hrejected),
    h.target.innermost? h.arena]

/-- In the end a name that was admitted is found in the current frame. -/
theorem innermost?_of_admitted (hmem : name ∈ names) (hadmitted : t.admitsLexical name = true) :
    t₃.innermost? name = some t.currentId := by
  have hstack : t₁.stack ≠ [] := h.target.stack ▸ h.stack
  rw [h.value.innermost? (h.targetArena.of_grows h.grows),
    h.declared.innermost?_of_admitted h.grows hstack hmem (h.admitsLexical.trans hadmitted),
    h.target.currentId]

/-- The current frame has the declaration of a name that was admitted. -/
theorem exists_declared (hmem : name ∈ names) (hadmitted : t.admitsLexical name = true) :
    ∃ b, (t₃.frame t.currentId).find? name = some b ∧ b.kind = kind ∧ b.implicit = false := by
  obtain ⟨b₂, hfind₂, hkind, himplicit⟩ :=
    h.declared.bound name hmem (h.admitsLexical.trans hadmitted)
  rw [h.target.currentId] at hfind₂
  obtain ⟨b₃, hfind₃, hsame⟩ := (h.value.untouched (lt_of_find? hfind₂)).exists_find? hfind₂
  have hkind₃ : b₃.kind = b₂.kind := (congrArg Binding.kind hsame :)
  have himplicit₃ : b₃.implicit = b₂.implicit := (congrArg Binding.implicit hsame :)
  exact ⟨b₃, hfind₃, hkind₃.trans hkind, himplicit₃.trans himplicit⟩

/-- All else is as it was declared when the initial value was read. -/
theorem exists_kept (hother : ¬ (i = t.currentId ∧ name ∈ names ∧ t.admitsLexical name = true))
    {b : Binding} (hfind : (t.frame i).find? name = some b) :
    ∃ b', (t₃.frame i).find? name = some b' ∧ b'.declaration = b.declaration := by
  obtain ⟨b₁, hfind₁, hsame₁⟩ := (h.target.untouched (lt_of_find? hfind)).exists_find? hfind
  have hfind₂ : (t₂.frame i).find? name = some b₁ := by
    rw [h.declared.other i name, hfind₁]
    rwa [h.target.currentId, h.admitsLexical]
  obtain ⟨b₃, hfind₃, hsame₃⟩ := (h.value.untouched (lt_of_find? hfind₂)).exists_find? hfind₂
  exact ⟨b₃, hfind₃, hsame₃.trans hsame₁⟩

theorem exists_survives (harena : t₃.Arena) (hindexed : ∀ i, (t₃.frame i).Indexed)
    (stop? : Option Nat) {b : Binding} (hfind : (t.frame i).find? name = some b) :
    ∃ b', ((stop?.elim t₃ (t₃.markAll names)).frame i).find? name = some b' ∧
      t.Survives kind names stop? i name b b' := by
  by_cases hcurrent : i = t.currentId ∧ name ∈ names ∧ t.admitsLexical name = true
  · obtain ⟨rfl, hmem, hadmitted⟩ := hcurrent
    have himplicit : b.implicit = true := (admitsLexical_of_find? hfind).symm.trans hadmitted
    obtain ⟨b₃, hfind₃, hkind, hexplicit⟩ := h.exists_declared hmem hadmitted
    refine ⟨_, find?_elim_markAll harena hindexed hfind₃, fun _ _ _ => ?_, fun _ _ _ hrejected => ?_,
      fun hother => ?_⟩
    · cases stop? <;> split <;> simp [hkind, hexplicit]
    · exact absurd (hrejected.symm.trans hadmitted) Bool.false_ne_true
    · exact absurd ⟨rfl, hmem, himplicit⟩ hother
  · obtain ⟨b₃, hfind₃, hsame⟩ := h.exists_kept hcurrent hfind
    refine ⟨_, find?_elim_markAll harena hindexed hfind₃, fun hi hmem himplicit => ?_,
      fun stop hstop hmem hrejected hfound => ?_, fun _ hother => ?_⟩
    · subst hi
      exact absurd ⟨rfl, hmem, (admitsLexical_of_find? hfind).trans himplicit⟩ hcurrent
    · obtain rfl : stop? = some stop := hstop
      rw [if_pos ⟨hmem, (h.innermost?_of_rejected hrejected).trans hfound⟩]
      have hends : (b₃.endZone stop).declaration = (b.endZone stop).declaration :=
        Binding.declaration_endZone hsame
      refine ⟨hends, fun r => ?_⟩
      exact (r.inDeadZone_congr hends).trans (r.inDeadZone_endZone stop b)
    · suffices hsettled : ¬ (stop?.isSome ∧ name ∈ names ∧ t₃.innermost? name = some i) by
        have hlast : (if name ∈ names ∧ t₃.innermost? name = some i then stop?.elim b₃ b₃.endZone
            else b₃) = b₃ := by
          cases stop? with
          | none => simp
          | some stop => exact if_neg fun hmoved => hsettled ⟨rfl, hmoved⟩
        rw [hlast]
        exact ⟨hsame, (·.inDeadZone_congr hsame)⟩
      rintro ⟨hstop, hmem, hfound⟩
      cases hadmitted : t.admitsLexical name with
      | false =>
          exact hother
            ⟨hstop, hmem, hadmitted, (h.innermost?_of_rejected hadmitted).symm.trans hfound⟩
      | true =>
          have hi := (h.innermost?_of_admitted hmem hadmitted).symm.trans hfound
          exact hcurrent ⟨(Option.some.inj hi).symm, hmem, hadmitted⟩

end DeclaratorSteps

end

end Tracker

/-! ## Names of classes -/

namespace Tracker

variable {t t' t'' : Tracker} {name : String} {names : List String}

/-- One more frame is open, which binds the names, and the frames of the tracker are untouched. -/
structure Hosts (t : Tracker) (names : List String) (t' : Tracker) : Prop
    extends TouchesOnly [] t t' where
  stack : t'.stack = t'.currentId :: t.stack
  le_currentId : t.frames.size ≤ t'.currentId
  currentId_lt : t'.currentId < t'.frames.size
  bound : ∀ name ∈ names, ((t'.frame t'.currentId).find? name).isSome

namespace Hosts

theorem stack_ne_nil (h : t.Hosts names t') : t'.stack ≠ [] := by
  rw [h.stack]
  exact List.cons_ne_nil _ _

theorem push (t : Tracker) (g : Frame) : t.Hosts [] (t.push g) :=
  ⟨.push t g, rfl, Nat.le_refl _, Nat.lt_of_lt_of_eq (Nat.lt_succ_self _) (Array.size_push g).symm,
    nofun⟩

/-- What the open frame alone is touched by does not matter, if it loses no name. -/
theorem touch (h : t.Hosts names t') (hstack : t''.stack = t'.stack)
    (htouches : t'.TouchesOnly [t'.currentId] t'') {names' : List String}
    (hnames : ∀ name ∈ names', ((t''.frame t'.currentId).find? name).isSome) :
    t.Hosts names' t'' := by
  have hcurrent : t''.currentId = t'.currentId := by
    rw [currentId, hstack]
    rfl
  have hbeyond : t.TouchesOnly [] t'' :=
    h.beyond htouches (List.forall_mem_singleton.mpr h.le_currentId)
  refine ⟨hbeyond, ?_, hcurrent ▸ h.le_currentId, ?_, hcurrent ▸ hnames⟩
  · rw [hstack, hcurrent, h.stack]
  · exact hcurrent ▸ Nat.lt_of_lt_of_le h.currentId_lt htouches.size_le

theorem untouched (h : t.Hosts names t') (hafter : t'.Untouched t'') : t.Hosts names t'' := by
  refine h.touch hafter.stack (hafter.mono (List.nil_subset _)) fun name hmem => ?_
  rw [hafter.isSome_find? h.currentId_lt]
  exact h.bound name hmem

theorem of_untouched (hbefore : t.Untouched t') (h : t'.Hosts names t'') : t.Hosts names t'' :=
  ⟨hbefore.toTouchesOnly.trans h.toTouchesOnly, hbefore.stack ▸ h.stack,
    Nat.le_trans hbefore.size_le h.le_currentId, h.currentId_lt, h.bound⟩

/-- The dead zone of a name of the open frame is ended there. -/
theorem markInitialized (h : t.Hosts names t') (hmem : name ∈ names) (offset : Nat) :
    t.Hosts names (t'.markInitialized name offset) := by
  obtain ⟨b, hb⟩ := Option.isSome_iff_exists.mp (h.bound name hmem)
  have hfound : t'.innermost? name = some t'.currentId := innermost?_current h.stack_ne_nil hb
  refine h.touch (markInitialized_grows name offset).stack ?_ fun name' hmem' => ?_
  · unfold Tracker.markInitialized
    rw [show t'.functionIds.find? _ = some t'.currentId from hfound]
    exact .modify List.mem_cons_self name _
  · rw [isSome_find?_markInitialized]
    exact h.bound name' hmem'

theorem leave (h : t.Hosts names t')
    (hrests : Tracker.Rests { t' with stack := t'.stack.tail } t'') : t.Untouched t'' := by
  refine ⟨h.toTouchesOnly.trans (.of_rests hrests), ?_⟩
  rw [hrests.stack, h.stack]
  rfl

end Hosts

end Tracker

/-- In the frame of a class, which is new, its name is not taken. -/
theorem Action.declareLexical_hosts (t : Tracker) (start : Position) (name : String)
    (kind : BindingKind) (position : Position) :
    (declareLexical name kind position).Ensures (t.enterScope .classBody start) fun _ t' =>
      t.Hosts [name] t' := by
  have hhosts : t.Hosts [] (t.enterScope .classBody start) := .push t _
  have hframe : (t.enterScope .classBody start).frame t.frames.size =
      { kind := .classBody, parent? := some t.currentId, name := t.functionName, start,
        strict := true } := by
    rw [Tracker.enterScope, Tracker.frame_push, if_pos rfl]
    rfl
  have hadmits : (t.enterScope .classBody start).admitsLexical name = true := by
    have hcurrent : (t.enterScope .classBody start).current = _ := hframe
    rw [Tracker.admitsLexical, hcurrent]
    rfl
  have hrebinds := declareLexical_rebinds (t := t.enterScope .classBody start)
    (by simp [Tracker.enterScope, Tracker.push, Tracker.currentId])
    (hframe ▸ .of_empty rfl rfl) name kind position
  have hgrows := declareLexical_grows hhosts.stack_ne_nil name kind position
  have htouches := declareLexical_touches (List.mem_singleton_self
    (t.enterScope .classBody start).currentId) name kind position
  refine ((hrebinds.and hgrows).and htouches).mono fun _ t' h => ?_
  obtain ⟨⟨hrebinds, hgrows⟩, htouches⟩ := h
  refine hhosts.touch hgrows.stack htouches fun name' hmem => ?_
  obtain ⟨-, hbound⟩ | ⟨hrejected, -⟩ := hrebinds
  · obtain ⟨b, hb, -⟩ := hbound.bound
    rw [List.mem_singleton.mp hmem, hb]
    rfl
  · exact absurd (hrejected.symm.trans hadmits) Bool.false_ne_true

end ScriptLint.Scope

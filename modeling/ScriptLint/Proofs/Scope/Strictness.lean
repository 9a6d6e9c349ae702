import ScriptLint.Proofs.Scope.Station

/-! # Strictness

Only the frames up to the current function are looked at to tell whether code is strict, for what is
further out was copied when the function was entered. A function may be made strict later, but only
while it is the current one, so the copies are never behind: code is strict exactly where some open
frame is. What is strict inside a function does not reach the code around it.
-/

namespace ScriptLint.Scope

open Tracker (atFunction)

/-! ## Inheritance -/

namespace Station

variable {es : List Station} {change : Station → Station}

/-- A function inside strict code is strict, and so are class bodies and modules. -/
structure Inherits (es : List Station) : Prop where
  inner : es.Pairwise fun inner outer => inner.holdsVars → outer.strict → inner.strict
  outright : ∀ e ∈ es, e.kind = .classBody ∨ e.kind = .module → e.strict

namespace Inherits

theorem tail (hes : Inherits es) : Inherits es.tail :=
  ⟨hes.inner.sublist (List.tail_sublist es),
    fun e hmem => hes.outright e ((List.tail_sublist es).subset hmem)⟩

/-- It is enough to look at the frames up to the current function. -/
theorem isStrict_iff (hes : Inherits es) : isStrict es ↔ ∃ e ∈ es, e.strict := by
  induction es with
  | nil => simp [isStrict]
  | cons e outer ih =>
      have houter : isStrict outer ↔ ∃ e ∈ outer, e.strict := ih hes.tail
      have hinner := (List.pairwise_cons.mp hes.inner).1
      rw [isStrict, Bool.or_eq_true, Bool.and_eq_true, houter, List.exists_mem_cons_iff]
      constructor
      · exact Or.imp_right fun h => h.2
      · rintro (hstrict | ⟨o, hmem, hstrict⟩)
        · exact .inl hstrict
        · cases hholds : e.holdsVars with
          | true => exact .inl (hinner o hmem hholds hstrict)
          | false => exact .inr ⟨rfl, o, hmem, hstrict⟩

/-- A block, a `catch` clause or a class body is opened. -/
theorem enterScope (hes : Inherits es) {kind : FrameKind} (hkind : kind.holdsVars = false) :
    Inherits (opened kind (kind = .classBody) :: es) where
  inner := by
    refine List.pairwise_cons.mpr ⟨fun o _ hholds => ?_, hes.inner⟩
    exact absurd (hkind.symm.trans hholds) Bool.false_ne_true
  outright e hmem hstrict := by
    rcases List.mem_cons.mp hmem with rfl | hmem
    · rcases hstrict with rfl | rfl
      · rfl
      · cases hkind
    · exact hes.outright e hmem hstrict

/-- A function is entered. -/
theorem enterFunction (hes : Inherits es) : Inherits (opened .function (isStrict es) :: es) where
  inner := by
    refine List.pairwise_cons.mpr ⟨fun o hmem _ hstrict => ?_, hes.inner⟩
    exact hes.isStrict_iff.mpr ⟨o, hmem, hstrict⟩
  outright e hmem hstrict := by
    rcases List.mem_cons.mp hmem with rfl | hmem
    · rcases hstrict with hkind | hkind <;> cases hkind
    · exact hes.outright e hmem hstrict

/-- What happens at the current function does not make it less strict. -/
theorem atFunction (hes : Inherits es) (hkind : ∀ e, (change e).kind = e.kind)
    (hstrict : ∀ e, e.strict → (change e).strict) : Inherits (atFunction holdsVars change es) := by
  have hholds (e : Station) : (change e).holdsVars = e.holdsVars :=
    congrArg FrameKind.holdsVars (hkind e)
  induction es with
  | nil => exact hes
  | cons e outer ih =>
      obtain ⟨hinner, houter⟩ := List.pairwise_cons.mp hes.inner
      have hrest := ih hes.tail
      rw [Tracker.atFunction]
      split
      next =>
        refine ⟨List.pairwise_cons.mpr ⟨fun o hmem h h' => ?_, houter⟩, fun o hmem => ?_⟩
        · exact hstrict e (hinner o hmem (hholds e ▸ h) h')
        · rcases List.mem_cons.mp hmem with rfl | hmem
          · rw [hkind]
            exact fun h => hstrict e (hes.outright e List.mem_cons_self h)
          · exact hes.outright o (List.mem_cons_of_mem e hmem)
      next hfunction =>
        have hblock : e.holdsVars = false := by simp_all
        refine ⟨List.pairwise_cons.mpr ⟨fun o _ h => ?_, hrest.inner⟩, fun o hmem => ?_⟩
        · exact absurd (hblock.symm.trans h) Bool.false_ne_true
        · rcases List.mem_cons.mp hmem with rfl | hmem
          · exact hes.outright o List.mem_cons_self
          · exact hrest.outright o hmem

end Inherits

end Station

namespace Operation

/-- Whether the scope that the operation opens, if it opens one other than a function, is a block, a
`catch` clause or a class body. -/
def opensInside : Operation → Prop
  | enterScope kind _ => kind.holdsVars = false
  | _ => True

theorem shift_inherits {operation : Operation} (hinside : operation.opensInside) {es : List Station}
    (hes : Station.Inherits es) : Station.Inherits (operation.shift es) := by
  cases operation with
  | enterScope => exact hes.enterScope hinside
  | enterFunction => exact hes.enterFunction
  | exitScope => exact hes.tail
  | setStrict => exact hes.atFunction (fun _ => rfl) fun _ _ => rfl
  | pushLabel | popLabel | enterLoop | exitLoop | enterSwitch | exitSwitch =>
      exact hes.atFunction (fun _ => rfl) fun _ => id
  | _ => exact hes

end Operation

/-! ## Sessions -/

namespace Session

/-- The session after operations, where the next one is performed also if one is cut short. -/
def after (operations : List Operation) (s : Session) : Session :=
  operations.foldl (fun s operation => (operation.perform.run.run s).2) s

theorem after_append (first second : List Operation) (s : Session) :
    s.after (first ++ second) = (s.after first).after second := List.foldl_append

/-- A session to which operations lead from the beginning of a program. -/
def Arises (s : Session) : Prop :=
  ∃ known rules module strict sink operations, (∀ operation ∈ operations, operation.opensInside) ∧
    s = after operations ⟨.start known rules module strict, sink⟩

theorem after_inherits {operations : List Operation} {s : Session}
    (hinside : ∀ operation ∈ operations, operation.opensInside) (hs : s.tracker.Stacked)
    (hinherits : Station.Inherits s.tracker.stations) :
    (s.after operations).tracker.Stacked ∧
      Station.Inherits (s.after operations).tracker.stations := by
  induction operations generalizing s with
  | nil => exact ⟨hs, hinherits⟩
  | cons operation operations ih =>
      obtain ⟨hstacked, hstations⟩ := operation.perform_stations hs
      refine ih (fun o hmem => hinside o (List.mem_cons_of_mem _ hmem)) hstacked ?_
      rw [hstations]
      exact Operation.shift_inherits (hinside operation List.mem_cons_self) hinherits

namespace Arises

variable {s : Session}

theorem inherits (hs : s.Arises) : s.tracker.Stacked ∧ Station.Inherits s.tracker.stations := by
  obtain ⟨known, rules, module, strict, sink, operations, hinside, rfl⟩ := hs
  refine after_inherits hinside (.start known rules module strict) ?_
  cases module with
  | false =>
      change Station.Inherits [.opened .global strict]
      refine ⟨List.pairwise_singleton _ _, ?_⟩
      rintro e hmem (h | h) <;> cases List.mem_singleton.mp hmem <;> cases h
  | true =>
      change Station.Inherits [.opened .module true, .opened .global strict]
      refine ⟨by simp [Station.opened], ?_⟩
      rintro e hmem hkind
      rcases List.mem_cons.mp hmem with rfl | hmem
      · rfl
      · cases List.mem_singleton.mp hmem
        rcases hkind with h | h <;> cases h

/-- More operations lead on. -/
theorem after (hs : s.Arises) (operations : List Operation)
    (hinside : ∀ operation ∈ operations, operation.opensInside) :
    (s.after operations).Arises := by
  obtain ⟨known, rules, module, strict, sink, before, hbefore, rfl⟩ := hs
  refine ⟨known, rules, module, strict, sink, before ++ operations, ?_, ?_⟩
  · intro operation hmem
    exact (List.mem_append.mp hmem).elim (hbefore operation) (hinside operation)
  · exact (after_append before operations _).symm

/-- The end of a program closes frames as operations do. -/
theorem finish (hs : s.Arises) : (Action.finish.run.run s).2.Arises := by
  have hexits (ids : List Nat) {s : Session} (hs : s.Arises) :
      ((ids.forM fun _ => Action.exitScope).run.run s).2.Arises := by
    induction ids generalizing s with
    | nil => exact hs
    | cons _ ids ih =>
        have hexit : (Action.exitScope.run.run s).2.Arises :=
          hs.after [.exitScope] fun _ hmem => by
            cases List.mem_singleton.mp hmem
            trivial
        change ((Action.exitScope >>= fun _ =>
          ids.forM fun _ => Action.exitScope).run.run s).2.Arises
        rw [Action.run_bind]
        rcases hrun : Action.exitScope.run.run s with ⟨reason | ⟨⟩, s'⟩ <;> rw [hrun] at hexit
        · exact hexit
        · exact ih hexit
  exact hexits s.tracker.stack hs

end Arises

/-! ## The code around a scope -/

end Session

namespace Station

variable {es : List Station} {change : Station → Station} {n : Nat}

/-- A change at the current function reaches beyond the innermost frames if none of these is a
function. -/
theorem drop_atFunction (es : List Station) (n : Nat) :
    (atFunction holdsVars change es).drop n =
      if (es.take n).any holdsVars then es.drop n
      else atFunction holdsVars change (es.drop n) := by
  induction n generalizing es with
  | zero => rfl
  | succ n ih =>
      cases es with
      | nil => rfl
      | cons e outer =>
          rw [List.take_succ_cons, List.any_cons, List.drop_succ_cons, atFunction]
          cases hholds : e.holdsVars with
          | true => rfl
          | false =>
              cases outer with
              | nil => simp [atFunction]
              | cons o outer => exact ih (o :: outer)

/-- Some frame is strict after the current function was made so. -/
theorem exists_strict_setStrict :
    (∃ e ∈ atFunction holdsVars setStrict es, e.strict) ↔ es ≠ [] := by
  cases es with
  | nil => simp [atFunction]
  | cons e outer =>
      refine iff_of_true ?_ (List.cons_ne_nil e outer)
      induction outer generalizing e with
      | nil => exact ⟨setStrict e, by simp [atFunction], rfl⟩
      | cons o outer ih =>
          rw [atFunction]
          split
          · exact ⟨setStrict e, List.mem_cons_self, rfl⟩
          · obtain ⟨e', hmem, hstrict⟩ := ih o
            exact ⟨e', List.mem_cons_of_mem _ hmem, hstrict⟩

end Station

namespace Tracker

variable {t : Tracker}

/-- The current function is beyond the innermost frames if none of these is a function. -/
theorem functionId_mem_drop (ht : t.Stacked) (n : Nat) :
    t.functionId ∈ t.stack.drop n ↔
      (t.stations.take n).any Station.holdsVars = false ∧ t.stations.drop n ≠ [] := by
  suffices hpart : ∀ ids : List Nat, ids.Nodup → ∀ n,
      (t.upToFunction ids).getLastD 0 ∈ ids.drop n ↔
        (((ids.map fun i => (t.frame i).station).take n).any Station.holdsVars = false ∧
          (ids.map fun i => (t.frame i).station).drop n ≠ []) from hpart t.stack ht.nodup n
  intro ids hnodup
  induction ids with
  | nil => simp
  | cons i ids ih =>
      intro n
      obtain ⟨hi, hnodup⟩ := List.nodup_cons.mp hnodup
      have hholds : (t.frame i).station.holdsVars = (t.frame i).kind.holdsVars := rfl
      cases n with
      | zero => simpa using t.getLastD_upToFunction_mem (List.cons_ne_nil i ids)
      | succ n =>
          rw [getLastD_upToFunction, List.drop_succ_cons, List.map_cons, List.take_succ_cons,
            List.any_cons, List.drop_succ_cons, hholds]
          cases hfunction : (t.frame i).kind.holdsVars with
          | true => simpa using fun hmem => hi (List.mem_of_mem_drop hmem)
          | false =>
              cases ids with
              | nil => simp
              | cons j ids => simpa using ih hnodup n

end Tracker

namespace Operation

variable {operation : Operation} {es : List Station} {n : Nat}

/-- The frames beyond the innermost ones stay where they are. -/
theorem drop_stackAfter (hpos : 0 < n) (size : Nat) (ids : List Nat) :
    (operation.stackAfter size ids).drop (operation.depthAfter n) = ids.drop n := by
  cases operation with
  | exitScope =>
      obtain ⟨n, rfl⟩ := Nat.exists_eq_add_one.mpr hpos
      exact List.drop_tail
  | _ => rfl

theorem drop_stack_perform (hpos : 0 < n) (s : Session) :
    (operation.perform.run.run s).2.tracker.stack.drop (operation.depthAfter n) =
      s.tracker.stack.drop n := by
  rw [operation.stack_perform, drop_stackAfter hpos]

/-- Of the frames beyond the innermost ones, one is made strict where it is the current function. -/
theorem exists_strict_shift (hpos : 0 < n) :
    (∃ e ∈ (operation.shift es).drop (operation.depthAfter n), e.strict) ↔
      (∃ e ∈ es.drop n, e.strict) ∨ operation = .setStrict ∧
        (es.take n).any Station.holdsVars = false ∧ es.drop n ≠ [] := by
  have hsame {es' : List Station} {n' : Nat}
      (h : (es'.drop n').map Station.strict = (es.drop n).map Station.strict)
      (hother : operation ≠ .setStrict) :
      (∃ e ∈ es'.drop n', e.strict) ↔ (∃ e ∈ es.drop n, e.strict) ∨ operation = .setStrict ∧
        (es.take n).any Station.holdsVars = false ∧ es.drop n ≠ [] := by
    have hmap (es : List Station) : (∃ e ∈ es, e.strict) ↔ true ∈ es.map Station.strict := by
      simp
    rw [hmap, hmap, h]
    simp [hother]
  have hchange {change : Station → Station} (h : ∀ e, (change e).strict = e.strict) :
      ((atFunction Station.holdsVars change es).drop n).map Station.strict =
        (es.drop n).map Station.strict := by
    rw [List.map_drop, Tracker.map_atFunction h, List.map_drop]
  cases operation with
  | exitScope =>
      obtain ⟨n, rfl⟩ := Nat.exists_eq_add_one.mpr hpos
      exact hsame (congrArg _ List.drop_tail) nofun
  | setStrict =>
      change (∃ e ∈ (atFunction Station.holdsVars .setStrict es).drop n, e.strict) ↔ _
      rw [Station.drop_atFunction]
      split
      next hfunction => simp [hfunction]
      next hfunction =>
        rw [Station.exists_strict_setStrict, Bool.eq_false_iff.mpr hfunction]
        constructor
        · exact fun h => .inr ⟨rfl, rfl, h⟩
        · rintro (⟨e, hmem, -⟩ | ⟨-, -, h⟩)
          · exact List.ne_nil_of_mem hmem
          · exact h
  | pushLabel label => exact hsame (hchange fun _ => rfl) nofun
  | popLabel | enterLoop | exitLoop | enterSwitch | exitSwitch =>
      exact hsame (hchange fun _ => rfl) nofun
  | _ => exact hsame rfl nofun

/-- The kind of a frame that stays open is the same all along. -/
theorem kind_shift (hpos : 0 < n) (hopen : 0 < operation.depthAfter n) :
    ((operation.shift es)[operation.depthAfter n - 1]?).map Station.kind =
      (es[n - 1]?).map Station.kind := by
  have hchange {change : Station → Station} (h : ∀ e, (change e).kind = e.kind) :
      ((atFunction Station.holdsVars change es)[n - 1]?).map Station.kind =
        (es[n - 1]?).map Station.kind := by
    rw [← List.getElem?_map, Tracker.map_atFunction h, List.getElem?_map]
  cases operation with
  | enterScope | enterFunction =>
      obtain ⟨n, rfl⟩ := Nat.exists_eq_add_one.mpr hpos
      rfl
  | exitScope =>
      obtain ⟨n, rfl⟩ := Nat.exists_eq_add_one.mpr hpos
      obtain ⟨n, rfl⟩ := Nat.exists_eq_add_one.mpr hopen
      exact congrArg _ List.getElem?_tail
  | setStrict | pushLabel | popLabel | enterLoop | exitLoop | enterSwitch | exitSwitch =>
      exact hchange fun _ => rfl
  | _ => rfl

/-- The number of frames open inside after operations. -/
def depthAfterAll (depth : Nat) (operations : List Operation) : Nat :=
  operations.foldl depthAfter depth

/-- The operations between the opening and the closing of a scope: it is open all along, and in the
end nothing inside is left open. -/
def IsVisit (walk : List Operation) : Prop := keepOpen 1 walk ∧ depthAfterAll 1 walk = 1

end Operation

namespace Session

variable {walk : List Operation} {s : Session} {n : Nat}

/-- Whether one of the frames is made strict by one of the operations. -/
def MakesStrict (ids : List Nat) (walk : List Operation) (s : Session) : Prop :=
  ∃ before rest, walk = before ++ .setStrict :: rest ∧ (s.after before).tracker.functionId ∈ ids

theorem not_makesStrict_nil {ids : List Nat} : ¬ s.MakesStrict ids [] := by
  rintro ⟨_ | ⟨_, _⟩, _, hwalk, -⟩ <;> cases hwalk

theorem makesStrict_cons {ids : List Nat} {operation : Operation} :
    s.MakesStrict ids (operation :: walk) ↔
      operation = .setStrict ∧ s.tracker.functionId ∈ ids ∨
        (s.after [operation]).MakesStrict ids walk := by
  constructor
  · rintro ⟨_ | ⟨first, before⟩, rest, hwalk, hmem⟩
    · exact .inl ⟨(List.cons.inj hwalk).1, hmem⟩
    · obtain ⟨rfl, rfl⟩ := List.cons.inj hwalk
      exact .inr ⟨before, rest, rfl, hmem⟩
  · rintro (⟨rfl, hmem⟩ | ⟨before, rest, rfl, hmem⟩)
    · exact ⟨[], walk, rfl, hmem⟩
    · exact ⟨operation :: before, rest, rfl, hmem⟩

/-- While the innermost frames stay open, those further out stay where they are, and are made strict
only where one of them is the current function. -/
theorem after_around (hs : s.tracker.Stacked) (hpos : 0 < n) (hopen : Operation.keepOpen n walk) :
    (s.after walk).tracker.Stacked ∧
    (s.after walk).tracker.stack.drop (Operation.depthAfterAll n walk) = s.tracker.stack.drop n ∧
    ((∃ e ∈ (s.after walk).tracker.stations.drop (Operation.depthAfterAll n walk), e.strict) ↔
      (∃ e ∈ s.tracker.stations.drop n, e.strict) ∨
        s.MakesStrict (s.tracker.stack.drop n) walk) := by
  induction walk generalizing s n with
  | nil => exact ⟨hs, rfl, (or_iff_left not_makesStrict_nil).symm⟩
  | cons operation walk ih =>
      obtain ⟨hfirst, hrest⟩ := (Bool.and_eq_true _ _).mp hopen
      obtain ⟨hstacked, hstations⟩ := operation.perform_stations hs
      have hstack := operation.drop_stack_perform hpos s
      obtain ⟨hafter, hsame, hstrict⟩ := ih hstacked (of_decide_eq_true hfirst) hrest
      refine ⟨hafter, hsame.trans hstack, ?_⟩
      rw [hstations, Operation.exists_strict_shift hpos, hstack,
        ← Tracker.functionId_mem_drop hs] at hstrict
      rw [makesStrict_cons, ← or_assoc]
      exact hstrict

/-- Nothing in a function makes the code around it strict. -/
theorem not_makesStrict (hs : s.tracker.Stacked) (hpos : 0 < n)
    (hopen : Operation.keepOpen n walk)
    (hfunction : (s.tracker.stations[n - 1]?).map Station.kind = some .function) :
    ¬ s.MakesStrict (s.tracker.stack.drop n) walk := by
  induction walk generalizing s n with
  | nil => exact not_makesStrict_nil
  | cons operation walk ih =>
      obtain ⟨hfirst, hrest⟩ := (Bool.and_eq_true _ _).mp hopen
      have hfirst := of_decide_eq_true hfirst
      obtain ⟨hstacked, hstations⟩ := operation.perform_stations hs
      have hstack := operation.drop_stack_perform hpos s
      rw [makesStrict_cons, not_or]
      constructor
      · rintro ⟨-, hmem⟩
        obtain ⟨hnone, -⟩ := (Tracker.functionId_mem_drop hs n).mp hmem
        obtain ⟨e, he, hkind⟩ := Option.map_eq_some_iff.mp hfunction
        have hmem : e ∈ s.tracker.stations.take n := by
          refine List.mem_of_getElem? (i := n - 1) ?_
          rw [List.getElem?_take_of_lt (by omega), he]
        have hholds : e.holdsVars = false := by simpa using List.any_eq_false.mp hnone e hmem
        rw [Station.holdsVars, hkind] at hholds
        cases hholds
      · rw [← hstack]
        refine ih hstacked hfirst hrest ?_
        rw [hstations, Operation.kind_shift hpos hfirst, hfunction]

namespace Arises

/-- Code is strict where some open frame is. -/
theorem isStrict_iff (hs : s.Arises) :
    s.tracker.isStrict ↔ ∃ e ∈ s.tracker.stations, e.strict := by
  rw [Tracker.isStrict_eq]
  exact hs.inherits.2.isStrict_iff

/-- Behind a scope, code is strict if it was so in front of it or was made so inside. -/
theorem leave (hs : s.Arises) (entry : Operation) (hentry : entry.opensInside)
    (hstack : ∀ size ids, (entry.stackAfter size ids).drop 1 = ids)
    (hstations : ∀ es, (entry.shift es).drop 1 = es)
    (hinside : ∀ operation ∈ walk, operation.opensInside) (hvisit : Operation.IsVisit walk) :
    (s.after (entry :: walk ++ [.exitScope])).tracker.stack = s.tracker.stack ∧
      ((s.after (entry :: walk ++ [.exitScope])).tracker.isStrict ↔
        s.tracker.isStrict ∨ (s.after [entry]).MakesStrict s.tracker.stack walk) := by
  obtain ⟨hopen, hdepth⟩ := hvisit
  have hleft : (s.after (entry :: walk ++ [.exitScope])).Arises := by
    refine hs.after _ fun operation hmem => ?_
    rcases List.mem_append.mp hmem with hmem | hmem
    · rcases List.mem_cons.mp hmem with rfl | hmem
      · exact hentry
      · exact hinside operation hmem
    · cases List.mem_singleton.mp hmem
      trivial
  -- In the scope, the frames around it are all but one.
  obtain ⟨hentered, hentered'⟩ := entry.perform_stations hs.inherits.1
  have hstack₁ : (s.after [entry]).tracker.stack.drop 1 = s.tracker.stack := by
    refine (congrArg (List.drop 1) (entry.stack_perform s)).trans (hstack _ _)
  have hstations₁ : (s.after [entry]).tracker.stations.drop 1 = s.tracker.stations :=
    (congrArg (List.drop 1) hentered').trans (hstations _)
  obtain ⟨hwalked, hsame, hstrict⟩ :=
    after_around (s := s.after [entry]) hentered Nat.one_pos hopen
  rw [hdepth, hstack₁] at hsame
  rw [hdepth, hstack₁, hstations₁, ← hs.isStrict_iff] at hstrict
  have hexit : s.after (entry :: walk ++ [.exitScope]) =
      (Operation.exitScope.perform.run.run ((s.after [entry]).after walk)).2 := by
    rw [List.cons_append, ← List.singleton_append, after_append, after_append]
    rfl
  have hclosed := (Operation.exitScope.perform_stations hwalked).2
  rw [← hexit] at hclosed
  constructor
  · rw [hexit, Operation.stack_perform]
    exact List.drop_one.symm.trans hsame
  · rw [hleft.isStrict_iff, hclosed, ← hstrict, List.drop_one]
    rfl

/-- Strictness is inherited. Code is strict exactly where some open frame is, so it is strict
everywhere inside a class body, a module or a strict function. Leaving a function restores the
strictness of the code around it, and so does leaving a block or a class body, unless the function
around was made strict in between. -/
theorem strictness_inherited (hs : s.Arises) :
    (s.tracker.isStrict ↔ ∃ id ∈ s.tracker.stack, (s.tracker.frame id).strict) ∧
    (∀ id ∈ s.tracker.stack, (s.tracker.frame id).kind = .classBody ∨
      (s.tracker.frame id).kind = .module ∨ (s.tracker.frame id).strict → s.tracker.isStrict) ∧
    ∀ walk, (∀ operation ∈ walk, operation.opensInside) → Operation.IsVisit walk →
      (∀ facts start,
        let left := s.after (.enterFunction facts start :: walk ++ [.exitScope])
        left.tracker.stack = s.tracker.stack ∧ left.tracker.isStrict = s.tracker.isStrict) ∧
      ∀ kind start, kind.holdsVars = false →
        let left := s.after (.enterScope kind start :: walk ++ [.exitScope])
        left.tracker.stack = s.tracker.stack ∧
          (left.tracker.isStrict ↔ s.tracker.isStrict ∨
            (s.after [.enterScope kind start]).MakesStrict s.tracker.stack walk) := by
  have hstrict : s.tracker.isStrict ↔ ∃ id ∈ s.tracker.stack, (s.tracker.frame id).strict := by
    rw [hs.isStrict_iff, Tracker.stations, Tracker.views]
    simp [Frame.station]
  refine ⟨hstrict, fun id hmem hkind => hstrict.mpr ⟨id, hmem, ?_⟩, fun walk hinside hvisit => ?_⟩
  · have hstation : (s.tracker.frame id).station ∈ s.tracker.stations := List.mem_map_of_mem hmem
    rcases hkind with hkind | hkind | h
    · exact hs.inherits.2.outright _ hstation (.inl hkind)
    · exact hs.inherits.2.outright _ hstation (.inr hkind)
    · exact h
  · refine ⟨fun facts start => ?_, fun kind start hkind => ?_⟩
    · obtain ⟨hstack, hleft⟩ := hs.leave (.enterFunction facts start) trivial
        (fun _ _ => rfl) (fun _ => rfl) hinside hvisit
      refine ⟨hstack, Bool.eq_iff_iff.mpr (hleft.trans (or_iff_left ?_))⟩
      obtain ⟨hentered, hentered'⟩ :=
        (Operation.enterFunction facts start).perform_stations hs.inherits.1
      exact not_makesStrict (s := s.after [.enterFunction facts start]) hentered Nat.one_pos
        hvisit.1 (congrArg (fun es => (es[0]?).map Station.kind) hentered')
    · exact hs.leave (.enterScope kind start) hkind (fun _ _ => rfl) (fun _ => rfl)
        hinside hvisit

end Arises

/-- The session in a block of a method, in a program that is not strict. -/
def inMethod : Session :=
  after [.enterScope .classBody .start, .enterFunction { name := "m", method := true } .start,
      .enterScope .block .start]
    ⟨.start {} (.ofOptions {}) false false, .start 50 1 (.ofList [])⟩

theorem strictness_in_method :
    inMethod.Arises ∧ inMethod.tracker.isStrict = true ∧
      (inMethod.tracker.isStrict ↔
        ∃ id ∈ inMethod.tracker.stack, (inMethod.tracker.frame id).strict) ∧
      (inMethod.after [.enterFunction {} .start, .setStrict, .exitScope]).tracker.isStrict =
        inMethod.tracker.isStrict := by
  have harises : inMethod.Arises := by
    refine ⟨_, _, false, false, _, _, ?_, rfl⟩
    simp [Operation.opensInside, FrameKind.holdsVars]
  have hwalk : ∀ operation ∈ [Operation.setStrict], operation.opensInside := by
    intro operation hmem
    cases List.mem_singleton.mp hmem
    trivial
  obtain ⟨hiff, hinside, hleave⟩ := harises.strictness_inherited
  refine ⟨harises, hinside 1 (by decide) (.inl rfl), hiff, ?_⟩
  exact ((hleave [.setStrict] hwalk ⟨rfl, rfl⟩).1 {} .start).2

end Session

end ScriptLint.Scope

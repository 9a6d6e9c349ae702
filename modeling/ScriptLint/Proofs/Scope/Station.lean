import ScriptLint.Proofs.Scope.Export
import ScriptLint.Proofs.Scope.Outline

/-! # Stations

The open frames as a list of stations, innermost first, without names, numbers and references. Each
operation of scope analysis does to this list what it does whatever names there are and whether or
not it is cut short, so what is true of the stations after any operations can be found out on lists.
-/

namespace ScriptLint.Scope

variable {γ : Type} {holds : γ → Bool}

/-! ## Views of the open frames -/

namespace Tracker

variable {t t' : Tracker}

/-- The frame that was opened last is the innermost one, and all of them are there. -/
def Stacked (t : Tracker) : Prop := (t.frames.size :: t.stack).Pairwise (· > ·)

namespace Stacked

theorem lt (ht : t.Stacked) : ∀ i ∈ t.stack, i < t.frames.size := (List.pairwise_cons.mp ht).1

theorem nodup (ht : t.Stacked) : t.stack.Nodup :=
  (List.pairwise_cons.mp ht).2.imp fun h => Nat.ne_of_gt h

theorem start (known : KnownGlobals) (rules : Rules) (module strict : Bool) :
    (start known rules module strict).Stacked := by
  unfold Tracker.start Stacked
  cases module <;> simp [push]

theorem push (ht : t.Stacked) (f : Frame) : (t.push f).Stacked := by
  have hsize : (t.push f).frames.size = t.frames.size + 1 := Array.size_push f
  change ((t.push f).frames.size :: t.frames.size :: t.stack).Pairwise (· > ·)
  rw [hsize]
  refine List.pairwise_cons.mpr ⟨fun i hi => ?_, ht⟩
  rcases List.mem_cons.mp hi with rfl | hi
  · exact Nat.lt_succ_self _
  · exact Nat.lt_succ_of_lt (ht.lt i hi)

theorem pop (ht : t.Stacked) : t.pop.Stacked :=
  List.Pairwise.sublist (List.Sublist.cons_cons _ (List.tail_sublist _)) ht

theorem of_eq (ht : t.Stacked) (hstack : t'.stack = t.stack)
    (hsize : t'.frames.size = t.frames.size) : t'.Stacked := by
  rw [Stacked, hstack, hsize]
  exact ht

theorem modifyFunction (ht : t.Stacked) (change : Frame → Frame) :
    (t.modifyFunction change).Stacked :=
  ht.of_eq rfl (t.modifyFrame_size t.functionId change)

end Stacked

/-- The innermost function of some frames is the first of them, or that of the others. -/
theorem getLastD_upToFunction (t : Tracker) (i : Nat) (ids : List Nat) :
    (t.upToFunction (i :: ids)).getLastD 0 =
      if ((t.frame i).kind.holdsVars || ids.isEmpty) = true then i
      else (t.upToFunction ids).getLastD 0 := by
  rw [upToFunction]
  by_cases hfunction : (t.frame i).kind.holdsVars = true
  · rw [if_pos hfunction, if_pos (by rw [hfunction, Bool.true_or])]
    rfl
  · rw [if_neg hfunction, Bool.eq_false_iff.mpr hfunction, Bool.false_or]
    cases ids with
    | nil => rfl
    | cons j rest =>
        have hne : t.upToFunction (j :: rest) ≠ [] := upToFunction_ne_nil (List.cons_ne_nil _ _)
        rw [List.isEmpty_cons, if_neg Bool.false_ne_true, List.getLastD_eq_getLast?,
          List.getLastD_eq_getLast?, List.getLast?_cons, List.getLast?_eq_some_getLast hne]
        rfl

theorem getLastD_upToFunction_mem (t : Tracker) {ids : List Nat} (hids : ids ≠ []) :
    (t.upToFunction ids).getLastD 0 ∈ ids := by
  have hne := t.upToFunction_ne_nil hids
  rw [List.getLastD_eq_getLast?, List.getLast?_eq_some_getLast hne]
  exact t.upToFunction_subset ids (List.getLast_mem hne)

/-- The open frames under a view, innermost first. -/
def views (view : Frame → γ) (t : Tracker) : List γ := t.stack.map fun i => view (t.frame i)

theorem views_push (view : Frame → γ) (ht : t.Stacked) (f : Frame) :
    (t.push f).views view = view f :: t.views view := by
  change view ((t.push f).frame t.frames.size) ::
    t.stack.map (fun i => view ((t.push f).frame i)) = _
  refine congrArg₂ List.cons ?_ (List.map_congr_left fun i hi => ?_)
  · rw [frame_push, if_pos rfl]
  · rw [frame_push, if_neg (Nat.ne_of_lt (ht.lt i hi))]

/-- Change the first of some views that is one of a function, or the last if there is none. -/
def atFunction (holds : γ → Bool) (change : γ → γ) : List γ → List γ
  | [] => []
  | e :: outer =>
    if holds e || outer.isEmpty then change e :: outer else e :: atFunction holds change outer

theorem isEmpty_atFunction {change : γ → γ} (es : List γ) :
    (atFunction holds change es).isEmpty = es.isEmpty := by
  cases es with
  | nil => rfl
  | cons e outer =>
      rw [atFunction]
      split <;> rfl

/-- What the change leaves alone is as before everywhere. -/
theorem map_atFunction {δ : Type} {change : γ → γ} {field : γ → δ}
    (hchange : ∀ e, field (change e) = field e) (es : List γ) :
    (atFunction holds change es).map field = es.map field := by
  induction es with
  | nil => rfl
  | cons e outer ih =>
      rw [atFunction]
      split
      · rw [List.map_cons, hchange, List.map_cons]
      · rw [List.map_cons, ih, List.map_cons]

/-- A change of the frame of the current function is one of its view. -/
theorem views_modifyFunction (view : Frame → γ) (ht : t.Stacked)
    (hholds : ∀ f, holds (view f) = f.kind.holdsVars) {change : Frame → Frame}
    {changeView : γ → γ} (hchange : ∀ f, view (change f) = changeView (view f)) :
    (t.modifyFunction change).views view = atFunction holds changeView (t.views view) := by
  -- The stack is split into parts, of which the outer one holds the current function.
  suffices hpart : ∀ ids : List Nat, (∀ i ∈ ids, i < t.frames.size) → ids.Nodup →
      (ids.map fun i =>
          view ((t.modifyFrame ((t.upToFunction ids).getLastD 0) change).frame i)) =
        atFunction holds changeView (ids.map fun i => view (t.frame i)) from
    hpart t.stack ht.lt ht.nodup
  intro ids
  induction ids with
  | nil => exact fun _ _ => rfl
  | cons i ids ih =>
      intro hlt hnodup
      obtain ⟨hi, hnodup⟩ := List.nodup_cons.mp hnodup
      rw [List.map_cons, List.map_cons, atFunction, List.isEmpty_map, hholds,
        getLastD_upToFunction]
      split
      · refine congrArg₂ List.cons ?_ (List.map_congr_left fun j hj => ?_)
        · rw [frame_modifyFrame, if_pos ⟨rfl, hlt i List.mem_cons_self⟩, hchange]
        · rw [frame_modifyFrame, if_neg]
          rintro ⟨rfl, -⟩
          exact hi hj
      next hinner =>
        have hids : ids ≠ [] := by
          rintro rfl
          exact hinner (Bool.or_true _)
        have hlast := t.getLastD_upToFunction_mem hids
        refine congrArg₂ List.cons ?_ (ih (fun j hj => hlt j (List.mem_cons_of_mem i hj)) hnodup)
        rw [frame_modifyFrame, if_neg]
        rintro ⟨heq, -⟩
        exact hi (heq ▸ hlast)

end Tracker

open Tracker (atFunction)

/-! ## Stations -/

/-- What is known of an open frame apart from its names. -/
structure Station where
  kind : FrameKind
  strict : Bool
  labels : List Label
  loopDepth : Nat
  breakableDepth : Nat
deriving DecidableEq

def Frame.station (f : Frame) : Station :=
  ⟨f.kind, f.strict, f.labels, f.loopDepth, f.breakableDepth⟩

namespace Station

def holdsVars (e : Station) : Bool := e.kind.holdsVars

/-- The station of a frame that has just been opened. -/
def opened (kind : FrameKind) (strict : Bool) : Station := ⟨kind, strict, [], 0, 0⟩

def setStrict (e : Station) : Station := { e with strict := true }

def pushLabel (label : Label) (e : Station) : Station := { e with labels := label :: e.labels }

def popLabel (e : Station) : Station := { e with labels := e.labels.tail }

def enterLoop (e : Station) : Station :=
  { e with loopDepth := e.loopDepth + 1, breakableDepth := e.breakableDepth + 1 }

def exitLoop (e : Station) : Station :=
  { e with loopDepth := e.loopDepth - 1, breakableDepth := e.breakableDepth - 1 }

def enterSwitch (e : Station) : Station := { e with breakableDepth := e.breakableDepth + 1 }

def exitSwitch (e : Station) : Station := { e with breakableDepth := e.breakableDepth - 1 }

/-- Whether code is strict, by the stations up to that of its function. -/
def isStrict : List Station → Bool
  | [] => false
  | e :: outer => e.strict || !e.holdsVars && isStrict outer

end Station

namespace Tracker

variable {t t' : Tracker}

/-- The stations of the open frames, innermost first. -/
def stations (t : Tracker) : List Station := t.views Frame.station

theorem isStrict_eq (t : Tracker) : t.isStrict = Station.isStrict t.stations := by
  suffices hids : ∀ ids : List Nat, ((t.upToFunction ids).any fun i => (t.frame i).strict) =
      Station.isStrict (ids.map fun i => (t.frame i).station) from hids t.stack
  intro ids
  induction ids with
  | nil => rfl
  | cons i ids ih =>
      have hholds : (t.frame i).station.holdsVars = (t.frame i).kind.holdsVars := rfl
      rw [upToFunction, List.map_cons, Station.isStrict, hholds]
      by_cases hfunction : (t.frame i).kind.holdsVars = true
      · rw [if_pos hfunction, hfunction, List.any_cons, List.any_nil]
        rfl
      · rw [if_neg hfunction, Bool.eq_false_iff.mpr hfunction, List.any_cons, ih]
        rfl

theorem SameOutline.stations (h : t.SameOutline t') : t'.stations = t.stations := by
  rw [Tracker.stations, views, h.stack]
  exact List.map_congr_left fun i _ => Frame.field_eq (h.frame i) Frame.station

theorem SameOutline.stacked (h : t.SameOutline t') (ht : t.Stacked) : t'.Stacked :=
  ht.of_eq h.stack h.size

theorem stations_modifyFunction (ht : t.Stacked) {change : Frame → Frame}
    {changeStation : Station → Station}
    (hchange : ∀ f : Frame, (change f).station = changeStation f.station) :
    (t.modifyFunction change).stations = atFunction Station.holdsVars changeStation t.stations :=
  views_modifyFunction Frame.station ht (fun _ => rfl) hchange

end Tracker

/-! ## Operations -/

namespace Operation

/-- What an operation does to the stations. -/
def shift : Operation → List Station → List Station
  | enterScope kind _, es => .opened kind (kind = .classBody) :: es
  | enterFunction _ _, es => .opened .function (Station.isStrict es) :: es
  | exitScope, es => es.tail
  | setStrict, es => atFunction Station.holdsVars .setStrict es
  | pushLabel label, es => atFunction Station.holdsVars (.pushLabel label) es
  | popLabel, es => atFunction Station.holdsVars .popLabel es
  | enterLoop, es => atFunction Station.holdsVars .enterLoop es
  | exitLoop, es => atFunction Station.holdsVars .exitLoop es
  | enterSwitch, es => atFunction Station.holdsVars .enterSwitch es
  | exitSwitch, es => atFunction Station.holdsVars .exitSwitch es
  | _, es => es

/-- The open frames after an operation, also where it is cut short. -/
theorem stack_perform (operation : Operation) (s : Session) :
    (operation.perform.run.run s).2.tracker.stack =
      operation.stackAfter s.tracker.frames.size s.tracker.stack := by
  have hnames (action : Action Unit) [houtline : Action.KeepsOutline action] :=
    (houtline.keeps s).stack
  cases operation with
  | exitScope => exact (Action.exitScope_keeps s).stack
  | declare name kind position => exact hnames (Action.declare name kind position)
  | declareBlockFunction name position => exact hnames (Action.declareBlockFunction name position)
  | declareParameter name position distinct =>
      exact hnames (Action.declareParameter name position distinct)
  | markInitialized name offset =>
      change (s.tracker.markInitialized name offset).stack = s.tracker.stack
      unfold Tracker.markInitialized
      split <;> rfl
  | markExported name =>
      change (s.tracker.markExported name).stack = s.tracker.stack
      unfold Tracker.markExported
      split <;> rfl
  | _ => rfl

/-- The stations after an operation are those before it shifted, also where it is cut short. -/
theorem perform_stations (operation : Operation) {s : Session} (hs : s.tracker.Stacked) :
    (operation.perform.run.run s).2.tracker.Stacked ∧
      (operation.perform.run.run s).2.tracker.stations = operation.shift s.tracker.stations := by
  have hsame {t : Tracker} (h : s.tracker.SameOutline t) :
      t.Stacked ∧ t.stations = s.tracker.stations := ⟨h.stacked hs, h.stations⟩
  have hnames (action : Action Unit) [houtline : Action.KeepsOutline action] :=
    hsame (houtline.keeps s)
  have hfunction {change : Frame → Frame} {changeStation : Station → Station}
      (hchange : ∀ f : Frame, (change f).station = changeStation f.station) :
      (s.tracker.modifyFunction change).Stacked ∧ (s.tracker.modifyFunction change).stations =
        atFunction Station.holdsVars changeStation s.tracker.stations :=
    ⟨hs.modifyFunction change, Tracker.stations_modifyFunction hs hchange⟩
  cases operation with
  | enterScope kind start => exact ⟨hs.push _, Tracker.views_push Frame.station hs _⟩
  | enterFunction facts start =>
      refine ⟨hs.push _, (Tracker.views_push Frame.station hs _).trans ?_⟩
      exact congrArg (fun strict => Station.opened .function strict :: s.tracker.stations)
        s.tracker.isStrict_eq
  | exitScope =>
      have hpop := Action.exitScope_keeps s
      exact ⟨hpop.stacked hs.pop, hpop.stations.trans List.map_tail⟩
  | declare name kind position => exact hnames (Action.declare name kind position)
  | declareBlockFunction name position => exact hnames (Action.declareBlockFunction name position)
  | declareParameter name position distinct =>
      exact hnames (Action.declareParameter name position distinct)
  | declareFunctionName name position =>
      refine hsame (.modifyFrame _ _ fun f => ?_)
      split
      · rfl
      · exact f.outline_insert _
  | markInitialized name offset =>
      have hmark : s.tracker.SameOutline (s.tracker.markInitialized name offset) := by
        unfold Tracker.markInitialized
        split
        · exact .refl s.tracker
        · exact .modifyFrame _ _ fun f => f.outline_modify name _
      exact hsame hmark
  | addReference name position access =>
      have hadd : (s.tracker.addReference name position access).Stacked :=
        hs.of_eq rfl (Tracker.modifyFrame_size _ _ _)
      refine ⟨hadd, List.map_congr_left fun i _ => ?_⟩
      exact Tracker.field_modifyFrame Frame.station rfl i
  | markExported name =>
      have hmark : s.tracker.SameOutline (s.tracker.markExported name) := by
        unfold Tracker.markExported
        split <;> exact .of_frames_eq rfl rfl rfl
      exact hsame hmark
  | changeSink change => exact hsame (.refl s.tracker)
  | setAccess id access =>
      exact hsame (.of_frames_eq rfl rfl (s.tracker.modifyReference_size id _))
  | addKnown | removeKnown | setRules => exact hsame (.of_frames_eq rfl rfl rfl)
  | recordYield =>
      refine ⟨hs.modifyFunction _, List.map_congr_left fun i _ => ?_⟩
      exact Tracker.field_modifyFrame Frame.station rfl i
  | setStrict | pushLabel | popLabel | enterLoop | exitLoop | enterSwitch | exitSwitch =>
      exact hfunction fun _ => rfl

end Operation

end ScriptLint.Scope

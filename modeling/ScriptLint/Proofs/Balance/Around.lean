import ScriptLint.Proofs.Invariant.Basic
import ScriptLint.Proofs.Scope.Station

/-! # What is opened around a place

Constructs that are opened one inside the other leave their marks on the stations: a scope is one
station more, a loop or a `switch` counts at the current function, and a label is put there.
Whatever is opened last is undone first, and at the time the function that was marked is the current
one again, so each mark is found where it was left.
-/

namespace ScriptLint.Scope

open Tracker (atFunction)

/-! ## The station of the current function -/

section

variable {γ : Type} {holds : γ → Bool} {change change' : γ → γ}

theorem Tracker.atFunction_atFunction (hholds : ∀ e, holds (change' e) = holds e) (es : List γ) :
    atFunction holds change (atFunction holds change' es) =
      atFunction holds (change ∘ change') es := by
  induction es with
  | nil => rfl
  | cons e outer ih =>
      by_cases hfunction : (holds e || outer.isEmpty) = true
      · rw [atFunction, if_pos hfunction, atFunction, if_pos (by rwa [hholds]), atFunction,
          if_pos hfunction]
        rfl
      · rw [atFunction, if_neg hfunction, atFunction, isEmpty_atFunction, if_neg hfunction, ih,
          atFunction, if_neg hfunction]

theorem Tracker.atFunction_id (es : List γ) : atFunction holds id es = es := by
  induction es with
  | nil => rfl
  | cons e outer ih =>
      rw [atFunction, ih]
      split <;> rfl

/-- The first of some views that is one of a function, or the last if there is none. -/
def Tracker.functionOf (holds : γ → Bool) : List γ → Option γ
  | [] => none
  | e :: outer => if holds e || outer.isEmpty then some e else functionOf holds outer

theorem Tracker.exists_functionOf (holds : γ → Bool) {es : List γ} (hes : es ≠ []) :
    ∃ e, functionOf holds es = some e := by
  induction es with
  | nil => exact absurd rfl hes
  | cons e outer ih =>
      rw [functionOf]
      split
      · exact ⟨e, rfl⟩
      next hinner =>
        refine ih ?_
        rintro rfl
        exact hinner (Bool.or_true _)

theorem Tracker.functionOf_atFunction (hholds : ∀ e, holds (change e) = holds e) (es : List γ) :
    functionOf holds (atFunction holds change es) = (functionOf holds es).map change := by
  induction es with
  | nil => rfl
  | cons e outer ih =>
      by_cases hfunction : (holds e || outer.isEmpty) = true
      · rw [atFunction, if_pos hfunction, functionOf, if_pos (by rwa [hholds]), functionOf,
          if_pos hfunction]
        rfl
      · rw [atFunction, if_neg hfunction, functionOf, isEmpty_atFunction, if_neg hfunction, ih,
          functionOf, if_neg hfunction]

end

theorem Tracker.functionOf_stations {t : Tracker} (hstack : t.stack ≠ []) :
    functionOf Station.holdsVars t.stations = some t.functionFrame.station := by
  suffices hpart : ∀ ids : List Nat, ids ≠ [] →
      functionOf Station.holdsVars (ids.map fun i => (t.frame i).station) =
        some (t.frame ((t.upToFunction ids).getLastD 0)).station from hpart t.stack hstack
  intro ids
  induction ids with
  | nil => exact fun hids => absurd rfl hids
  | cons i ids ih =>
      intro _
      have hholds : (t.frame i).station.holdsVars = (t.frame i).kind.holdsVars := rfl
      rw [List.map_cons, functionOf, List.isEmpty_map, hholds, getLastD_upToFunction]
      split
      · rfl
      next hinner =>
        refine ih ?_
        rintro rfl
        exact hinner (Bool.or_true _)

/-! ## Marks -/

/-- The mark that a construct other than a scope leaves at its function. -/
def Station.Marks : Bracket → (Station → Station) → Prop
  | .scope, _ => False
  | .loop, mark => mark = .enterLoop
  | .switch, mark => mark = .enterSwitch
  | .label, mark => ∃ label, mark = .pushLabel label

namespace Station

theorem Marks.kind {b : Bracket} {mark : Station → Station} (hmark : Marks b mark) (e : Station) :
    (mark e).kind = e.kind := by
  cases b with
  | scope => exact hmark.elim
  | loop | switch => exact hmark ▸ rfl
  | label =>
      obtain ⟨label, rfl⟩ := hmark
      rfl

theorem Marks.holdsVars {b : Bracket} {mark : Station → Station} (hmark : Marks b mark)
    (e : Station) : (mark e).holdsVars = e.holdsVars :=
  congrArg FrameKind.holdsVars (hmark.kind e)

theorem Marks.setStrict {b : Bracket} {mark : Station → Station} (hmark : Marks b mark)
    (e : Station) : (mark e).setStrict = mark e.setStrict := by
  cases b with
  | scope => exact hmark.elim
  | loop | switch => exact hmark ▸ rfl
  | label =>
      obtain ⟨label, rfl⟩ := hmark
      rfl

/-- Around a place some constructs are open, innermost first, and around these are the stations that
were there before, though some of them may have become strict. -/
inductive Around (base : List Station) : List Bracket → List Station → Prop
  | base {es : List Station} : es.map setStrict = base.map setStrict → Around base [] es
  | scope {bs : List Bracket} {es : List Station} (e : Station) :
      Around base bs es → Around base (.scope :: bs) (e :: es)
  | mark {b : Bracket} {mark : Station → Station} {bs : List Bracket} {es : List Station} :
      Marks b mark → Around base bs es → Around base (b :: bs) (atFunction holdsVars mark es)

namespace Around

variable {base es : List Station} {b : Bracket} {bs : List Bracket}

theorem refl (es : List Station) : Around es [] es := .base rfl

theorem length (h : Around base bs es) : es.length = bs.count .scope + base.length := by
  have hlength (change : Station → Station) (es : List Station) :
      (atFunction holdsVars change es).length = es.length := by
    have hmap : (atFunction holdsVars change es).map (fun _ => ()) = es.map fun _ => () :=
      Tracker.map_atFunction (by intro _; rfl) es
    simpa using congrArg List.length hmap
  induction h with
  | base h => simpa using congrArg List.length h
  | scope e _ ih => simp [ih]; omega
  | @mark b _ _ _ hmark _ ih =>
      rw [hlength, ih]
      cases b with
      | scope => exact hmark.elim
      | _ => simp

/-- The current function may become strict at any time. -/
theorem makeStrict (h : Around base bs es) :
    Around base bs (atFunction holdsVars setStrict es) := by
  induction h with
  | @base es h =>
      have hsame : (atFunction holdsVars setStrict es).map setStrict = es.map setStrict :=
        Tracker.map_atFunction (by intro _; rfl) es
      exact .base (hsame.trans h)
  | scope e h ih =>
      rw [atFunction]
      split
      · exact .scope _ h
      · exact .scope e ih
  | @mark b mark _ es hmark _ ih =>
      have hcommute : setStrict ∘ mark = mark ∘ setStrict := funext hmark.setStrict
      rw [Tracker.atFunction_atFunction hmark.holdsVars, hcommute,
        ← Tracker.atFunction_atFunction (show ∀ e, holdsVars (setStrict e) = holdsVars e from
          fun _ => rfl)]
      exact .mark hmark ih

/-- Leaving a scope leads to what is around it. -/
theorem leaveScope (h : Around base (.scope :: bs) es) : Around base bs es.tail := by
  cases h with
  | scope e h => exact h
  | mark hmark _ => exact hmark.elim

/-- What undoes the mark of a construct leads to what was there before the construct. -/
theorem undo (h : Around base (b :: bs) es) (hb : b ≠ .scope) {undo : Station → Station}
    (hundo : ∀ mark, Marks b mark → ∀ e, undo (mark e) = e) :
    Around base bs (atFunction holdsVars undo es) := by
  cases h with
  | scope => exact absurd rfl hb
  | @mark _ mark _ es hmark h =>
      have hcancel : undo ∘ mark = id := funext (hundo mark hmark)
      rwa [Tracker.atFunction_atFunction hmark.holdsVars, hcancel, Tracker.atFunction_id]

/-- The mark of the innermost construct is at the current function. -/
theorem marked (h : Around base (b :: bs) es) (hb : b ≠ .scope) (hbase : base ≠ []) :
    ∃ mark e, Marks b mark ∧ Tracker.functionOf holdsVars es = some (mark e) := by
  cases h with
  | scope => exact absurd rfl hb
  | @mark _ mark _ es hmark h =>
      have hne : es ≠ [] := by
        rintro rfl
        have hlength := h.length
        have hpos := List.length_pos_iff.mpr hbase
        rw [List.length_nil] at hlength
        omega
      obtain ⟨e, he⟩ := Tracker.exists_functionOf holdsVars hne
      refine ⟨mark, e, hmark, ?_⟩
      rw [Tracker.functionOf_atFunction hmark.holdsVars, he]
      rfl

end Around

end Station

/-! ## Operations -/

/-- What an operation relies on: a scope that is closed is not the last one, a name is declared
where some frame is open, and what is taken off the current function is there. -/
def Operation.Finds : Operation → Tracker → Prop
  | exitScope, t => 2 ≤ t.stack.length
  | declare _ _ _, t | declareBlockFunction _ _, t | declareParameter _ _ _, t => t.stack ≠ []
  | popLabel, t => t.functionFrame.labels ≠ []
  | exitLoop, t => 0 < t.functionFrame.loopDepth ∧ 0 < t.functionFrame.breakableDepth
  | exitSwitch, t => 0 < t.functionFrame.breakableDepth
  | _, _ => True

/-- All frames of the first tracker are open in the second one, with constructs opened inside. -/
structure Tracker.Holds (base : Tracker) (bs : List Bracket) (t : Tracker) : Prop where
  stacked : t.Stacked
  nonempty : base.stack ≠ []
  outer : base.stack <:+ t.stack
  around : Station.Around base.stations bs t.stations

namespace Tracker.Holds

variable {base t : Tracker} {bs bs' : List Bracket} {s : Session} {operation : Operation}

theorem refl (ht : t.Stacked) (hopen : t.stack ≠ []) : t.Holds [] t :=
  ⟨ht, hopen, List.suffix_rfl, .refl _⟩

theorem length (h : base.Holds bs t) :
    t.stack.length = bs.count .scope + base.stack.length := by
  have hlength := h.around.length
  rwa [stations, stations, views, views, List.length_map, List.length_map] at hlength

theorem stack_ne_nil (h : base.Holds bs t) : t.stack ≠ [] := by
  intro hnil
  have hpos := List.length_pos_iff.mpr h.nonempty
  have hlength := h.length
  rw [hnil, List.length_nil] at hlength
  omega

/-- The frame of the current function has the mark of the innermost construct. -/
theorem marked {b : Bracket} (h : base.Holds (b :: bs) t) (hb : b ≠ .scope) :
    ∃ mark e, Station.Marks b mark ∧ t.functionFrame.station = mark e := by
  have hbase : base.stations ≠ [] := by simpa [stations, views] using h.nonempty
  obtain ⟨mark, e, hmark, he⟩ := h.around.marked hb hbase
  rw [functionOf_stations h.stack_ne_nil] at he
  exact ⟨mark, e, hmark, Option.some.inj he⟩

/-- Where nothing is left open, everything is as it was, except that functions may be strict. -/
theorem closed (h : base.Holds [] t) : t.stack = base.stack ∧
    ∀ i ∈ base.stack, (t.frame i).station.setStrict = (base.frame i).station.setStrict := by
  have hstack : t.stack = base.stack :=
    (h.outer.eq_of_length (by simpa using h.length.symm)).symm
  obtain ⟨hsame⟩ := h.around
  rw [stations, stations, views, views, List.map_map, List.map_map, hstack] at hsame
  exact ⟨hstack, List.map_inj_left.mp hsame⟩

/-- Then the current function is the one that it was. -/
theorem functionId_eq (h : base.Holds [] t) : t.functionId = base.functionId := by
  obtain ⟨hstack, hframes⟩ := h.closed
  rw [functionId, functionId, functionIds, functionIds, hstack]
  exact congrArg (·.getLastD 0)
    (upToFunction_congr fun i hi => congrArg Station.kind (hframes i hi))

/-- What concerns no frame leaves all that is open as it is. -/
theorem still (h : base.Holds bs s.tracker) (hshift : ∀ es, operation.shift es = es)
    (hstack : ∀ size ids, operation.stackAfter size ids = ids) :
    base.Holds bs (operation.perform.run.run s).2.tracker := by
  obtain ⟨hstacked, hstations⟩ := operation.perform_stations h.stacked
  refine ⟨hstacked, h.nonempty, ?_, ?_⟩
  · rw [Operation.stack_perform, hstack]
    exact h.outer
  · rw [hstations, hshift]
    exact h.around

/-- An operation finds what it relies on, and opens or closes what it should. -/
theorem perform (h : base.Holds bs s.tracker) (hturns : operation.Turns bs bs') :
    operation.Finds s.tracker ∧ base.Holds bs' (operation.perform.run.run s).2.tracker := by
  obtain ⟨hstacked, hstations⟩ := operation.perform_stations h.stacked
  have hstack := operation.stack_perform s
  -- Most operations open and close no scope.
  have hsame (hkept : operation.stackAfter s.tracker.frames.size s.tracker.stack = s.tracker.stack)
      (haround : Station.Around base.stations bs' (operation.shift s.tracker.stations)) :
      base.Holds bs' (operation.perform.run.run s).2.tracker :=
    ⟨hstacked, h.nonempty, by rw [hstack, hkept]; exact h.outer, by rw [hstations]; exact haround⟩
  have hopened {size : Nat}
      (hpushed : operation.stackAfter s.tracker.frames.size s.tracker.stack =
        size :: s.tracker.stack)
      (haround : Station.Around base.stations bs' (operation.shift s.tracker.stations)) :
      base.Holds bs' (operation.perform.run.run s).2.tracker :=
    ⟨hstacked, h.nonempty, by rw [hstack, hpushed]; exact h.outer.trans (List.suffix_cons _ _),
      by rw [hstations]; exact haround⟩
  cases hturns with
  | enterScope kind start => exact ⟨trivial, hopened rfl (.scope _ h.around)⟩
  | enterFunction facts start => exact ⟨trivial, hopened rfl (.scope _ h.around)⟩
  | exitScope =>
      have hlength := h.length
      have hpos := List.length_pos_iff.mpr h.nonempty
      rw [List.count_cons_self] at hlength
      refine ⟨?_, hstacked, h.nonempty, ?_, by rw [hstations]; exact h.around.leaveScope⟩
      · change 2 ≤ s.tracker.stack.length
        omega
      · rw [hstack]
        obtain ⟨inner, hinner⟩ := h.outer
        cases inner with
        | nil =>
            rw [← hinner, List.nil_append] at hlength
            omega
        | cons i inner => exact ⟨inner, by rw [← hinner]; rfl⟩
  | enterLoop => exact ⟨trivial, hsame rfl (.mark rfl h.around)⟩
  | enterSwitch => exact ⟨trivial, hsame rfl (.mark rfl h.around)⟩
  | pushLabel label => exact ⟨trivial, hsame rfl (.mark ⟨label, rfl⟩ h.around)⟩
  | exitLoop =>
      obtain ⟨mark, e, rfl, he⟩ := h.marked nofun
      refine ⟨?_, hsame rfl (h.around.undo nofun ?_)⟩
      · have hloop : s.tracker.functionFrame.loopDepth = e.loopDepth + 1 :=
          congrArg Station.loopDepth he
        have hbreakable : s.tracker.functionFrame.breakableDepth = e.breakableDepth + 1 :=
          congrArg Station.breakableDepth he
        exact ⟨hloop ▸ Nat.succ_pos _, hbreakable ▸ Nat.succ_pos _⟩
      · rintro _ rfl _
        rfl
  | exitSwitch =>
      obtain ⟨mark, e, rfl, he⟩ := h.marked nofun
      refine ⟨?_, hsame rfl (h.around.undo nofun ?_)⟩
      · have hbreakable : s.tracker.functionFrame.breakableDepth = e.breakableDepth + 1 :=
          congrArg Station.breakableDepth he
        exact Nat.lt_of_lt_of_eq (Nat.succ_pos _) hbreakable.symm
      · rintro _ rfl _
        rfl
  | popLabel =>
      obtain ⟨mark, e, ⟨label, rfl⟩, he⟩ := h.marked nofun
      refine ⟨?_, hsame rfl (h.around.undo nofun ?_)⟩
      · have hlabels : s.tracker.functionFrame.labels = label :: e.labels :=
          congrArg Station.labels he
        change s.tracker.functionFrame.labels ≠ []
        exact hlabels ▸ List.cons_ne_nil _ _
      · rintro _ ⟨label, rfl⟩ _
        rfl
  | setStrict => exact ⟨trivial, hsame rfl h.around.makeStrict⟩
  | declare | declareBlockFunction | declareParameter =>
      exact ⟨h.stack_ne_nil, hsame rfl h.around⟩
  | _ => exact ⟨trivial, hsame rfl h.around⟩

end Tracker.Holds

end ScriptLint.Scope

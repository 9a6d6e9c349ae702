import Mathlib.Data.List.Nodup
import ScriptLint.Proofs.Diagnostic.History

/-! # What a sink tells of one code

Of each code a sink tells places: the lines and columns for which a diagnostic with the code was
accepted. As long as no reports of the code are dropped and the analysis has not ended, the places
that are told are those that were reported, whatever else happens to the sink. And of these reports
it takes all but those on lines where the code is switched off, in order and each with its position,
as long as no two are for the same place.
-/

namespace ScriptLint

/-- What a diagnostic tells of its position: the line and the column. -/
def Position.place (p : Position) : Nat × Nat := (p.line, p.column)

namespace Sink

/-- A diagnostic with the code was accepted for the place. -/
def Tells (s : Sink) (code : String) (place : Nat × Nat) : Prop :=
  ∃ d ∈ s.accepted, d.key = (code, place)

/-- How often diagnostics with the code were accepted for the place. -/
def times (s : Sink) (code : String) (place : Nat × Nat) : Nat :=
  s.accepted.toList.countP fun d => d.key = (code, place)

/-- Nothing is told twice. -/
theorem Sound.times_eq {s : Sink} (hs : s.Sound) {code : String} {place : Nat × Nat} {p : Prop}
    [Decidable p] (htells : s.Tells code place ↔ p) :
    s.times code place = if p then 1 else 0 := by
  have hcount : s.times code place = (s.accepted.toList.map Diagnostic.key).count (code, place) := by
    rw [List.count_eq_countP, List.countP_map]
    exact List.countP_congr fun d _ => by simp
  have hmem : (code, place) ∈ s.accepted.toList.map Diagnostic.key ↔ p := by
    rw [← htells]
    simp [Tells]
  simp only [hcount, hs.distinct.count, hmem]

/-- Reports of the code are dropped on no line. -/
def Shows (s : Sink) (code : String) : Prop := ∀ line, s.suppresses code line = false

/-- Before the analysis has ended, a report tells its place unless it is switched off there. -/
theorem tells_report_iff {s : Sink} (hopen : s.isHalted = false) {code : String}
    {position : Position} {arguments : List String} {scope other : String} {place : Nat × Nat} :
    (s.report code position arguments scope).2.Tells other place ↔ s.Tells other place ∨
      code = other ∧ position.place = place ∧ s.suppresses code position.line = false := by
  by_cases hdrops : s.Drops { code, arguments, position, scope }
  · rw [report_of_dropped (.inr hdrops)]
    refine (or_iff_left_of_imp ?_).symm
    rintro ⟨rfl, rfl, hshown⟩
    -- What is dropped although the code is shown was told before.
    rcases hdrops with hsuppressed | hrepeated
    · rw [hshown] at hsuppressed
      cases hsuppressed
    · exact hrepeated
  · have hshown : s.suppresses code position.line = false :=
      Bool.eq_false_iff.mpr fun hsuppressed => hdrops (.inl hsuppressed)
    unfold Tells
    rw [report_accepted_of_shown hopen hdrops]
    simp [or_and_right, exists_or, Diagnostic.key, Position.place, hshown]

/-- If reports of the code are not dropped and the analysis has not ended, the second sink tells the
same places as the first, and new ones. -/
structure Gains (code : String) (New : Nat × Nat → Prop) (a b : Sink) : Prop where
  halted : a.isHalted = true → b.isHalted = true
  shows : b.isHalted = false → a.Shows code → b.Shows code
  tells : b.isHalted = false → a.Shows code →
    ∀ place, b.Tells code place ↔ a.Tells code place ∨ New place

/-- The second sink tells the same places as the first. -/
abbrev Spares (code : String) : Sink → Sink → Prop := Gains code fun _ => False

theorem shows_start {code : String} {disabled : Text.NameSet}
    (henabled : disabled.contains code = false) (limit totalLines : Nat) :
    (start limit totalLines disabled).Shows code := fun _ => henabled

namespace Gains

variable {code : String} {New New' : Nat × Nat → Prop} {a b c : Sink}

theorem congr (hab : a.Gains code New b) (hnew : ∀ place, New place ↔ New' place) :
    a.Gains code New' b where
  halted := hab.halted
  shows := hab.shows
  tells hb ha place := (hab.tells hb ha place).trans (or_congr_right (hnew place))

theorem trans (hab : a.Gains code New b) (hbc : b.Gains code New' c) :
    a.Gains code (fun place => New place ∨ New' place) c := by
  have hopen (hc : c.isHalted = false) : b.isHalted = false := by
    refine Bool.eq_false_iff.mpr fun hb => ?_
    simp [hbc.halted hb] at hc
  refine ⟨hbc.halted ∘ hab.halted, ?_, ?_⟩
  · intro hc ha
    exact hbc.shows hc (hab.shows (hopen hc) ha)
  · intro hc ha place
    rw [hbc.tells hc (hab.shows (hopen hc) ha), hab.tells (hopen hc) ha, or_assoc]

theorem refl (a : Sink) : a.Spares code a := ⟨id, fun _ => id, fun _ _ _ => by simp⟩

/-- A report tells a new place if it has the code. -/
theorem report (a : Sink) (code' : String) (position : Position) (arguments : List String)
    (scope : String) :
    a.Gains code (fun place => code' = code ∧ position.place = place)
      (a.report code' position arguments scope).2 := by
  have hhalted (hhalted : a.isHalted = true) :
      (a.report code' position arguments scope).2.isHalted = true := by
    rwa [report_of_dropped (.inl hhalted)]
  refine ⟨hhalted, fun _ ha => ?_, fun hb ha place => ?_⟩
  · obtain ⟨_, _, hframe⟩ := report_frame a code' position arguments scope
    rw [hframe]
    exact ha
  · have hopen : a.isHalted = false := by
      refine Bool.eq_false_iff.mpr fun h => ?_
      simp [hhalted h] at hb
    rw [tells_report_iff hopen]
    refine or_congr_right ⟨fun h => ⟨h.1, h.2.1⟩, ?_⟩
    rintro ⟨rfl, hplace⟩
    exact ⟨rfl, hplace, ha position.line⟩

end Gains

end Sink

end ScriptLint

/-! ## The diagnostics with one code -/

namespace ScriptLint.Sink

/-- The positions of the accepted diagnostics with the code. -/
def collected (code : String) (s : Sink) : List Position :=
  (s.accepted.toList.filter (·.code = code)).map (·.position)

/-- Without a last word, the diagnostics with the code in the list are the accepted ones on lines
that are not ignored as a whole. -/
theorem positions_finish {s : Sink} (hopen : s.terminal? = none) (code : String) :
    (s.finish.filter (·.code = code)).map (·.position) =
      (s.collected code).filter fun p => !s.ignoredLines.contains p.line := by
  rw [finish, hopen, Option.toList_none, List.append_nil, List.filter_comm, collected,
    List.filter_map]
  rfl

/-- Between the two sinks reports with the code were made for the positions, in order. -/
structure Collects (code : String) (ps : List Position) (a b : Sink) : Prop where
  frame : ∃ accepted terminal?, b = { a with accepted, terminal? }
  accepted : a.accepted.toList <+: b.accepted.toList
  halted : a.isHalted = true → b.isHalted = true
  collected : b.isHalted = false → (b.accepted.toList.map Diagnostic.key).Nodup →
    ((a.collected code ++ ps).map Position.place).Nodup →
    b.collected code = a.collected code ++ ps.filter fun p => !a.suppresses code p.line

namespace Collects

variable {code : String} {ps qs : List Position} {a b c : Sink}

theorem suppresses_eq (hab : a.Collects code ps b) : b.suppresses = a.suppresses := by
  obtain ⟨_, _, rfl⟩ := hab.frame
  rfl

theorem refl (a : Sink) : a.Collects code [] a :=
  ⟨⟨_, _, rfl⟩, List.prefix_rfl, id, fun _ _ _ => (List.append_nil _).symm⟩

theorem trans (hab : a.Collects code ps b) (hbc : b.Collects code qs c) :
    a.Collects code (ps ++ qs) c where
  frame := by
    obtain ⟨_, _, rfl⟩ := hab.frame
    obtain ⟨_, _, rfl⟩ := hbc.frame
    exact ⟨_, _, rfl⟩
  accepted := hab.accepted.trans hbc.accepted
  halted := hbc.halted ∘ hab.halted
  collected hopen hdistinct hplaces := by
    have hb : b.isHalted = false := by
      refine Bool.eq_false_iff.mpr fun hb => ?_
      simp [hbc.halted hb] at hopen
    have hdistinct' := hdistinct.sublist (hbc.accepted.sublist.map Diagnostic.key)
    rw [← List.append_assoc] at hplaces
    have hplaces' := hplaces.sublist ((List.sublist_append_left ..).map _)
    have hfirst := hab.collected hb hdistinct' hplaces'
    have hrest : (b.collected code ++ qs).Sublist (a.collected code ++ ps ++ qs) := by
      rw [hfirst]
      exact (List.filter_sublist.append_left _).append_right _
    rw [hbc.collected hopen hdistinct (hplaces.sublist (hrest.map _)), hfirst, hab.suppresses_eq,
      List.filter_append, List.append_assoc]

/-- A report is taken unless the code is switched off on its line. -/
theorem report (a : Sink) (code' : String) (position : Position) (arguments : List String)
    (scope : String) :
    a.Collects code (if code' = code then [position] else [])
      (a.report code' position arguments scope).2 := by
  have hframe := report_frame a code' position arguments scope
  by_cases hdropped : a.isHalted = true ∨ a.Drops { code := code', arguments, position, scope }
  · rw [report_of_dropped hdropped] at hframe ⊢
    refine ⟨hframe, List.prefix_rfl, id, fun hopen _ hplaces => ?_⟩
    split at hplaces
    next heq =>
      -- It is no repetition, so what drops it is that the code is switched off.
      subst heq
      rw [if_pos rfl]
      have hsuppressed : a.suppresses code' position.line = true := by
        rcases hdropped with hhalted | hsuppressed | ⟨e, hmem, hkey⟩
        · simp [hopen] at hhalted
        · exact hsuppressed
        · rw [List.map_append, List.nodup_append] at hplaces
          refine absurd rfl (hplaces.2.2 position.place ?_ position.place List.mem_cons_self)
          obtain ⟨hcode, hplace⟩ := Prod.mk.inj hkey
          refine List.mem_map.mpr ⟨e.position, List.mem_map.mpr ⟨e, ?_, rfl⟩, hplace⟩
          exact List.mem_filter.mpr ⟨Array.mem_toList_iff.mpr hmem, decide_eq_true hcode⟩
      simp [hsuppressed]
    next heq => simp [if_neg heq]
  · obtain ⟨hhalted, hdrops⟩ := not_or.mp hdropped
    have hopen : a.isHalted = false := Bool.eq_false_iff.mpr hhalted
    have haccepted := report_accepted_of_shown hopen hdrops
    refine ⟨hframe, ?_, fun h => absurd h hhalted, fun _ _ _ => ?_⟩
    · rw [haccepted, Array.toList_push]
      exact List.prefix_append _ _
    · have hshown : a.suppresses code' position.line = false :=
        Bool.eq_false_iff.mpr fun h => hdrops (.inl h)
      rw [Sink.collected, haccepted, Array.toList_push, List.filter_append, List.map_append]
      refine congrArg _ ?_
      by_cases heq : code' = code
      · subst heq
        simp [hshown]
      · simp [heq]

/-- Where nothing with the code is new, none was reported. -/
theorem of_none (hab : a.Collects code ps b)
    (hnone : ∀ d ∈ b.accepted, d.code = code → d ∈ a.accepted) : a.Collects code [] b where
  frame := hab.frame
  accepted := hab.accepted
  halted := hab.halted
  collected _ hdistinct _ := by
    obtain ⟨added, hadded⟩ := hab.accepted
    have hold : added.filter (·.code = code) = [] := by
      refine List.filter_eq_nil_iff.mpr fun d hmem hcode => ?_
      rw [← hadded, List.map_append, List.nodup_append] at hdistinct
      have hmem' : d ∈ b.accepted := by
        rw [← Array.mem_toList_iff, ← hadded]
        exact List.mem_append_right _ hmem
      have hfirst := Array.mem_toList_iff.mpr (hnone d hmem' (of_decide_eq_true hcode))
      exact hdistinct.2.2 _ (List.mem_map_of_mem hfirst) _ (List.mem_map_of_mem hmem) rfl
    rw [Sink.collected, ← hadded, List.filter_append, hold]
    simp [Sink.collected]

end Collects

end ScriptLint.Sink

import Mathlib.Data.List.Nodup
import ScriptLint.Proofs.Analysis.Limit
import ScriptLint.Proofs.Diagnostic.Told

/-! # What analyses tell

The list of a complete analysis is what its sink has accepted, but for lines that are ignored as a
whole. The sink came to it by steps that never tell the same of a place twice, so each place that the
sink tells of a code is in the list once.
-/

namespace ScriptLint

namespace Sink

variable {s : Sink}

theorem Sound.report (hs : s.Sound) (code : String) (position : Position) (arguments : List String)
    (scope : String) : (s.report code position arguments scope).2.Sound :=
  hs.step ((Operation.report code position arguments scope).run_effect s)

theorem Sound.terminate (hs : s.Sound) (code : String) (position : Position) (scope : String) :
    (s.terminate code position scope).Sound :=
  hs.step ((Operation.terminate code position scope).run_effect s)

theorem Sound.filter (hs : s.Sound) {change : Sink → Sink} (hchange : Filter change) :
    (change s).Sound := by
  obtain ⟨hterminal, haccepted⟩ := hchange.keeps s
  exact ⟨haccepted ▸ hs.regular, hterminal ▸ hs.terminal, haccepted ▸ hs.distinct⟩

end Sink

/-- No step of reading tells the same of a place twice. -/
theorem Reading.Stepwise.sound {α : Type} {step : Reading α} (hstep : Stepwise step) {s : State}
    (hs : s.session.sink.Sound) : (step.run.run s).2.session.sink.Sound :=
  hstep.relates (R := fun a b => a.Sound → b.Sound) (fun _ => id)
    (fun hab hbc => hbc ∘ hab)
    (fun hchange _ ha => ha.filter hchange)
    (fun _ code position arguments scope ha => ha.report code position arguments scope)
    (fun _ code position scope ha => ha.terminate code position scope) s hs

namespace Analysis

variable {source : String} {o : Options} {known : KnownGlobals}

theorem lastSink_sound (source : String) (o : Options) (known : KnownGlobals) :
    (lastSink source o known).Sound :=
  (reading_stepwise source).sound (Sink.sound_start _ _ _)

/-- An analysis is complete where reading gets through. -/
theorem run_of_complete (hcomplete : (ofSource source o known).ending = .complete) :
    (reading source).run.run (startState source o known) = (.ok (), (run source o known).2) := by
  change Ending.ofOutcome (run source o known).1 = .complete at hcomplete
  refine Prod.ext ?_ rfl
  change (run source o known).1 = _
  generalize (run source o known).1 = outcome at hcomplete ⊢
  cases outcome with
  | ok => rfl
  | error stop => cases stop <;> cases hcomplete

theorem terminal?_of_complete (hcomplete : (ofSource source o known).ending = .complete) :
    (lastSink source o known).terminal? = none := by
  have hrecords := lastSink_records source o known
  have hrun : (run source o known).1 = .ok () :=
    congrArg Prod.fst (run_of_complete hcomplete)
  rw [hrun] at hrecords
  exact hrecords.terminal?_eq_none

/-- The places that a complete analysis has in its list with a code. -/
theorem mem_diagnostics_iff (hcomplete : (ofSource source o known).ending = .complete)
    (code : String) (place : Nat × Nat) :
    (∃ d ∈ (ofSource source o known).diagnostics, d.code = code ∧ d.position.place = place) ↔
      (lastSink source o known).Tells code place ∧
        place.1 ∉ (lastSink source o known).ignoredLines := by
  change (∃ d ∈ (lastSink source o known).finish, _) ↔ _
  rw [Sink.finish, terminal?_of_complete hcomplete, Option.toList_none, List.append_nil]
  constructor
  · rintro ⟨d, hmem, rfl, rfl⟩
    obtain ⟨hmem, hshown⟩ := List.mem_filter.mp hmem
    exact ⟨⟨d, Array.mem_toList_iff.mp hmem, rfl⟩, by simpa [Position.place] using hshown⟩
  · rintro ⟨⟨d, hmem, hkey⟩, hshown⟩
    obtain ⟨rfl, rfl⟩ := Prod.mk.inj hkey
    refine ⟨d, List.mem_filter.mpr ⟨Array.mem_toList_iff.mpr hmem, ?_⟩, rfl, rfl⟩
    simpa [Position.place] using hshown

/-- No place is told of twice with a code. -/
theorem nodup_places (hcomplete : (ofSource source o known).ending = .complete) (code : String) :
    (((ofSource source o known).diagnostics.filter (·.code = code)).map
      (·.position.place)).Nodup := by
  have hkeys : ((lastSink source o known).finish.map Diagnostic.key).Nodup := by
    rw [Sink.finish, terminal?_of_complete hcomplete, Option.toList_none, List.append_nil]
    exact (lastSink_sound source o known).distinct.sublist (List.filter_sublist.map _)
  have hpairs : (((lastSink source o known).finish.filter (·.code = code)).map
      Diagnostic.key) = (((lastSink source o known).finish.filter (·.code = code)).map
        (·.position.place)).map (code, ·) := by
    rw [List.map_map]
    refine List.map_congr_left fun d hmem => ?_
    rw [← of_decide_eq_true (List.mem_filter.mp hmem).2]
    rfl
  exact List.Nodup.of_map (code, ·) (hpairs ▸ hkeys.sublist (List.filter_sublist.map _))

end Analysis

end ScriptLint

import ScriptLint.Proofs.Analysis.Lockstep
import ScriptLint.Proofs.Lexing.Count
import ScriptLint.Proofs.Lockstep.Tolerance

/-! # Analyses under a flag

Each flag that decides about reports decides about those of its own codes only. The more tolerant of
two analyses that differ in nothing but the flag has the same summary, ends the same way, and lists
the same diagnostics in the same order with the codes of the flag left out.

Without a flag, what is left is that a place that is kept for a report, however long, is a place of
the source, so the lines and columns that are told are those that counting over the text comes to.
Lines are also counted beforehand, and the two counts agree at the end: no line that is told is past
the last one.
-/

namespace ScriptLint

theorem Options.set_eq_relax (o : Options) {flag : Flag} (hcodes : flag.codes ≠ []) (value : Bool) :
    o.set flag flag.tolerant = (o.set flag value).relax (some flag) := by
  unfold relax
  dsimp only
  rw [if_neg hcodes]
  cases flag <;> rfl

theorem Flag.isRegular_of_mem_codes (flag : Flag) : ∀ code ∈ flag.codes, Halt.IsRegular code := by
  cases flag <;> decide

namespace Analysis

open Reading (Pairing)

variable {source : String} {o : Options} {known : KnownGlobals}

theorem startState_twins (source : String) (o : Options) (known : KnownGlobals)
    (flag? : Option Flag) (hunlimited : flag? = none ∨ o.maxErrors = 0) :
    (startState source o known).session.Twins (Cursor.ofSource source) flag?
      (startState source (o.relax flag?) known).session where
  tracker := by
    change Scope.Tracker.start known (.ofOptions (o.relax flag?)) _ _ =
      (Scope.Tracker.start known (.ofOptions o) o.module _).relax flag?
    rw [Scope.Rules.ofOptions_relax, Options.relax_module, Options.relax_strict]
    unfold Scope.Tracker.start
    cases o.module <;> rfl
  anchored := startState_anchored source o known
  sink := by
    refine ⟨?_, hunlimited.imp (fun h => by rw [h]; rfl) id, Sink.anchored_start (.ofSource source) _ _⟩
    change Sink.start (o.relax flag?).maxErrors _ (o.relax flag?).disabled =
      (Sink.start o.maxErrors _ o.disabled).silence _
    rw [Options.relax_maxErrors, Options.relax_disabled]
    simp [Sink.silence, Sink.start]

/-- The result of a run under the tolerant value of a flag, where there is one. -/
theorem run_relaxed (source : String) (o : Options) (known : KnownGlobals) (flag? : Option Flag)
    (hunlimited : flag? = none ∨ o.maxErrors = 0)
    (hcomments : flag? = none ∨ LeavesOptions source o known) :
    (Pairing.relaxed (.ofSource source) flag?).Agree (run source o known)
      (run source (o.relax flag?) known) :=
  run_agree rfl rfl (startState_twins source o known flag? hunlimited)
    fun d hmem => hcomments.imp_right (· d hmem)

/-- A flag takes its codes away from the list and leaves all else as it is. -/
theorem tolerant_spares (source : String) (o : Options) (known : KnownGlobals) (flag : Flag)
    (hcodes : flag.codes ≠ []) (hzero : o.maxErrors = 0)
    (hcomments : LeavesOptions source (o.set flag !flag.tolerant) known) :
    let stricter := ofSource source (o.set flag !flag.tolerant) known
    let lenient := ofSource source (o.set flag flag.tolerant) known
    lenient.summary = stricter.summary ∧ lenient.ending = stricter.ending ∧
      lenient.diagnostics = stricter.diagnostics.filter (·.code ∉ flag.codes) := by
  intro stricter lenient
  have hunlimited : (o.set flag !flag.tolerant).maxErrors = 0 := by cases flag <;> exact hzero
  obtain ⟨houtcome, hstate⟩ :=
    run_relaxed source _ known (some flag) (.inr hunlimited) (.inr hcomments)
  rw [← Options.set_eq_relax o hcodes] at houtcome hstate
  have hterminal : ∀ d ∈ (lastSink source (o.set flag !flag.tolerant) known).terminal?,
      d.code ∉ flag.codes := by
    intro d hmem hcode
    have hregular := (lastSink_records source (o.set flag !flag.tolerant) known)
      |>.not_isRegular_of_terminal hmem
    exact hregular (flag.isRegular_of_mem_codes d.code hcode)
  refine ⟨?_, congrArg Ending.ofOutcome houtcome, ?_⟩
  · change (run source (o.set flag flag.tolerant) known).2.session.tracker.summary = _
    rw [hstate.session.tracker]
    rfl
  · change (lastSink source (o.set flag flag.tolerant) known).finish = _
    rw [lastSink, hstate.session.sink.eq]
    exact Sink.finish_silence flag.codes hterminal

/-- Of two diagnostics, one is about a missing semicolon. -/
theorem tolerant_spares_semicolon :
    Flag.codes .asi ≠ [] ∧ ({ maxErrors := 0 } : Options).maxErrors = 0 ∧
      LeavesOptions "a" (({ maxErrors := 0 } : Options).set .asi false) {} ∧
      (let stricter := ofSource "a" (({ maxErrors := 0 } : Options).set .asi false) {}
      let lenient := ofSource "a" (({ maxErrors := 0 } : Options).set .asi true) {}
      stricter.diagnostics.map (·.code) = ["W030", "W033"] ∧
        lenient.summary = stricter.summary ∧ lenient.ending = stricter.ending ∧
        lenient.diagnostics = stricter.diagnostics.filter (·.code ∉ Flag.codes .asi)) := by
  have hcodes : Flag.codes .asi ≠ [] := by decide
  have hcomments :
      LeavesOptions "a" (({ maxErrors := 0 } : Options).set .asi false) {} := by
    decide +kernel
  exact ⟨hcodes, rfl, hcomments, by decide +kernel,
    tolerant_spares "a" { maxErrors := 0 } {} .asi hcodes rfl hcomments⟩

end Analysis

end ScriptLint

/-! ## Positions of diagnostics -/

namespace ScriptLint

theorem Sink.Anchored.scannedPercent_eq {source : String} {a : Sink}
    (ha : a.Anchored (.ofSource source)) {p : Position} (hp : p.CountedIn source) :
    a.scannedPercent p = p.line * 100 / Text.lineCount source.toList ∧
      p.line * 100 / Text.lineCount source.toList ≤ 100 := by
  have htotal : a.totalLines = Text.lineCount source.toList := ha.totalLines
  have hle : p.line * 100 / Text.lineCount source.toList ≤ 100 :=
    Nat.div_le_of_le_mul (Nat.mul_le_mul_right 100 hp.line_le)
  rw [scannedPercent, htotal]
  exact ⟨Nat.min_eq_left hle, hle⟩

namespace Analysis

theorem lastSink_anchored (source : String) (o : Options) (known : KnownGlobals) :
    (lastSink source o known).Anchored (.ofSource source) :=
  (run_relaxed source o known none (.inl rfl) (.inl rfl)).state.session.sink.anchored

/-- Every diagnostic is about a place of the source, told by its line and column as counting has it.
Counting ends at the number of lines, so the part of the source that an early end tells is never more
than all of it. -/
theorem positions_counted (source : String) (o : Options) (known : KnownGlobals) :
    Text.lineAt source.toList source.toList.length = Text.lineCount source.toList ∧
      ∀ d ∈ (ofSource source o known).diagnostics, d.position.CountedIn source ∧
        (Halt.IsRegular d.code → d.scanned? = none) ∧
        (¬ Halt.IsRegular d.code →
          d.scanned? = some (d.position.line * 100 / Text.lineCount source.toList) ∧
            d.position.line * 100 / Text.lineCount source.toList ≤ 100) := by
  have hanchored := lastSink_anchored source o known
  have hrecords := lastSink_records source o known
  refine ⟨Cursor.lineAt_length source, fun d hmem => ?_⟩
  have hmem' : d ∈ (lastSink source o known).finish := hmem
  rcases List.mem_append.mp hmem' with haccepted | hterminal
  · have haccepted := (List.mem_filter.mp haccepted).1
    obtain ⟨hpasses, hscanned⟩ := hanchored.accepted d (Array.mem_toList_iff.mp haccepted)
    exact ⟨hpasses.countedIn, fun _ => hscanned,
      fun hcode => absurd (hrecords.regular d haccepted) hcode⟩
  · have hterminal := Option.mem_toList.mp hterminal
    obtain ⟨hpasses, hscanned⟩ := hanchored.terminal d hterminal
    obtain ⟨hpercent, hle⟩ := hanchored.scannedPercent_eq hpasses.countedIn
    refine ⟨hpasses.countedIn, fun hcode => ?_, fun _ => ⟨by rw [hscanned, hpercent], hle⟩⟩
    exact absurd hcode (hrecords.not_isRegular_of_terminal hterminal)

end Analysis

end ScriptLint

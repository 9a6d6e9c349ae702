import ScriptLint.Proofs.Analysis.Ending
import ScriptLint.Proofs.Reading.Refinement
import ScriptLint.Proofs.Reading.TooDeep

/-! # The bound on nesting

The options bound how deeply a program may nest. Where blocks, brackets of expressions and templates
go beyond the bound, the analysis ends and its last diagnostic says so. And whatever the source is,
reading it takes no more levels of expressions, operands and statements than the bound allows. The
levels of patterns are not counted: a declared pattern or one that is assigned to may nest as deeply
as the source has it.
-/

namespace ScriptLint.Analysis

open Reading (Opening nesting)

/-- The analysis ended because the program nests too deeply. The terminal diagnostic of that is the
last one, and the only one of its kind. -/
structure EndsTooDeep (a : Analysis) : Prop where
  ending : a.ending = .halted .tooDeep
  diagnostics : ∃ rest d, a.diagnostics = rest ++ [d] ∧ d.code = "E073" ∧
    ∀ e ∈ rest, Halt.IsRegular e.code

theorem before_startState {o : Options} (hlimit : o.maxErrors = 0) (source : String)
    (known : KnownGlobals) : (startState source o known).Before source.toList :=
  ⟨ready_startState source o known, ⟨_, rfl, rfl⟩, hlimit⟩

/-- Reading that ends too deep is an analysis that does, for the fuel is enough. -/
theorem endsTooDeep_of_program {source : String} {o : Options} {known : KnownGlobals}
    (hends : Reading.EndsTooDeep
      (Reading.program (Reading.productions (Reading.nestingBound source.utf8ByteSize)))
      (startState source o known)) : (ofSource source o known).EndsTooDeep := by
  have hending : (ofSource source o known).ending = .halted .tooDeep := by
    have hfuel := ofSource_ending source o known
    let self := Reading.productions (Reading.nestingBound source.utf8ByteSize)
    let s := startState source o known
    change Ending.ofOutcome ((Reading.program self).run.run s).1 ≠ _ at hfuel
    change Ending.ofOutcome ((Reading.program self).run.run s).1 = _
    rcases hends with hends | hends
    · rw [hends]
      rfl
    · rw [hends] at hfuel
      exact absurd rfl hfuel
  have hreported := endsAsReported_ofSource source o known
  obtain ⟨d, hlast, hcode⟩ := (hreported.last .tooDeep).mp (by rw [hending]; rfl)
  obtain ⟨rest, hconcat⟩ := List.getLast?_eq_some_iff.mp hlast
  refine ⟨hending, rest, d, hconcat, hcode, fun e he => hreported.others e ?_⟩
  rw [hconcat, List.dropLast_concat]
  exact he

/-- Too many blocks and openings of expressions in one another end the analysis, whatever stands in
the innermost one. An analysis of any source takes no more layers of productions than the bound on
nesting allows, but for patterns. -/
theorem nesting_is_bounded (o : Options) (known : KnownGlobals) :
    (o.maxErrors = 0 → ∀ (blocks : Nat) (openings : List Opening) (rest : List Char),
      openings.head? ≠ some .object → Opening.AllExpress openings rest →
      o.maxDepth < blocks + openings.length → ∀ source : String,
        source.toList = nesting blocks openings rest → (ofSource source o known).EndsTooDeep) ∧
      ∀ source : String,
        let patterns := Reading.nestingBound source.utf8ByteSize
        let start := startState source o known
        (Reading.program (Reading.layered patterns (o.maxDepth + 1))).run.run start =
          (Reading.program (Reading.productions patterns)).run.run start := by
  refine ⟨fun hlimit blocks openings rest hfirst hgroups hdepth source hsource => ?_, ?_⟩
  · have hbefore := hsource ▸ before_startState hlimit source known
    have hstart : (startState source o known).options.maxDepth <
        (startState source o known).depth + (blocks + openings.length) := by
      rw [show (startState source o known).depth = 0 from rfl, Nat.zero_add]
      exact hdepth
    exact endsTooDeep_of_program (Reading.program_endsTooDeep hbefore hfirst hgroups hstart
      (Nat.zero_lt_of_lt hdepth))
  · intro source patterns start
    have := Reading.productions_stepwise patterns
    have := Reading.productions_refines (Nat.le_refl patterns) (o.maxDepth + 1)
    have hrefines : Reading.Refines (o.maxDepth + 1)
        (Reading.program (Reading.productions patterns))
        (Reading.program (Reading.layered patterns (o.maxDepth + 1))) := inferInstance
    refine hrefines.run_eq (ready_startState source o known) (Nat.zero_le _) ?_ ?_
    · rw [show start.depth = 0 from rfl, Nat.zero_add]
      exact Nat.lt_succ_self _
    · intro hfuel
      apply ofSource_ending source o known
      change Ending.ofOutcome ((Reading.program (Reading.productions patterns)).run.run start).1 = _
      rw [hfuel]
      rfl

/-- Four levels where two are allowed: a block, a template, a parenthesis and an object. -/
theorem nesting_is_bounded_four :
    let o : Options := { maxDepth := 2, maxErrors := 0 }
    let openings : List Opening := [.template, .parenthesis, .object]
    let source := "\x7b`$\x7b(\x7ba:1\x7d)\x7d`\x7d"
    let rest := "1\x7d)\x7d`\x7d".toList
    o.maxErrors = 0 ∧ openings.head? ≠ some .object ∧ Opening.AllExpress openings rest ∧
      o.maxDepth < 1 + openings.length ∧ source.toList = nesting 1 openings rest ∧
      (ofSource source o {}).EndsTooDeep ∧
      (Reading.program (Reading.layered (Reading.nestingBound source.utf8ByteSize) 3)).run.run
          (startState source o {}) =
        (Reading.program (Reading.productions (Reading.nestingBound source.utf8ByteSize))).run.run
          (startState source o {}) := by
  intro o openings source rest
  have hgroups : Opening.AllExpress openings rest :=
    ⟨trivial, Reading.noTarget_of_not_mem (by decide), Reading.noTarget_of_not_mem (by decide),
      trivial⟩
  have hsource : source.toList = nesting 1 openings rest := by decide +kernel
  obtain ⟨hends, hlayers⟩ := nesting_is_bounded o {}
  exact ⟨rfl, by decide, hgroups, by decide, hsource,
    hends rfl 1 openings rest (by decide) hgroups (by decide) source hsource, hlayers source⟩

/-- A declared pattern is no nesting. -/
example :
    let a := ofSource "var [[[[a]]]] = b;" { maxDepth := 2, maxErrors := 0 } {}
    a.ending = .complete := by
  decide +kernel

end ScriptLint.Analysis

import ScriptLint.Proofs.Analysis.Lockstep
import ScriptLint.Proofs.Invariant.Unresolved
import ScriptLint.Proofs.Lexing.Count

/-! # Implied globals

A complete analysis lists the globals that a program uses without declaring them, and reports their
uses if it is to. Both can be told from the references that are left unresolved in the end, since
these stand in the order of the source: the list has each name once, in the order of the first use,
with the lines of all its uses, and there is one report for each use that is not suppressed.
-/

namespace ScriptLint

namespace Reading

/-- The positions at which references were recorded follow one another in the source. -/
theorem Unsettled.places_ordered {source : String} {bs : List Bracket} {s : State}
    (hs : Unsettled source bs s) :
    s.session.tracker.places.Pairwise fun p q =>
      p.offset < q.offset ∧ (p.line < q.line ∨ p.line = q.line ∧ p.column < q.column) := by
  have hcounted : ∀ p ∈ s.session.tracker.places, p.CountedIn source := by
    intro p hmem
    obtain ⟨t, htaken, rfl⟩ := hs.taken p (List.mem_append_left _ hmem)
    exact (hs.within.consumed t htaken).start.passes.countedIn
  have hordered := hs.ordered
  rw [List.append_nil, List.pairwise_map] at hordered
  refine hordered.imp_of_mem fun hp hq hlt => ⟨hlt, ?_⟩
  exact (hcounted _ hp).line_lt_or (hcounted _ hq) hlt

end Reading

namespace Analysis

open Reading (Unsettled)
open Scope (AccountsFor InSourceOrder)

variable {source : String} {o : Options} {known : KnownGlobals}

theorem startState_unsettled (source : String) (o : Options) (known : KnownGlobals) :
    Unsettled source [] (startState source o known) := by
  refine ⟨startState_inOrder source o known, startState_within source o known, ?_, .start .., ?_,
    ?_⟩
  · change (Scope.Tracker.start known _ o.module _).rules = _
    unfold Scope.Tracker.start
    cases o.module <;> rfl
  · change (Scope.Tracker.start known _ o.module _).implied = _
    unfold Scope.Tracker.start
    cases o.module <;> rfl
  · exact fun d hmem => absurd hmem (Array.not_mem_empty d)

/-- In the end all that is to be told of undeclared globals is told, by the final options, and the
references stand in the order of the source. -/
theorem run_concluded (hcomplete : (ofSource source o known).ending = .complete) :
    let s := (run source o known).2
    s.session.Concluded ∧ s.Ruled ∧ s.session.tracker.places.Pairwise fun p q =>
      p.offset < q.offset ∧ (p.line < q.line ∨ p.line = q.line ∧ p.column < q.column) := by
  intro s
  obtain ⟨s₁, hs, -, hfinish⟩ := run_upholds (startState_unsettled source o known).acceptLookahead
    hcomplete
  rw [Reading.run_inScopes] at hfinish
  rcases hrun : Scope.Action.finish.run.run s₁.session with ⟨reason | ⟨⟩, session⟩ <;>
    rw [hrun] at hfinish
  · cases hfinish
  · have hlast : s = { s₁ with session } := (Prod.mk.inj hfinish).2.symm
    have hconcluded := Scope.Action.finish_concludes hs.toInOrder.stack_ne_nil hs.traced
      hs.impliesNone () session hrun
    obtain ⟨hrules, hplaces⟩ :=
      Scope.Action.finish_keeps s₁.session.tracker s₁.session.sink () session hrun
    rw [hlast]
    refine ⟨hconcluded, hrules.trans hs.ruled, ?_⟩
    change session.tracker.places.Pairwise _
    rw [hplaces]
    exact hs.places_ordered

/-- The implied globals of a complete analysis give account of the unresolved uses: these are the
references that no scope binds, but for those by `typeof` and those of names that are known in the
end or that the final edition has. Each name is listed once, in the order of the first use, with the
lines of its uses, and none is declared. If undeclared globals are to be reported in the end, there
is one report for each use, unless it is suppressed on the line or the line is ignored. -/
theorem implied_globals_account_for_unresolved_uses (source : String) (o : Options)
    (known : KnownGlobals) (hcomplete : (ofSource source o known).ending = .complete) :
    let s := (run source o known).2
    let t := s.session.tracker
    let uses := t.unresolvedUses s.options.edition
    let analysis := ofSource source o known
    (∀ r, r ∈ uses ↔ ∃ id < t.references.size, t.resolver? id = none ∧ t.reference id = r ∧
      r.access ≠ .typeOf ∧ t.known.writable? r.name = none ∧
      StandardGlobal.writable? r.name s.options.edition = none) ∧
    InSourceOrder uses ∧ AccountsFor uses analysis.summary.impliedGlobals ∧
    (∀ g ∈ analysis.summary.impliedGlobals, g.name ∉ analysis.summary.declaredGlobals) ∧
    (s.options.undef = true →
      (analysis.diagnostics.filter (·.code = "W117")).map (·.position) =
        (uses.map (·.position)).filter fun p =>
          !s.session.sink.ignoredLines.contains p.line &&
            !s.session.sink.suppresses "W117" p.line) := by
  intro s t uses analysis
  obtain ⟨⟨himplied, hundeclared, hcollected⟩, hruled, hplaces⟩ := run_concluded hcomplete
  have hedition : t.rules.edition = s.options.edition := by
    rw [show t.rules = _ from hruled]
    rfl
  rw [show s.session.tracker.rules = t.rules from rfl, hedition] at himplied hundeclared hcollected
  have huses : (uses.map (·.position)).Pairwise fun p q =>
      p.offset < q.offset ∧ (p.line < q.line ∨ p.line = q.line ∧ p.column < q.column) :=
    hplaces.sublist ((t.unresolvedUses_sublist _).map _)
  have hinorder : InSourceOrder uses := (List.pairwise_map.mp huses).imp fun h => ⟨h.1, by omega⟩
  have hdistinct : (uses.map (·.position.place)).Nodup := by
    refine List.pairwise_map.mpr ((List.pairwise_map.mp huses).imp fun {r r'} h heq => ?_)
    obtain ⟨hline, hcolumn⟩ := Prod.mk.inj heq
    omega
  have haccounts : AccountsFor uses analysis.summary.impliedGlobals := by
    change AccountsFor uses t.implied
    rw [show t.implied = _ from himplied]
    exact Scope.impliedBy_accountsFor hinorder
  refine ⟨fun r => Scope.Tracker.mem_unresolvedUses_iff, hinorder, haccounts, ?_, fun hundef => ?_⟩
  · intro g hmem
    obtain ⟨r, hr, hname⟩ := (haccounts.mem_names g.name).mp (List.mem_map_of_mem hmem)
    exact hname ▸ hundeclared r hr
  · have hopen : (lastSink source o known).isHalted = false := by
      rw [Sink.isHalted, terminal?_of_complete hcomplete]
      rfl
    have hreports := hcollected hopen (lastSink_sound source o known).distinct hdistinct
    have hrule : (Scope.Rules.ofOptions s.options).undef = true := hundef
    rw [hruled, if_pos hrule] at hreports
    change ((lastSink source o known).finish.filter _).map _ = _
    rw [Sink.positions_finish (terminal?_of_complete hcomplete)]
    change (s.session.sink.collected "W117").filter _ = _
    rw [show s.session.sink.collected "W117" = _ from hreports, List.filter_filter]
    rfl

/-- A use of what is nowhere declared, with nothing that suppresses its report. -/
theorem implied_globals_account_for_unresolved_uses_of_call :
    let source := "\n  load();"
    let o : Options := { undef := true }
    let s := (run source o {}).2
    let uses := s.session.tracker.unresolvedUses s.options.edition
    let analysis := ofSource source o {}
    analysis.ending = .complete ∧ analysis.summary.impliedGlobals = [⟨"load", [2]⟩] ∧
      uses.map (·.position) = [⟨2, 3, 3⟩] ∧
      AccountsFor uses analysis.summary.impliedGlobals ∧
      (s.options.undef = true → (analysis.diagnostics.filter (·.code = "W117")).map (·.position) =
        (uses.map (·.position)).filter fun p =>
          !s.session.sink.ignoredLines.contains p.line &&
            !s.session.sink.suppresses "W117" p.line) := by
  intro source o s uses analysis
  have hcomplete : analysis.ending = .complete := by decide +kernel
  have huses := implied_globals_account_for_unresolved_uses source o {} hcomplete
  exact ⟨hcomplete, by decide +kernel, by decide +kernel, huses.2.2.1, huses.2.2.2.2⟩


end Analysis

end ScriptLint

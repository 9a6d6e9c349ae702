import ScriptLint.Proofs.Analysis.Lockstep
import ScriptLint.Proofs.Invariant.Space

/-! # Which spaces are reported

A non-breaking space is noted on the token behind it, and what is noted on a token is reported when
that token is consumed. So the report is lost where the token is read again, as the beginning of a
regular expression or as the rest of a template, and where it is the end of the source, which is
never consumed. All other non-breaking spaces are reported.
-/

namespace ScriptLint.Analysis

open Reading (InOrder Spaced)
open Token (frontier)

variable {source : String} {o : Options} {known : KnownGlobals}

/-- In front of the first token no space is told yet. -/
theorem startState_spaced (hspaces : o.nonbsp = true)
    (henabled : o.disabled.contains "W125" = false) :
    Spaced source [] (startState source o known) := by
  refine ⟨.next .start, fun _ => ⟨hspaces, rfl, fun _ => ?_, fun _ place => ?_⟩⟩
  · exact Sink.shows_start henabled _ _
  · refine iff_of_false ?_ ?_
    · rintro ⟨d, hmem, -⟩
      exact absurd hmem (Array.not_mem_empty d)
    · rintro ⟨t, hmem, -⟩
      exact List.not_mem_nil hmem

/-- In the end the spaces that are told are those that the tokens of the source note. -/
theorem run_spaced (hspaces : o.nonbsp = true) (henabled : o.disabled.contains "W125" = false)
    (hcomplete : (ofSource source o known).ending = .complete) :
    Spaced source [] (run source o known).2 ∧ (run source o known).2.lookahead.isEnd = true := by
  have hstart : Reading.Leads Reading.acceptLookahead (startState source o known) fun _ s' =>
      Spaced source [] s' ∧ InOrder [] [] s' := by
    have haccept : Reading.Attends Reading.commentCodes Reading.acceptLookahead :=
      .acceptLookahead (List.Subset.refl _)
    exact (startState_spaced hspaces henabled).acceptLookahead.and fun _ s' hrun =>
      (startState_inOrder source o known).of_attends (haccept.leads _ _ s' hrun)
  obtain ⟨s, hs, hend, hfinish⟩ :=
    run_upholds (I := fun bs s => Spaced source bs s ∧ InOrder [] bs s) hstart hcomplete
  have hspares : Reading.Spares "W125" (Reading.inScopes Scope.Action.finish) :=
    .inScopes (inferInstance : Scope.Action.ReportsOnly Scope.Action.scopeCodes _) inferInstance
      (by decide)
  have hgains := hspares.leads s _ _ hfinish
  exact ⟨hs.1.of_gains hgains, hgains.lookahead ▸ hend⟩

/-- The tokens of a complete analysis are those of the source up to its end, and the end is not
consumed. If non-breaking spaces are to be reported, the places in the list are those of the spaces
in front of consumed tokens that were read once, each of them once. A space in front of a token that
was read again, as a regular expression or as the rest of a template, or in front of the end of the
source, is not among them. -/
theorem spaces_reported_of_read_once (source : String) (o : Options) (known : KnownGlobals)
    (hspaces : o.nonbsp = true) (henabled : o.disabled.contains "W125" = false)
    (hplain : LeavesOptions source o known)
    (hcomplete : (ofSource source o known).ending = .complete) :
    let s := (run source o known).2
    let diagnostics := (ofSource source o known).diagnostics
    Token.Run source (s.consumed.reverse ++ [s.lookahead]) ∧ s.lookahead.isEnd = true ∧
      ((diagnostics.filter (·.code = "W125")).map (·.position.place)).Nodup ∧
      ∀ place, (∃ d ∈ diagnostics, d.code = "W125" ∧ d.position.place = place) ↔
        ∃ before t after p, s.consumed.reverse = before ++ t :: after ∧
          t = Token.next (frontier source before) ∧ SpaceBefore (frontier source before) t p ∧
          p.place = place := by
  intro s diagnostics
  obtain ⟨⟨htokens, htells⟩, hend⟩ := run_spaced hspaces henabled hcomplete
  refine ⟨htokens, hend, nodup_places hcomplete _, fun place => ?_⟩
  have hopen : (lastSink source o known).isHalted = false := by
    rw [Sink.isHalted, terminal?_of_complete hcomplete]
    rfl
  obtain ⟨-, hlines, -, htells⟩ := htells hplain
  have hnote {before after : List Token} {t : Token}
      (hsplit : s.consumed.reverse = before ++ t :: after) (p : Position) : t.NotesSpace p ↔
        t = Token.next (frontier source before) ∧ SpaceBefore (frontier source before) t p := by
    change Token.Run source (s.consumed.reverse ++ [s.lookahead]) at htokens
    rw [hsplit, List.append_assoc] at htokens
    exact htokens.notesSpace_iff p
  have htold : (lastSink source o known).Tells "W125" place ↔
      ∃ t ∈ s.consumed, ∃ p, t.NotesSpace p ∧ p.place = place := htells hopen place
  have hignored : (lastSink source o known).ignoredLines = [] := hlines
  rw [mem_diagnostics_iff hcomplete, hignored, and_iff_left List.not_mem_nil, htold]
  constructor
  · rintro ⟨t, hmem, p, hspace, hplace⟩
    obtain ⟨before, after, hsplit⟩ := List.append_of_mem (List.mem_reverse.mpr hmem)
    obtain ⟨hnext, hspace⟩ := (hnote hsplit p).mp hspace
    exact ⟨before, t, after, p, hsplit, hnext, hspace, hplace⟩
  · rintro ⟨before, t, after, p, hsplit, hnext, hspace, hplace⟩
    have hmem : t ∈ s.consumed.reverse := hsplit ▸ List.mem_append_right _ List.mem_cons_self
    exact ⟨t, List.mem_reverse.mp hmem, p, (hnote hsplit p).mpr ⟨hnext, hspace⟩, hplace⟩

/-- Of the spaces in front of an operator, of a regular expression, of the rest of a template and of
the end, only the first is reported. -/
theorem spaces_reported_of_read_once_first :
    let source := "x\u00a0=\u00a0/a/ + `$\x7b[]\u00a0\x7d`;\u00a0"
    let o : Options := { edition := .es2015, nonbsp := true, maxErrors := 0 }
    o.nonbsp = true ∧ o.disabled.contains "W125" = false ∧ LeavesOptions source o {} ∧
      (ofSource source o {}).ending = .complete ∧
      (ofSource source o {}).diagnostics.map (fun d => (d.code, d.position.place)) =
        [("W125", 1, 2)] ∧
      ∀ place, (∃ d ∈ (ofSource source o {}).diagnostics, d.code = "W125" ∧
          d.position.place = place) ↔
        ∃ before t after p, (run source o {}).2.consumed.reverse = before ++ t :: after ∧
          t = Token.next (frontier source before) ∧ SpaceBefore (frontier source before) t p ∧
          p.place = place := by
  intro source o
  have henabled : o.disabled.contains "W125" = false := by decide
  have hplain : LeavesOptions source o {} := by decide +kernel
  have hcomplete : (ofSource source o {}).ending = .complete := by decide +kernel
  exact ⟨rfl, henabled, hplain, hcomplete, by decide +kernel,
    (spaces_reported_of_read_once source o {} rfl henabled hplain hcomplete).2.2.2⟩

end ScriptLint.Analysis

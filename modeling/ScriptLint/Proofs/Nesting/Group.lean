import ScriptLint.Proofs.Nesting.Statement
import ScriptLint.Proofs.Analysis.Ending

/-! # The end of a group

Whether a bracket opens parameters, a pattern or an expression is told by the token after its group,
which is searched for before the group is read. The search takes a slash for the beginning of a
regular expression by the token before it alone, whereas reading knows the place in the grammar.
Where the guess is right for every slash of a group that is then read without a report, both come to
the same token.
-/

namespace ScriptLint.Reading

/-! ## The table of productions -/

theorem productions_takes (depth : Nat) : (productions depth).Takes := by
  induction depth with
  | zero =>
      have hfails {α : Type} : Takes (throw .outOfFuel : Reading α) :=
        ⟨.outOfFuel, fun {_} _ _ _ hrun => by cases hrun⟩
      exact ⟨fun _ => hfails, fun _ => hfails, hfails⟩
  | succ depth ih =>
      have := productions_stepwise depth
      refine ⟨fun power => ?_, fun inList => ?_, ?_⟩
      · rw [productions_expression]
        infer_instance
      · rw [productions_statement]
        infer_instance
      · rw [productions_assignmentPattern]
        infer_instance

/-- Whatever the bound on depth, productions take brackets as they nest. -/
theorem productions_nests (depth : Nat) : (productions depth).Nests := by
  induction depth with
  | zero =>
      have hfails {α : Type} {n : Nat} {g : List Closer} {ahead : Ahead} :
          Shifts n g ahead (throw .outOfFuel : Reading α) n g :=
        ⟨fun _ _ _ _ hrun => by cases hrun⟩
      exact ⟨fun _ _ _ => hfails, fun _ _ => hfails, fun _ _ _ => hfails, fun _ _ => hfails,
        fun _ _ _ => hfails⟩
  | succ depth ih =>
      have := productions_stepwise depth
      have := productions_takes depth
      refine ⟨fun n g power => ?_, fun n g => ?_, fun n g inList => ?_, fun n g => ?_,
        fun n g t => ?_⟩
      · rw [productions_expression]
        infer_instance
      · rw [productions_operand]
        infer_instance
      · rw [productions_statement]
        infer_instance
      · rw [productions_bindingTarget]
        infer_instance
      · rw [productions_assignmentPattern]
        infer_instance

/-! ## Reading a group -/

variable {α β : Type}

/-- The way of reading the group that a token opens, other than as parameters or as a pattern. -/
inductive ReadsGroup (self : Productions) (t : Token) : Reading Expression → Prop
  | parentheses : t.isPunctuator "(" → ReadsGroup self t (parenthesizedExpression self)
  | array : t.isPunctuator "[" → ReadsGroup self t (arrayLiteral self)
  | object : t.isPunctuator "\x7b" → ReadsGroup self t (objectLiteral self)

/-- A step from a state gives an answer and reports nothing: a sink in which every report would be
heard holds nothing in the end. -/
def Unreported (step : Reading α) (s : State) : Prop :=
  ∃ h a s', step.run.run (s.hide h) = (.ok a, s') ∧ s'.session.sink.Quiet

/-- The tokens that were consumed behind the next one of the first state, the last one first. -/
def State.takenBehind (s s' : State) : List Token :=
  s'.consumed.take (s'.consumed.length - (s.consumed.length + 1))

theorem expectPunctuator_leads (p : String) (s : State) :
    Leads (expectPunctuator p) s fun _ s' =>
      s'.session.sink.Quiet → s.lookahead.isPunctuator p ∧ s.behind.Keeps s' := by
  refine .bind ?_
  rintro _ _ ⟨⟩
  refine .ite (fun hp u s' hrun _ => ⟨hp, advance_leads s u s' hrun⟩) fun _ u s' hrun hquiet => ?_
  have hspeaks : Speaks (unexpectedInstead p) := inferInstance
  exact absurd hquiet (hspeaks.loud s u s' hrun)

/-- What is read between two brackets is a walk from the one to the other. -/
theorem group_leads {inner : Reading α} {rest : α → Reading β} {p : String}
    [hp : Spells p .closes] (hinner : Shifts 0 [] .unknown inner 0 [])
    (hrest : ∀ a, Keeps (rest a)) {s : State} (hs : s.Ready) :
    Leads (do advance; let a ← inner; expectPunctuator p; rest a) s fun _ s' =>
      s'.session.sink.Quiet → ∃ ts next, s'.consumed = next :: ts ++ s.lookahead :: s.consumed ∧
        s'.lookahead = Token.next next.stop ∧ Walk s.lookahead ts next [] ∧
          next.turn = .closes := by
  refine .bind fun u₁ s₁ hrun₁ => .bind fun a s₂ hrun₂ => .bind fun u₃ s₃ hrun₃ => ?_
  intro b s' hrun' hquiet
  have hopening := advance_leads s u₁ s₁ hrun₁
  have hstart : s.behind.Since (s.lookahead :: s.consumed) s.lookahead 0 [] :=
    ⟨.next hs.stop, .zero _, [], rfl, .start⟩
  have hcontent := hinner.leads (fun _ => hstart.keeps hopening) trivial a s₂ hrun₂
  have hbehind := (hrest a).leads s₃ b s' hrun'
  obtain ⟨hcloses, hclosing⟩ := expectPunctuator_leads p s₂ u₃ s₃ hrun₃ (hbehind.quiet hquiet)
  obtain ⟨ts, hconsumed, hwalk⟩ := (hcontent (hclosing.quiet (hbehind.quiet hquiet))).walk
  refine ⟨ts, s₂.lookahead, ?_, hbehind.lookahead.trans hclosing.lookahead, hwalk, ?_⟩
  · rw [hbehind.consumed, hclosing.consumed, State.behind, hconsumed]
    rfl
  · exact (Token.turn_of_isPunctuator hcloses).trans hp.eq

theorem ReadsGroup.leads {depth : Nat} {s : State} {read : Reading Expression}
    (hread : ReadsGroup (productions depth) s.lookahead read) (hs : s.Ready) :
    Leads read s fun _ s' =>
      s'.session.sink.Quiet → ∃ ts next, s'.consumed = next :: ts ++ s.lookahead :: s.consumed ∧
        s'.lookahead = Token.next next.stop ∧ Walk s.lookahead ts next [] ∧
          next.turn = .closes := by
  have := productions_stepwise depth
  have := productions_takes depth
  have := productions_nests depth
  cases hread with
  | parentheses => exact group_leads inferInstance (fun _ => inferInstance) hs
  | array =>
      refine .bind ?_
      rintro _ _ ⟨⟩
      exact group_leads inferInstance (fun _ => inferInstance) hs
  | object =>
      refine .bind ?_
      rintro _ _ ⟨⟩
      exact group_leads inferInstance (fun _ => inferInstance) hs

/-- Behind an opening bracket a slash begins a regular expression. -/
theorem ReadsGroup.opens {self : Productions} {t : Token} {read : Reading Expression}
    (hread : ReadsGroup self t read) : regexpMayFollow t = true := by
  have hbracket {p : String} (hp : t.isPunctuator p)
      (hno : (!([")", "]", "\x7d"].contains p)) = true) : regexpMayFollow t = true := by
    obtain ⟨hlexeme, rfl⟩ := Token.isPunctuator_iff.mp hp
    unfold regexpMayFollow
    rw [hlexeme]
    exact hno
  cases hread with
  | parentheses hp => exact hbracket hp (by decide)
  | array hp => exact hbracket hp (by decide)
  | object hp => exact hbracket hp (by decide)

theorem ReadsGroup.stepwise {depth : Nat} {t : Token} {read : Reading Expression}
    (hread : ReadsGroup (productions depth) t read) : Stepwise read := by
  have := productions_stepwise depth
  suffices hsteady : Steady 0 read from hsteady.stepwise
  cases hread <;> infer_instance

/-- The search finds what it comes to in any number of steps. -/
theorem tokenAfterGroup_of_run {s : State} {t : Token} {fuel : Nat} (hs : s.Ready)
    (hopens : regexpMayFollow s.lookahead = true)
    (hrun : (GroupScan.behind s.lookahead []).run fuel = some t) :
    tokenAfterGroup.run.run s = (.ok t, s) := by
  have hstart : GroupScan.behind s.lookahead [] =
      { groups := [.bracket], stop := s.lookahead.stop } := by
    rw [GroupScan.behind, hopens]
    rfl
  rw [hstart] at hrun
  have hfuel : s.size - s.lookahead.stop.position.offset <
      s.size - s.lookahead.stop.position.offset + 2 := by omega
  obtain ⟨t', hother⟩ := Option.isSome_iff_exists.mp
    (GroupScan.run_isSome (s := { groups := [.bracket], stop := s.lookahead.stop }) hs.stop hfuel)
  obtain rfl := GroupScan.run_unique hother hrun
  have hget : (get : Reading State).run.run s = (.ok s, s) := rfl
  have htoken : token.run.run s = (.ok s.lookahead, s) := rfl
  unfold tokenAfterGroup tokenAfterGroupFrom
  rw [run_bind, htoken]
  dsimp only
  rw [run_bind, hget]
  dsimp only
  rw [hother]
  rfl

/-- Where a group is read as an expression, an array or an object without a report, and the search
for its end guesses right for every slash in it, the token that the search finds is the one that
comes next behind the group. -/
theorem group_end_found (depth : Nat) {s : State} {read : Reading Expression} (hs : s.Ready)
    (hread : ReadsGroup (productions depth) s.lookahead read) (hsilent : Unreported read s) :
    ∃ e s', read.run.run s = (.ok e, s') ∧
      (AllGuessedRight s.lookahead (s.takenBehind s') →
        tokenAfterGroup.run.run s = (.ok s'.lookahead, s)) := by
  obtain ⟨h, e, s', hrun, hquiet⟩ := hsilent
  -- With its own sink the state goes the same way.
  obtain ⟨h', hown⟩ := hread.stepwise.silent hrun hquiet s.hidden
  refine ⟨e, s'.hide h', hown, fun hright => ?_⟩
  obtain ⟨ts, next, hconsumed, hnext, hwalk, hcloses⟩ :=
    hread.leads (s := s.hide h) hs e s' hrun hquiet
  have htaken : s.takenBehind (s'.hide h') = next :: ts := by
    have hall : (s'.hide h').consumed = (next :: ts) ++ s.lookahead :: s.consumed := hconsumed
    unfold State.takenBehind
    have hlength : (s.lookahead :: s.consumed).length = s.consumed.length + 1 := List.length_cons
    rw [hall, List.length_append, hlength, Nat.add_sub_cancel, List.take_left]
  rw [htaken] at hright
  rw [show (s'.hide h').lookahead = Token.next next.stop from hnext]
  exact tokenAfterGroup_of_run hs hread.opens (GroupScan.run_behind_last hwalk hcloses hright)

/-- The search is not misled by a bracket in a regular expression, nor by a backtick in one that
stands in a template. -/
theorem group_end_found_behind_regexps :
    let s := Analysis.startState "[a/b,/]/,`]$\x7b[/`/]\x7d`];" { edition := .es2015 } {}
    let step := arrayLiteral (productions 16)
    s.Ready ∧ ReadsGroup (productions 16) s.lookahead step ∧ Unreported step s ∧
      ∃ e s', step.run.run s = (.ok e, s') ∧ AllGuessedRight s.lookahead (s.takenBehind s') ∧
        tokenAfterGroup.run.run s = (.ok s'.lookahead, s) ∧ s'.lookahead.isPunctuator ";" := by
  intro s step
  have hready : s.Ready := Analysis.ready_startState _ _ _
  have hread : ReadsGroup (productions 16) s.lookahead step := .array (by decide +kernel)
  have hanswer : (step.run.run s).1.isOk := by decide +kernel
  have hquiet : (step.run.run s).2.session.sink.Quiet := by
    have hdisabled : (step.run.run s).2.session.sink.disabled = .empty := by decide +kernel
    have htoggles : (step.run.run s).2.session.sink.toggles = [] := by decide +kernel
    exact ⟨by decide +kernel, by decide +kernel, fun code => by rw [hdisabled]; rfl,
      fun toggle hmem => by simp [htoggles] at hmem, by decide +kernel⟩
  have hright : AllGuessedRight s.lookahead (s.takenBehind (step.run.run s).2) := by decide +kernel
  have hnext : (step.run.run s).2.lookahead.isPunctuator ";" := by decide +kernel
  rcases hrun : step.run.run s with ⟨stop | e, s'⟩ <;> rw [hrun] at hanswer hquiet hright hnext
  · cases hanswer
  have hsilent : Unreported step s := ⟨s.hidden, e, s', hrun, hquiet⟩
  obtain ⟨e', s'', hrun', hfound⟩ := group_end_found 16 hready hread hsilent
  obtain ⟨-, rfl⟩ := Prod.mk.inj (hrun'.symm.trans hrun)
  exact ⟨hready, hread, hsilent, e, s'', rfl, hright, hfound hright, hnext⟩

/-- It is misled by one at the beginning of a substitution, where it takes the slash for an
operator. -/
example :
    let codes (source : String) :=
      (Analysis.ofSource source { edition := .es2015 } {}).diagnostics.map (·.code)
    codes "x=(`$\x7b[/[\x7d))=>]/]\x7d`);" = [] ∧
      codes "x=(`$\x7b/[\x7d))=>]/\x7d`);" = ["E030", "E021", "E058", "E024", "W032"] := by
  decide +kernel

end ScriptLint.Reading

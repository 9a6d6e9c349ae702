import ScriptLint.Proofs.Analysis.Ending
import ScriptLint.Proofs.Diagnostic.Told
import ScriptLint.Proofs.Nesting.Taken
import ScriptLint.Proofs.Reading.Completion
import ScriptLint.Proofs.Reading.Simulation

/-! # Running into the next clause

A `switch` statement is read clause by clause. What the loop over the clauses remembers of one is
whether its last statement exits, so where control may get to the end of a clause without a `break`
to a label in it, the next clause is reported unless a comment announces that.
-/

namespace ScriptLint

theorem Sink.Tells.grows {a b : Sink} {code : String} {place : Nat × Nat} (h : a.Tells code place)
    (hgrows : a.Grows b) : b.Tells code place := by
  obtain ⟨d, hmem, hkey⟩ := h
  exact ⟨d, Array.mem_toList_iff.mp (hgrows.accepted.subset (Array.mem_toList_iff.mpr hmem)), hkey⟩

namespace Reading

variable {self : Productions} {s s' s₀ : State} {fuel n : Nat}

/-- A step that goes on has not ended the analysis. -/
theorem Stepwise.leads_records {α : Type} {step : Reading α} (hstep : Stepwise step)
    (hs : s.session.sink.Records none) :
    Leads step s fun _ s' => s'.session.sink.Records none := by
  intro a s' hrun
  have hrecords := hstep.records hs
  rwa [hrun] at hrecords

/-- What was told by then is told in the end. -/
theorem tells_bind {α β : Type} {first : Reading α} {next : α → Reading β} {code : String}
    {place : Nat × Nat} (hfirst : (first.run.run s).2.session.sink.Tells code place)
    (hnext : ∀ a, Stepwise (next a)) :
    ((first >>= next).run.run s).2.session.sink.Tells code place := by
  rw [run_bind]
  rcases hrun : first.run.run s with ⟨stop | a, s'⟩ <;> rw [hrun] at hfirst
  · exact hfirst
  · exact hfirst.grows ((hnext a).grows s')

theorem tells_look {α β : Type} {first : Reading α} {next : α → Reading β} {a : α} {code : String}
    {place : Nat × Nat} (hrun : first.run.run s = (.ok a, s))
    (hnext : ((next a).run.run s).2.session.sink.Tells code place) :
    ((first >>= next).run.run s).2.session.sink.Tells code place := by
  rwa [run_bind, hrun]

/-- A report that is not switched off is told. -/
theorem report_tells {code : String} {position : Position} (hopen : s.session.sink.isHalted = false)
    (hshown : s.session.sink.suppresses code position.line = false) (arguments : List String)
    {hcode : Halt.IsRegular code} :
    ((report code position arguments hcode).run.run s).2.session.sink.Tells code
      position.place := by
  have hrun : (report code position arguments hcode).run.run s = (inScopes (Scope.Action.report code
      position arguments s.session.tracker.functionName hcode)).run.run s := rfl
  rw [hrun, run_inScopes, Scope.Action.run_report]
  exact (Sink.tells_report_iff hopen).mpr (.inr ⟨rfl, rfl, hshown⟩)

/-- A `switch` statement up to its first clause. -/
def switchHead (self : Productions) : Reading Unit := do
  let position := (← token).position
  advance
  let _ ← subject self
  expectPunctuator "\x7b"
  track (·.enterScope .block position)
  track (·.enterSwitch)

/-- The end of a `switch` statement. -/
def switchEnd : Reading Statement := do
  track (·.exitSwitch)
  inScopes Scope.Action.exitScope
  expectPunctuator "\x7d"
  pure { kind := .other }

theorem switchStatement_eq : switchStatement self =
    switchHead self >>= fun _ => repeatFrom .none (switchRound self) >>= fun _ => switchEnd := by
  unfold switchStatement switchHead switchEnd
  simp only [bind_assoc]

/-- Reading the `switch` statement at the first state, the loop over its clauses gets to the second
one, where `rounds` more rounds are allowed. The outlines are those of the statements that were read
behind the last head of a clause. -/
inductive InSwitch (fuel : Nat) (s₀ : State) : List Outline → Nat → Clause → State → Prop
  | start {s : State} (hrun : (switchHead (productions fuel)).run.run s₀ = (.ok (), s)) :
    InSwitch fuel s₀ [] (s.size - s.lookahead.position.offset + 4) .none s
  | head {outlines : List Outline} {rounds : Nat} {clause : Clause} {s s' : State}
    (hin : InSwitch fuel s₀ outlines (rounds + 1) clause s)
    (hrun : (switchRound (productions fuel) clause).run.run s = (.ok (.again .empty), s')) :
    InSwitch fuel s₀ [] rounds .empty s'
  | statement {outlines : List Outline} {rounds : Nat} {clause : Clause} {exits : Bool}
    {s s' : State} (hin : InSwitch fuel s₀ outlines (rounds + 1) clause s)
    (hclause : clause ≠ .none)
    (hrun : (switchRound (productions fuel) clause).run.run s =
      (.ok (.again (.running exits)), s')) :
    InSwitch fuel s₀ (outlines ++ [outlineAt fuel s]) rounds (.running exits) s'

namespace InSwitch

variable {outlines : List Outline} {clause : Clause}

/-- As much of the source is left as rounds are allowed. -/
theorem left_lt (h : InSwitch fuel s₀ outlines n clause s) (hs : s₀.Ready) :
    s.Ready ∧ s.left < n := by
  have := productions_stepwise fuel
  have hround (clause : Clause) {rounds : Nat} {clause' : Clause} {s s' : State} (hs : s.Ready)
      (hleft : s.left < rounds + 1)
      (hrun : (switchRound (productions fuel) clause).run.run s = (.ok (.again clause'), s')) :
      s'.Ready ∧ s'.left < rounds := by
    have hadvances : Advances 0 (switchRound (productions fuel) clause) := inferInstance
    have hmoves := hadvances.leads hs _ s' hrun
    have hlt := hmoves.left_lt rfl
    exact ⟨hmoves.reaches.ready, by omega⟩
  induction h with
  | @start s hrun =>
      have hsteady : Steady 0 (switchHead (productions fuel)) := by
        unfold switchHead
        infer_instance
      exact ⟨(hsteady.leads hs _ s hrun).ready, Nat.lt_add_of_pos_right (by decide)⟩
  | head hin hrun ih => exact hround _ ih.1 ih.2 hrun
  | statement hin hclause hrun ih => exact hround _ ih.1 ih.2 hrun

/-- What is left to read of the statement is the rest of the loop. -/
theorem run_eq (h : InSwitch fuel s₀ outlines n clause s) :
    (switchStatement (productions fuel)).run.run s₀ =
      (iterate (switchRound (productions fuel)) n clause >>= fun _ => switchEnd).run.run s := by
  have hround {clause clause' : Clause} {rounds : Nat} {s s' : State}
      (hrun : (switchRound (productions fuel) clause).run.run s = (.ok (.again clause'), s')) :
      (iterate (switchRound (productions fuel)) (rounds + 1) clause >>=
          fun _ => switchEnd).run.run s =
        (iterate (switchRound (productions fuel)) rounds clause' >>=
          fun _ => switchEnd).run.run s' := by
    rw [iterate, bind_assoc, run_bind, hrun]
  induction h with
  | start hrun =>
      rw [switchStatement_eq, run_bind, hrun]
      rfl
  | head hin hrun ih => rw [ih, hround hrun]
  | statement hin hclause hrun ih => rw [ih, hround hrun]

theorem records (h : InSwitch fuel s₀ outlines n clause s)
    (hs : s₀.session.sink.Records none) : s.session.sink.Records none := by
  have := productions_stepwise fuel
  have hround (clause clause' : Clause) {s s' : State} (hs : s.session.sink.Records none)
      (hrun : (switchRound (productions fuel) clause).run.run s = (.ok (.again clause'), s')) :
      s'.session.sink.Records none := by
    have hstepwise := (inferInstance : Advances 0 (switchRound (productions fuel) clause)).stepwise
    exact hstepwise.leads_records hs _ s' hrun
  induction h with
  | start hrun =>
      have hhead : Stepwise (switchHead (productions fuel)) := by
        refine .of_steady (n := 0) ?_
        unfold switchHead
        infer_instance
      exact hhead.leads_records hs _ _ hrun
  | head hin hrun ih | statement hin hclause hrun ih => exact hround _ _ ih hrun

/-- Where the last statement of a clause exits, the clause is not left at its end. -/
theorem clause_eq (h : InSwitch fuel s₀ outlines n clause s) (hne : outlines ≠ [])
    (hnormal : Outline.AllComplete false outlines .normal) : clause = .running false := by
  cases h with
  | start | head => exact absurd rfl hne
  | @statement outlines' _ clause' exits s' _ hin hclause hrun =>
      have hexits : Leads (switchRound (productions fuel) clause') s' fun round _ =>
          round = .again (.running true) → ¬ (outlineAt fuel s').Completes false .normal := by
        rw [switchRound_eq]
        refine .bind ?_
        rintro _ _ ⟨⟩
        refine .ite (fun _ => .pure nofun) fun _ =>
          .ite (fun _ => .after fun _ _ => .pure nofun) fun _ => ?_
        rw [if_neg hclause, pure_bind]
        refine .bind fun statement _ hstatement => .pure fun heq => ?_
        injection heq with heq
        injection heq with heq
        exact exits_listItem (productions_exits fuel true s') _ statement _ hstatement heq
      cases exits with
      | false => rfl
      | true => exact absurd hnormal.last (hexits _ _ hrun rfl)

end InSwitch

/-- Running into the head of a clause is reported at that head, unless it is announced. -/
theorem clauseHead_tells [self.Steady 0] (hopen : s.session.sink.isHalted = false)
    (hshown : s.session.sink.suppresses "W086" s.lookahead.position.line = false)
    (hunannounced : ∀ d ∈ s.lookahead.directives, d.kind ≠ .fallsThrough) :
    ((clauseHead self (.running false)).run.run s).2.session.sink.Tells "W086"
      s.lookahead.position.place := by
  have hannounced : (Clause.running false = .running false &&
      !s.lookahead.directives.any (·.kind = .fallsThrough)) = true := by
    have hnone : s.lookahead.directives.any (·.kind = .fallsThrough) = false :=
      List.any_eq_false.mpr fun d hmem => by simpa using hunannounced d hmem
    rw [hnone]
    rfl
  unfold clauseHead
  refine tells_look (a := s.lookahead) rfl ?_
  dsimp only
  rw [if_pos hannounced]
  exact tells_bind (report_tells hopen hshown _) fun _ => .of_steady (n := 0) inferInstance

theorem switchStatement_tells {outlines : List Outline} {clause : Clause} (hready : s₀.Ready)
    (hrecords : s₀.session.sink.Records none) (hin : InSwitch fuel s₀ outlines n clause s)
    (hne : outlines ≠ []) (hnormal : Outline.AllComplete false outlines .normal)
    (hnext : s.lookahead.isKeyword "case" = true ∨ s.lookahead.isKeyword "default" = true)
    (hunannounced : ∀ d ∈ s.lookahead.directives, d.kind ≠ .fallsThrough)
    (hshown : s.session.sink.suppresses "W086" s.lookahead.position.line = false) :
    ((switchStatement (productions fuel)).run.run s₀).2.session.sink.Tells "W086"
      s.lookahead.position.place := by
  have := productions_stepwise fuel
  obtain ⟨rounds, rfl⟩ := Nat.exists_eq_succ_of_ne_zero
    (Nat.ne_of_gt (Nat.zero_lt_of_lt (hin.left_lt hready).2))
  have hopen := (hin.records hrecords).isHalted_eq_false
  have hhead : ((clauseHead (productions fuel) (.running false)).run.run s).2.session.sink.Tells
      "W086" s.lookahead.position.place := clauseHead_tells hopen hshown hunannounced
  have hround : ((switchRound (productions fuel) clause).run.run s).2.session.sink.Tells "W086"
      s.lookahead.position.place := by
    have hends : (s.lookahead.isPunctuator "\x7d" || s.lookahead.isEnd) = false := by
      have hkeyword : ∃ word, s.lookahead.lexeme = .keyword word := by
        rcases hnext with h | h <;> unfold Token.isKeyword at h <;> split at h
        all_goals first | exact ⟨_, ‹_›⟩ | cases h
      obtain ⟨word, hlexeme⟩ := hkeyword
      simp only [Token.isPunctuator, Token.isEnd, hlexeme, Bool.or_self]
    have hrun : (switchRound (productions fuel) clause).run.run s =
        (clauseHead (productions fuel) clause >>= fun _ => pure (.again .empty)).run.run s := by
      rw [switchRound_eq, run_bind]
      change ((if s.lookahead.isPunctuator "\x7d" || s.lookahead.isEnd then _ else _ :
        Reading (Round Clause Unit))).run.run s = _
      rw [hends, if_neg Bool.false_ne_true, if_pos (Bool.or_eq_true_iff.mpr hnext)]
    rw [hrun, hin.clause_eq hne hnormal]
    exact tells_bind hhead fun _ => .pure _
  have hadvances (clause : Clause) : Advances 0 (switchRound (productions fuel) clause) :=
    inferInstance
  rw [hin.run_eq]
  refine tells_bind ?_ fun _ => ?_
  · rw [iterate]
    refine tells_bind hround fun round => ?_
    cases round with
    | again clause => exact .iterate (fun clause => (hadvances clause).stepwise) _ _
    | done answer => exact .pure answer
  · unfold switchEnd
    exact .of_steady (n := 0) inferInstance

/-- A statement that exits is not left at its end, unless by a `break` to the label of a statement
in it. Where control may get to the end of a clause that holds statements, with no such `break` on
the way, the head of the next clause is reported unless a comment announces that. -/
theorem fall_through_told {outlines : List Outline} {clause : Clause} (hready : s₀.Ready)
    (hrecords : s₀.session.sink.Records none) (hin : InSwitch fuel s₀ outlines n clause s)
    (hne : outlines ≠ []) (hnormal : Outline.AllComplete false outlines .normal)
    (hnext : s.lookahead.isKeyword "case" = true ∨ s.lookahead.isKeyword "default" = true)
    (hunannounced : ∀ d ∈ s.lookahead.directives, d.kind ≠ .fallsThrough)
    (hshown : s.session.sink.suppresses "W086" s.lookahead.position.line = false) :
    (∀ inList s r s', ((productions fuel).statement inList).run.run s = (.ok r, s') →
      r.exits = true → ¬ (outlineAt fuel s).Completes false .normal) ∧
    ((switchStatement (productions fuel)).run.run s₀).2.session.sink.Tells "W086"
      s.lookahead.position.place :=
  ⟨productions_exits fuel,
    switchStatement_tells hready hrecords hin hne hnormal hnext hunannounced hshown⟩

/-- The state with which a loop goes on. -/
def Round.again? {σ α : Type} : Round σ α → Option σ
  | .again state => some state
  | .done _ => none

theorem Round.again?_eq_some {σ α : Type} {round : Round σ α} {state : σ}
    (h : round.again? = some state) : round = .again state := by
  cases round <;> cases h
  rfl

/-- Control gets to the end of the first clause through the second branch of a condition. -/
theorem fall_through_told_branch :
    let s₀ := Analysis.startState
      "switch(a)\x7bcase b:if(c)\x7bbreak;\x7delse\x7bd();\x7dcase e:f();\x7d" {} {}
    let self := productions 9
    let s₁ := s₀.after (switchHead self)
    let s₂ := s₁.after (switchRound self .none)
    let s := s₂.after (switchRound self .empty)
    (∃ n clause, InSwitch 9 s₀ [outlineAt 9 s₂] n clause s) ∧
      Outline.AllComplete false [outlineAt 9 s₂] .normal ∧
      (s.lookahead.isKeyword "case" = true ∧ s.lookahead.position.place = (1, 41)) ∧
      ((switchStatement self).run.run s₀).2.session.sink.Tells "W086"
        s.lookahead.position.place := by
  intro s₀ self s₁ s₂ s
  have hhead : ((switchHead self).run.run s₀).1 = .ok () := by decide +kernel
  have hround {clause clause' : Clause} {s : State}
      (h : ((switchRound self clause).run.run s).1.map Round.again? = .ok (some clause')) :
      (switchRound self clause).run.run s =
        (.ok (.again clause'), s.after (switchRound self clause)) := by
    refine State.run_eq_after ?_
    cases hresult : ((switchRound self clause).run.run s).1 with
    | error stop =>
        rw [hresult] at h
        cases h
    | ok round =>
        rw [hresult] at h
        exact congrArg _ (Round.again?_eq_some (Except.ok.inj h))
  have hin : InSwitch 9 s₀ [outlineAt 9 s₂] _ (.running false) s :=
    .statement (.head (.start (State.run_eq_after hhead)) (hround (by decide +kernel))) nofun
      (hround (by decide +kernel))
  have hnormal : Outline.AllComplete false [outlineAt 9 s₂] .normal := by decide +kernel
  have hcase : s.lookahead.isKeyword "case" = true ∧ s.lookahead.position.place = (1, 41) := by
    decide +kernel
  refine ⟨⟨_, _, hin⟩, hnormal, hcase, ?_⟩
  exact (fall_through_told (Analysis.ready_startState _ _ _) (.start _ _ _) hin (by simp) hnormal
    (.inl hcase.1) (by decide +kernel) (by decide +kernel)).2

/-- A `break` to the label of a block gets to the end of the clause, too, and is not reported. -/
example :
    (Analysis.ofSource "switch(null)\x7bcase true:a:\x7bbreak a;\x7dcase false:\x7d" {}
      {}).diagnostics = [] ∧
    Outline.AllComplete true [.labelled "a" (.block [.breakTo (some "a")])] .normal := by
  decide +kernel

end Reading

end ScriptLint

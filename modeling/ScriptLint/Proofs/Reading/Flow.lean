import ScriptLint.Proofs.Reading.Steady

/-! # The steps of token flow

Consuming tokens, applying the comments before them and wanting certain ones is put together from
the steps of reading.
-/

namespace ScriptLint.Reading

variable {n m : Nat} {s : State} {sure : Prop}

namespace Steady

/-! ## Consuming tokens -/

instance (issues : List LexicalIssue) : Steady n (reportIssues issues) := by
  have hissue (issue : LexicalIssue) :
      Steady n (do if !tolerates (← Reading.options) issue then reportIssue issue) :=
    .options (fun _ _ _ => rfl) fun _ => inferInstance
  unfold reportIssues
  infer_instance

instance : Steady n checkFatal := by
  unfold checkFatal
  refine .bind inferInstance fun t => ?_
  split <;> infer_instance

instance : Steady n acceptLookahead where
  stepwise := by
    have hdirectives (t : Token) : Applies (fun _ => True) (t.directives.forM applyDirective) :=
      .forM fun _ _ => .applyDirective fun _ _ => trivial
    refine .bind (inferInstance : Steady 0 token).stepwise fun t => ?_
    exact .bind (hdirectives t).stepwise fun _ => (inferInstance : Steady 0 checkFatal).stepwise
  meets {s sure} hs hn := by
    have happlies : Applies s.lookahead.Announces (s.lookahead.directives.forM applyDirective) :=
      .forM fun d hd => .applyDirective fun _ hitem => ⟨s.lookahead, .refl, d, hd, hitem⟩
    have hdirectives : Meets sure (s.lookahead.directives.forM applyDirective) s
        fun _ s' => s.Reaches s' := .of_applies happlies (fun _ => id) fun _ _ => .of_same hs
    have hrest : Steady n checkFatal := inferInstance
    refine .token (hdirectives.bind fun _ _ h => ?_)
    exact (hrest.meets h.ready (h.bound hn)).mono fun _ _ h' => h.trans h'

/-- The token behind the next one is a later one, unless the input ends here. -/
theorem passes_next (hs : s.Ready) :
    s.Passes
      { s with consumed := s.lookahead :: s.consumed, lookahead := Token.next s.lookahead.stop } := by
  let moved : State :=
    { s with consumed := s.lookahead :: s.consumed, lookahead := Token.next s.lookahead.stop }
  have hready : moved.Ready := .next hs.stop
  have hmoved : moved.left = s.size - (Token.next s.lookahead.stop).position.offset := rfl
  have hnext := Token.offset_le_next s.lookahead.stop
  refine ⟨⟨hready, rfl, ?_, rfl, rfl⟩, ?_⟩
  · have hstop := hs.offset_le_stop
    change moved.left ≤ s.left
    unfold State.left at *
    omega
  · cases hend : s.lookahead.isEnd with
    | true => exact .inl (hs.isEnd_iff.mp hend)
    | false =>
        have hstop := hs.offset_lt_stop hend
        have hsize := hs.stop.offset_le
        refine .inr ?_
        change moved.left < s.left
        unfold State.left at *
        omega

instance : Consumes n advance where
  stepwise := by
    have hconsumed (t : Token) : Stepwise (modify fun s : State =>
        { s with consumed := t :: s.consumed, lookahead := Token.next t.stop }) :=
      .adjust fun _ h => ⟨h.maxErrors, rfl⟩
    have hrest (t : Token) : Steady 0 (do reportIssues t.issues; acceptLookahead) :=
      inferInstance
    exact .bind (inferInstance : Steady 0 token).stepwise fun t =>
      .bind (hconsumed t) fun _ => (hrest t).stepwise
  meets {s sure} hs hn := by
    have hmoved : Meets sure (modify fun s' =>
        { s' with consumed := s.lookahead :: s'.consumed, lookahead := Token.next s.lookahead.stop }) s
        fun _ s' => s.Passes s' := .change ⟨.next .refl, .refl _⟩ (passes_next hs)
    have hrest : Steady n (do reportIssues s.lookahead.issues; acceptLookahead) := inferInstance
    refine .token (hmoved.bind fun _ _ h => ?_)
    refine (hrest.meets h.reaches.ready (h.reaches.bound hn)).mono fun _ _ h' => ?_
    exact ⟨h.reaches.trans h', h.taken.imp_right (Nat.lt_of_le_of_lt h'.left)⟩

instance : Steady n advance := Consumes.steady inferInstance

theorem replaceLookahead_stepwise (t : Token) : Stepwise (replaceLookahead t) :=
  .adjust fun _ h => ⟨h.maxErrors, rfl⟩

instance : Steady n rescanRegexp where
  stepwise := by
    refine .bind (inferInstance : Steady 0 token).stepwise fun t => ?_
    split
    · exact replaceLookahead_stepwise _
    · exact .pure ()
  meets {s _} hs _ := by
    refine .token ?_
    split
    next hslash =>
      exact .change ⟨.regexp .refl hslash, .refl _⟩
        ⟨hs.rescanRegexp hslash, rfl, Nat.le_refl _, rfl, rfl⟩
    next => exact .pure (.refl hs)

theorem rescanTemplate_stepwise : Stepwise rescanTemplate := by
  refine .bind (inferInstance : Steady 0 token).stepwise fun t => ?_
  exact .bind (replaceLookahead_stepwise _) fun _ => (inferInstance : Steady 0 checkFatal).stepwise

/-- A brace that is read as the end of a substitution stays where it is. -/
theorem meets_rescanTemplate (hs : s.Ready)
    (hbrace : s.lookahead.isPunctuator "\x7d") :
    Meets sure rescanTemplate s fun _ s' => s.Reaches s' := by
  let rescanned : State := { s with lookahead := s.lookahead.rescanTemplate }
  have hreaches : s.Reaches rescanned := by
    refine ⟨hs.rescanTemplate hbrace, rfl, ?_, rfl, rfl⟩
    have hstart := (hs.rescanTemplate_begins_of_brace hbrace).start_eq
    unfold State.left Token.position
    rw [hstart]
  have hrest : Steady (rescanned.left + 1) checkFatal := inferInstance
  have hn (_ : sure) := Nat.lt_succ_self rescanned.left
  have hreplaced : Meets sure (replaceLookahead s.lookahead.rescanTemplate) s
      fun _ s' => s' = rescanned := .change ⟨.template .refl hbrace, .refl _⟩ rfl
  refine .token (hreplaced.bind ?_)
  rintro _ _ rfl
  exact (hrest.meets hreaches.ready hn).mono fun _ _ h => hreaches.trans h

instance : Steady n peek := by
  unfold peek
  infer_instance

instance : Steady n peekSecond := by
  unfold peekSecond
  infer_instance

theorem tokenAfterGroupFrom_stepwise (c : Cursor) : Stepwise (tokenAfterGroupFrom c) := by
  refine .observe (fun _ _ => rfl) fun s => ?_
  dsimp only
  split
  · exact .pure _
  · exact .outOfFuel

/-- The end of a group is found in time. -/
theorem meets_tokenAfterGroupFrom {c : Cursor} (hc : c.Within s.size) :
    Meets sure (tokenAfterGroupFrom c) s fun _ s' => s' = s := by
  have hsome := GroupScan.run_isSome (s := { groups := [.bracket], stop := c }) hc
    (Nat.lt_add_of_pos_right Nat.two_pos)
  obtain ⟨t, ht⟩ := Option.isSome_iff_exists.mp hsome
  refine .observe ?_
  dsimp only
  rw [ht]
  exact .pure rfl

theorem meets_tokenAfterGroup (hs : s.Ready) :
    Meets sure tokenAfterGroup s fun _ s' => s' = s :=
  .token (meets_tokenAfterGroupFrom hs.stop)

theorem meets_tokenAfterNextGroup (hs : s.Ready) :
    Meets sure tokenAfterNextGroup s fun _ s' => s' = s := by
  have hnext : (Token.next s.lookahead.stop).Within s.size := .next hs.stop
  exact .peek (meets_tokenAfterGroupFrom hnext.stop)

instance : Steady n tokenAfterGroup where
  stepwise := .bind (inferInstance : Steady 0 token).stepwise fun t =>
    tokenAfterGroupFrom_stepwise t.stop
  meets hs _ := (meets_tokenAfterGroup hs).mono (by rintro _ _ rfl; exact .refl hs)

instance : Steady n tokenAfterNextGroup where
  stepwise := .bind (inferInstance : Steady 0 peek).stepwise fun t =>
    tokenAfterGroupFrom_stepwise t.stop
  meets hs _ := (meets_tokenAfterNextGroup hs).mono (by rintro _ _ rfl; exact .refl hs)

/-! ## Expected tokens -/

instance {α : Type} : Steady n (earlyEnd : Reading α) := by
  unfold earlyEnd
  infer_instance

theorem meets_earlyEnd {α : Type} {Wanted : α → State → Prop}
    (hs : s.Ready) :
    Meets sure earlyEnd s Wanted := by
  have hreport : Steady (s.left + 1) (report "E006" s.lookahead.position []) := inferInstance
  exact .token (.then hreport hs (fun _ => Nat.lt_succ_self _) fun _ _ _ _ => .halt)

instance (shown : String) (position : Position) : Steady n (reportUnexpected shown position) := by
  unfold reportUnexpected
  infer_instance

instance (wanted : String) (t : Token) : Steady n (reportInstead wanted t) := by
  unfold reportInstead
  infer_instance

instance (t : Token) : Steady n (reportNoName t) := by
  unfold reportNoName
  infer_instance

instance (name : String) (position : Position) : Steady n (reportReserved name position) := by
  unfold reportReserved
  infer_instance

instance (position : Position) : Steady n (reportExtraComma position) := by
  unfold reportExtraComma
  infer_instance

instance (wanted : String) : Steady n (unexpectedInstead wanted) := by
  unfold unexpectedInstead
  infer_instance

instance (p : String) : Steady n (expectPunctuator p) := by
  unfold expectPunctuator
  infer_instance

/-- A punctuator that is expected is consumed if it comes next. -/
theorem meets_expectPunctuator {p : String} (hs : s.Ready) (hn : sure → s.left < n)
    (hp : s.lookahead.isPunctuator p) :
    Meets sure (expectPunctuator p) s fun _ s' => s.Passes s' := by
  have hconsumes : Consumes n advance := inferInstance
  refine .atPunctuator ?_
  rw [if_pos hp]
  exact hconsumes.meets hs hn

instance (word : String) : Steady n (expectKeyword word) := by
  unfold expectKeyword
  infer_instance

instance (word : String) : Steady n (expectWord word) := by
  unfold expectWord
  infer_instance

/-- A punctuator that is accepted is consumed. -/
instance (p : String) : Advances n (acceptPunctuator p) where
  stepwise := .of_steady (n := 0) (by unfold acceptPunctuator; infer_instance)
  meets {s _} hs hn := by
    refine .atPunctuator ?_
    split
    next hp =>
      have hconsumes : Consumes n (do advance; pure true) := inferInstance
      exact hconsumes.moves (.refl hs) hn (hs.left_pos (Token.isEnd_eq_false_of_isPunctuator hp))
    next => exact .ends (.refl hs)

instance (p : String) : Steady n (acceptPunctuator p) := Advances.steady inferInstance

instance (afterDo : Bool) : Steady n (endStatement afterDo) := by
  unfold endStatement
  infer_instance

instance : Steady n semicolon := by
  unfold semicolon
  infer_instance

/-! ## Names -/

instance : Steady n inGenerator := by
  unfold inGenerator
  infer_instance

instance : Steady n inAsync := by
  unfold inAsync
  infer_instance

instance (name : String) : Steady n (isReserved name) := by
  unfold isReserved
  refine .options (fun _ _ _ => rfl) fun o => ?_
  split <;> infer_instance

instance : Steady n bindingName := by
  unfold bindingName
  infer_instance

/-- The name of a binding is consumed if there is one. -/
theorem meets_bindingName (hs : s.Ready) (hn : sure → s.left < n)
    (hname : s.lookahead.isPropertyName) :
    Meets sure bindingName s fun _ s' => s.Passes s' := by
  let t := s.lookahead
  have hconsumes : Consumes n (do
    if !t.isIdentifier || (← isReserved t.name) then reportReserved t.name t.position
    advance
    pure (some { name := t.name, position := t.position : BoundName })) := inferInstance
  refine .token ?_
  rw [if_pos hname]
  exact hconsumes.meets hs hn

instance (kind : Scope.BindingKind) (names : List BoundName) :
    Steady n (declareAll kind names) := by
  unfold declareAll
  infer_instance

instance (name : String) (position : Position) (access : Scope.Access) :
    Steady n (addReference name position access) := by
  unfold addReference
  infer_instance

/-! ## Lists -/

/-- A list goes on after a comma only. -/
instance {σ : Type} {closer : String} {item : σ → Reading (Round σ σ)}
    {afterComma : σ → Position → Reading Unit} {state : σ} [hitem : ∀ state, Steady n (item state)]
    [hcomma : ∀ state comma, Steady n (afterComma state comma)] :
    Advances n (commaRound closer item afterComma state) where
  stepwise := by
    have hitem' (state : σ) := (hitem state).mono (Nat.zero_le _)
    have hcomma' (state : σ) (comma : Position) := (hcomma state comma).mono (Nat.zero_le _)
    refine .of_steady (n := 0) (.bind inferInstance fun closed => ?_)
    split
    · infer_instance
    · refine .bind inferInstance fun r => ?_
      cases r <;> infer_instance
  meets {s _} hs hn := by
    refine .atPunctuator ?_
    split
    · exact .ends (.refl hs)
    · refine .then (hitem state) hs hn fun r s' h hn' => ?_
      cases r with
      | done state => exact .ends h
      | again state =>
          refine .atPunctuator ?_
          split
          next hat =>
            have hconsumes : Consumes n (do
              let comma := (← token).position
              advance
              afterComma state comma
              pure (.again state : Round σ σ)) := inferInstance
            have hpos := h.ready.left_pos (Token.isEnd_eq_false_of_isPunctuator hat)
            exact hconsumes.moves h hn' (Nat.lt_of_lt_of_le hpos h.left)
          next => exact .ends h

instance {σ : Type} {closer : String} {state : σ} {item : σ → Reading (Round σ σ)}
    {afterComma : σ → Position → Reading Unit} [hitem : ∀ state, Steady n (item state)]
    [hcomma : ∀ state comma, Steady n (afterComma state comma)] :
    Steady n (commaList closer state item afterComma) := .repeatFrom inferInstance

instance {σ : Type} (state : σ) (comma : Position) : Steady n (noTrailingCheck state comma) :=
  .pure ()

instance (target : Expression) (access : Scope.Access) :
    Steady n (assignmentTarget target access) := by
  unfold assignmentTarget
  split <;> infer_instance

end Steady

end ScriptLint.Reading

import ScriptLint.Proofs.Reading.Inside

/-! # Chains of accesses as targets

Behind a name any number of accesses and calls may follow, optional ones among them. Whether what
they lead to can be changed is asked in an assignment, in the head of a loop, in a pattern and in an
update, and the answer depends on nothing but the last of the accesses: a call and an optional access
are reported, a member is not, even where an optional access stands further to the front.
-/

namespace ScriptLint.Reading

variable {α : Type} {s s' s₀ s₁ : State} {fuel n : Nat} {power : Nat}
variable {forms : List OperatorForm} {target : Expression}

/-! ## Chains -/

/-- The operator that comes next and continues an operand. -/
def State.operator? (s : State) (power : Nat) : Option (Symbol × OperatorForm) :=
  operatorAt? power (s.inExcluded && s.lookahead.isKeyword "in") s.lookahead

/-- The operators that access what stands before them or call it. -/
def accessForms : List OperatorForm := [.dot, .index, .call, .optionalChain]

/-- What an access turns out to be. -/
inductive IsAccess : OperatorForm → ExpressionKind → Prop
  | dot (property? : Option String) : IsAccess .dot (.member property?)
  | index : IsAccess .index (.member none)
  | call : IsAccess .call .call
  | optionalChain : IsAccess .optionalChain .optionalChain

/-- Reading an expression at the first state, the loop over its operators gets to the second one,
where `n` more rounds are allowed. What was read of it by then is a name with accesses and calls
behind it, of the given forms. -/
inductive Accesses (self : Productions) (power : Nat) (s₀ : State) :
    List OperatorForm → Nat → Expression → State → Prop
  | name {e : Expression} {s : State} (hdepth : s₀.depth < s₀.options.maxDepth)
      (hname : s₀.lookahead.isIdentifier = true)
      (hrole : nameRole.run.run { s₀ with depth := s₀.depth + 1 } =
        (.ok .plain, { s₀ with depth := s₀.depth + 1 }))
      (hrun : variableName.run.run { s₀ with depth := s₀.depth + 1 } = (.ok e, s)) :
      Accesses self power s₀ [] (s.size - s.lookahead.position.offset + 4) e s
  | access {forms : List OperatorForm} {n : Nat} {e e' : Expression} {s s' : State}
      {symbol : Symbol} {form : OperatorForm} (hin : Accesses self power s₀ forms (n + 1) e s)
      (hnext : s.operator? power = some (symbol, form)) (hform : form ∈ accessForms)
      (hrun : (operation self symbol form e).run.run s = (.ok e', s')) :
      Accesses self power s₀ (forms ++ [form]) n e' s'

namespace IsAccess

variable {form : OperatorForm} {kind : ExpressionKind}

theorem eq_member (h : IsAccess form kind) (hform : form = .dot ∨ form = .index) :
    ∃ property?, kind = .member property? := by
  rcases hform with rfl | rfl <;> cases h <;> exact ⟨_, rfl⟩

theorem eq_of_not_member (h : IsAccess form kind) (hform : form = .call ∨ form = .optionalChain) :
    kind = .call ∨ kind = .optionalChain := by
  rcases hform with rfl | rfl <;> cases h
  · exact .inl rfl
  · exact .inr rfl

end IsAccess

theorem operatorOf_access {self : Productions} {form : OperatorForm} (power : Nat)
    (left : Expression) (s : State) (hform : form ∈ accessForms) :
    Leads (operatorOf self power left form) s fun kind _ => IsAccess form kind := by
  simp only [accessForms, List.mem_cons, List.not_mem_nil, or_false] at hform
  rcases hform with rfl | rfl | rfl | rfl
  · exact .after fun _ _ => .bind fun property? _ _ => .pure (.dot property?)
  · exact .after fun _ _ => .after fun _ _ => .pure .index
  · exact .after fun _ _ => .pure .call
  · exact .after fun _ _ => .pure .optionalChain

/-- What an access turns out to be stands where its left operand does. -/
theorem operation_access {self : Productions} (symbol : Symbol) {form : OperatorForm}
    (left : Expression) (s : State) (hform : form ∈ accessForms) :
    Leads (operation self symbol form left) s fun e _ =>
      IsAccess form e.kind ∧ e.position = left.position := by
  unfold operation
  exact .after fun _ _ => .after fun _ s => .bind fun kind s' hrun =>
    .pure ⟨operatorOf_access _ left s hform kind s' hrun, rfl⟩

namespace Accesses

variable {self : Productions}

/-- The target stands where the name does, and it is what the last access turned out to be. -/
theorem summary (h : Accesses self power s₀ forms n target s) :
    target.position = s₀.lookahead.position ∧
      ∀ form ∈ forms.getLast?, IsAccess form target.kind := by
  induction h with
  | @name e s hdepth hname hrole hrun =>
      have hvariable : Leads variableName { s₀ with depth := s₀.depth + 1 } fun e _ =>
          e.position = s₀.lookahead.position := by
        unfold variableName
        refine .bind ?_
        rintro _ _ ⟨⟩
        refine .after fun reserved s => ?_
        suffices hrest : ∀ s, Leads _ s _ from
          .ite (fun _ => .after fun _ s => hrest s) fun _ => hrest s
        exact fun s => .after fun _ _ => .after fun _ _ => .pure rfl
      exact ⟨hvariable e s hrun, nofun⟩
  | access hin hnext hform hrun ih =>
      obtain ⟨haccess, hposition⟩ := operation_access _ _ _ hform _ _ hrun
      refine ⟨hposition.trans ih.1, fun form hlast => ?_⟩
      rw [List.getLast?_concat, Option.mem_some] at hlast
      exact hlast ▸ haccess

/-! ### Reading on behind a chain -/

/-- The end of an expression. -/
def leave (e : Expression) : Reading Expression := do
  modify fun s => { s with depth := s.depth - 1 }
  pure e

theorem stepwise_leave (e : Expression) : Stepwise (leave e) :=
  .bind (.adjust fun _ h => ⟨h.maxErrors, rfl⟩) fun _ => .pure e

theorem run_readOperand (hname : s.lookahead.isIdentifier = true)
    (hrole : nameRole.run.run s = (.ok .plain, s)) :
    (readOperand self).run.run s = variableName.run.run s := by
  unfold Token.isIdentifier at hname
  split at hname
  next name hlexeme =>
    have hslash : isSlash s.lookahead = false := by
      simp only [isSlash, Token.isPunctuator, hlexeme, Bool.or_self]
    have hrescan : rescanRegexp.run.run s = (.ok (), s) := by
      rw [rescanRegexp, run_bind, run_token]
      dsimp only
      rw [hslash]
      rfl
    have hform : (Symbol.ofToken s.lookahead).operand? = some .identifier := by
      rw [Symbol.ofToken, hlexeme]
    rw [readOperand, run_bind, hrescan]
    dsimp only
    rw [run_bind, run_token]
    dsimp only
    rw [hform]
    dsimp only [operandOf]
    rw [nameExpression, run_bind, hrole]
  · cases hname

theorem run_operator? (power : Nat) (s : State) :
    (nextOperator? power).run.run s = (.ok (s.operator? power), s) := run_nextOperator? power s

/-- The loop goes on with an access. -/
theorem run_operatorRound {e e' : Expression} {symbol : Symbol} {form : OperatorForm}
    (hnext : s.operator? power = some (symbol, form))
    (hrun : (operation self symbol form e).run.run s = (.ok e', s')) :
    (operatorRound self power e).run.run s = (.ok (.again e'), s') := by
  rw [operatorRound, run_bind, run_operator?, hnext]
  dsimp only
  rw [run_bind, hrun]
  rfl

/-- What is left to read of the expression is the rest of the loop. -/
theorem run_eq (h : Accesses self power s₀ forms n target s) :
    (readExpression self power).run.run s₀ =
      (iterate (operatorRound self power) n target >>= leave).run.run s := by
  induction h with
  | @name e s hdepth hname hrole hrun =>
      have hget : (get : Reading State).run.run s = (.ok s, s) := rfl
      rw [readExpression, run_nested hdepth, bind_assoc, run_bind,
        run_readOperand (s := { s₀ with depth := s₀.depth + 1 }) hname hrole, hrun]
      dsimp only
      rw [repeatFrom, bind_assoc, run_bind, hget]
      rfl
  | access hin hnext hform hrun ih =>
      rw [ih, iterate, bind_assoc, run_bind, run_operatorRound hnext hrun]

section

variable [hself : self.Steady 0]

/-- There are as many rounds as the source may need. -/
theorem left_lt (h : Accesses self power s₀ forms n target s) (hs : s₀.Ready) :
    s.Ready ∧ s.left < n := by
  induction h with
  | @name e s hdepth hname hrole hrun =>
      have hsteady : Steady 0 variableName := inferInstance
      have hdeeper : { s₀ with depth := s₀.depth + 1 }.Ready := hs
      exact ⟨(hsteady.leads hdeeper _ s hrun).ready, Nat.lt_add_of_pos_right (by decide)⟩
  | @access forms n e e' s s' symbol form hin hnext hform hrun ih =>
      have hadvances : Advances 0 (operatorRound self power e) := inferInstance
      have hmoves := hadvances.leads ih.1 _ s' (run_operatorRound hnext hrun)
      have hlt := hmoves.left_lt rfl
      have hleft := ih.2
      exact ⟨hmoves.reaches.ready, by omega⟩

/-- The analysis has not ended on the way. -/
theorem records (h : Accesses self power s₀ forms n target s)
    (hs : s₀.session.sink.Records none) : s.session.sink.Records none := by
  induction h with
  | @name e s hdepth hname hrole hrun =>
      have hstepwise : Stepwise variableName := .of_steady (n := 0) inferInstance
      exact hstepwise.leads_records (s := { s₀ with depth := s₀.depth + 1 }) hs _ s hrun
  | @access forms n e e' s s' symbol form hin hnext hform hrun ih =>
      have hadvances : Advances 0 (operatorRound self power e) := inferInstance
      exact hadvances.stepwise.leads_records ih _ s' (run_operatorRound hnext hrun)

/-- Where no operator continues the chain, it is the whole expression. -/
theorem run_end (h : Accesses self power s₀ forms n target s) (hs : s₀.Ready)
    (hends : s.operator? power = none) :
    (readExpression self power).run.run s₀ = (.ok target, { s with depth := s.depth - 1 }) := by
  have hround : (operatorRound self power target).run.run s = (.ok (.done target), s) := by
    rw [operatorRound, run_bind, run_operator?, hends]
    rfl
  obtain ⟨rounds, rfl⟩ := Nat.exists_eq_succ_of_ne_zero
    (Nat.ne_of_gt (Nat.zero_lt_of_lt (h.left_lt hs).2))
  rw [h.run_eq, iterate, bind_assoc, run_bind, hround]
  rfl

/-- Where another operator comes, reading the expression gets to what is read of it. -/
theorem getsTo {β : Type} {inner : Reading β} {symbol : Symbol} {form : OperatorForm}
    (h : Accesses self power s₀ forms n target s) (hs : s₀.Ready)
    (hnext : s.operator? power = some (symbol, form))
    (hgets : GetsTo (operation self symbol form target) s inner s') :
    GetsTo (readExpression self power) s₀ inner s' := by
  obtain ⟨rounds, rfl⟩ := Nat.exists_eq_succ_of_ne_zero
    (Nat.ne_of_gt (Nat.zero_lt_of_lt (h.left_lt hs).2))
  have hround : GetsTo (operatorRound self power target) s inner s' := by
    unfold operatorRound
    refine .bind (hnext ▸ run_operator? power s) ?_
    exact hgets.first fun _ => .pure _
  refine .of_run_eq ?_ h.run_eq
  refine .first ?_ stepwise_leave
  rw [iterate]
  refine hround.first fun round => ?_
  have hrounds (e : Expression) : Stepwise (operatorRound self power e) :=
    (inferInstance : Advances 0 (operatorRound self power e)).stepwise
  cases round with
  | again e => exact .iterate hrounds rounds e
  | done answer => exact .pure answer

end

end Accesses

/-! ## Changes -/

/-- What may be done to a target. -/
inductive Change where
  /-- It is assigned, by an operator or as a part of a pattern. -/
  | assigned (access : Scope.Access)
  /-- A loop assigns its keys or values to it. -/
  | iterated
  /-- It is counted up or down. -/
  | updated
deriving Repr, DecidableEq

namespace Change

/-- The check that goes with it. -/
def check (target : Expression) : Change → Reading Unit
  | .assigned access => assignmentTarget target access
  | .iterated => loopTarget target
  | .updated => updateOperand target

/-- How a target is reported that does not admit it. -/
def code : Change → String
  | .assigned _ | .iterated => "E031"
  | .updated => "W017"

theorem isRegular_code (change : Change) : Halt.IsRegular change.code := by
  cases change with
  | assigned | iterated => exact (by decide : Halt.IsRegular "E031")
  | updated => exact (by decide : Halt.IsRegular "W017")

/-- A member is passed over. -/
theorem check_member (change : Change) {property? : Option String}
    (hkind : target.kind = .member property?) : change.check target = pure () := by
  cases change <;> simp only [check, assignmentTarget, loopTarget, updateOperand, hkind]

/-- A call and an optional access are reported. -/
theorem check_eq_report (change : Change)
    (hkind : target.kind = .call ∨ target.kind = .optionalChain) :
    change.check target = report change.code target.position [] change.isRegular_code := by
  rcases hkind with hkind | hkind <;> cases change <;>
    simp only [check, assignmentTarget, loopTarget, updateOperand, hkind, code]

end Change

/-- An assignment up to its target. The answer tells what is done to it. -/
def assignmentHead (symbol : Symbol) : Reading Scope.Access := do
  let position := (← token).position
  symbol.since?.forM fun since => requireEdition (operatorFeature symbol.id) since position
  let access : Scope.Access := if ← atPunctuator "=" then .write else .readWrite
  advance
  pure access

/-- An update behind its operand, up to that. -/
def updateHead (symbol : Symbol) : Reading Unit := do
  let position := (← token).position
  symbol.since?.forM fun since => requireEdition (operatorFeature symbol.id) since position

/-- A `for` loop up to the first part of its head. -/
def forOpening : Reading Position := do
  let position := (← token).position
  advance
  let t ← token
  if t.isName "await" && (← inAsync) then
    requireEdition "asynchronous iteration" .es2018 t.position
    advance
  expectPunctuator "("
  track (·.enterScope .block position)
  pure position

/-- From the first state on, a construct is read that changes what a chain leads to. The chain
begins at the second state, and at the third one the target is checked. -/
inductive Changing (fuel : Nat) (forms : List OperatorForm) (target : Expression) :
    {α : Type} → Reading α → Change → State → State → State → Prop
  | assignment {power n : Nat} {symbol : Symbol} {access : Scope.Access} {s₀ s₁ s' : State}
      (hin : Accesses (productions fuel) power s₀ forms n target s₁)
      (hnext : s₁.operator? power = some (symbol, .assign))
      (hhead : (assignmentHead symbol).run.run s₁ = (.ok access, s')) :
      Changing fuel forms target (readExpression (productions fuel) power) (.assigned access)
        s₀ s₀ s'
  | postfixUpdate {power n : Nat} {symbol : Symbol} {s₀ s₁ s' : State}
      (hin : Accesses (productions fuel) power s₀ forms n target s₁)
      (hnext : s₁.operator? power = some (symbol, .update))
      (hhead : (updateHead symbol).run.run s₁ = (.ok (), s')) :
      Changing fuel forms target (readExpression (productions fuel) power) .updated s₀ s₀ s'
  | prefixUpdate {n : Nat} {s s₀ s₁ : State} (hadvance : advance.run.run s = (.ok (), s₀))
      (hin : Accesses (productions fuel) Symbol.unaryPower s₀ forms n target s₁)
      (hends : s₁.operator? Symbol.unaryPower = none) :
      Changing fuel forms target (updateExpression (productions (fuel + 1))) .updated s s₀
        { s₁ with depth := s₁.depth - 1 }
  | patternElement {n : Nat} {s₀ s₁ : State}
      (hin : Accesses (productions fuel) Symbol.assignPower s₀ forms n target s₁)
      (hends : s₁.operator? Symbol.assignPower = none) :
      Changing fuel forms target (assignmentElement (productions (fuel + 1))) (.assigned .write)
        s₀ s₀ { s₁ with depth := s₁.depth - 1 }
  | loop {n : Nat} {position : Position} {iteration : Iteration} {s s₀ s₁ : State}
      (hopening : forOpening.run.run s = (.ok position, s₀))
      (hplain : declarationKind?.run.run s₀ = (.ok none, s₀))
      (hin : Accesses (productions fuel) 0 { s₀ with inExcluded := true } forms n target s₁)
      (hends : s₁.operator? 0 = none)
      (hiteration : iteration?.run.run { s₁ with depth := s₁.depth - 1, inExcluded := false } =
        (.ok (some iteration), { s₁ with depth := s₁.depth - 1, inExcluded := false })) :
      Changing fuel forms target (forStatement (productions (fuel + 1))) .iterated s s₀
        { s₁ with depth := s₁.depth - 1, inExcluded := false }

section

variable {self : Productions}

theorem operation_assign (symbol : Symbol) (left : Expression) :
    operation self symbol .assign left = assignmentHead symbol >>= fun access =>
      assignmentTarget left access >>= fun _ =>
        self.expression (Symbol.assignPower - 1) >>= fun _ =>
          pure { kind := .assignment left.plainName?, position := left.position } := by
  unfold operation operatorOf assignmentOperation assignmentHead
  simp only [bind_assoc, pure_bind]

theorem operation_update (symbol : Symbol) (left : Expression) :
    operation self symbol .update left = updateHead symbol >>= fun _ =>
      updateOperand left >>= fun _ => advance >>= fun _ =>
        pure { kind := .update, position := left.position } := by
  unfold operation operatorOf updateHead
  simp only [bind_assoc, pure_bind]

theorem forStatement_opening : forStatement self =
    forOpening >>= fun position => loopHead self >>= fun head =>
      forRest self position head >>= fun _ => inScopes Scope.Action.exitScope >>= fun _ =>
        pure { kind := .loop } := by
  unfold forStatement forOpening
  simp only [bind_assoc, pure_bind, ite_bind]

theorem isPunctuator_of_isIdentifier {t : Token} (hname : t.isIdentifier = true) (p : String) :
    t.isPunctuator p = false := by
  unfold Token.isIdentifier at hname
  split at hname
  next name hlexeme => simp only [Token.isPunctuator, hlexeme]
  · cases hname

theorem run_atPunctuator_of_isIdentifier (hname : s.lookahead.isIdentifier = true) (p : String) :
    (atPunctuator p).run.run s = (.ok false, s) := by
  rw [atPunctuator, run_bind, run_token]
  dsimp only
  rw [isPunctuator_of_isIdentifier hname]
  rfl

/-- Where a name begins the first part of a head that declares nothing, that part is an
expression. -/
theorem run_loopHead {e : Expression} (hname : s₀.lookahead.isIdentifier = true)
    (hplain : declarationKind?.run.run s₀ = (.ok none, s₀))
    (hrun : self.anyExpression.run.run { s₀ with inExcluded := true } = (.ok e, s₁)) :
    (loopHead self).run.run s₀ = (.ok (.expression e), { s₁ with inExcluded := false }) := by
  have hpunctuator := isPunctuator_of_isIdentifier hname
  have hsemicolon := run_atPunctuator_of_isIdentifier hname ";"
  have hpattern : atLoopPattern.run.run s₀ = (.ok false, s₀) := by
    rw [atLoopPattern, run_bind, run_token]
    dsimp only
    rw [hpunctuator, hpunctuator]
    rfl
  have hexcluding : (excludingIn self.anyExpression).run.run s₀ =
      (.ok e, { s₁ with inExcluded := false }) := by
    have hset : (setInExcluded true).run.run s₀ = (.ok (), { s₀ with inExcluded := true }) := rfl
    rw [excludingIn, run_bind, hset]
    dsimp only
    rw [run_bind, hrun]
    rfl
  rw [loopHead, run_bind, hsemicolon]
  dsimp only
  rw [if_neg Bool.false_ne_true, run_bind, hplain]
  dsimp only
  rw [run_bind, hpattern]
  dsimp only
  rw [if_neg Bool.false_ne_true, run_bind, hexcluding]
  rfl

/-- Where a name begins an element of a pattern, it is an expression and no pattern of its own. -/
theorem assignmentElement_getsTo [self.Steady 0] {e : Expression}
    (hname : s₀.lookahead.isIdentifier = true)
    (hrun : (self.expression Symbol.assignPower).run.run s₀ = (.ok e, s₁)) :
    GetsTo (assignmentElement self) s₀ (assignmentTarget e .write) s₁ := by
  have hat := run_atPunctuator_of_isIdentifier hname
  have hplain : (pure false : Reading Bool).run.run s₀ = (.ok false, s₀) := rfl
  have hwhole : assignmentElement self = (do
      let opens := (← atPunctuator "[") || (← atPunctuator "\x7b")
      let isPattern ← if opens then
          pure (["=", ",", "]", "\x7d"].contains (← tokenAfterGroup).raw)
        else pure false
      if isPattern then self.assignmentPattern
      else
        let target ← self.expression Symbol.assignPower
        assignmentTarget target .write) >>= fun _ => patternDefault self := by
    unfold assignmentElement
    simp only [bind_assoc, ite_bind]
  rw [hwhole]
  refine .first (.bind (hat "[") (.bind (hat "\x7b") ?_)) fun _ => .of_steady (n := 0) inferInstance
  refine .ite_not Bool.false_ne_true ?_
  refine .bind hplain (.ite_not Bool.false_ne_true (.bind hrun ?_))
  exact ⟨pure, .pure, by rw [bind_pure]⟩

end

namespace Accesses

/-- A chain begins with a name. -/
theorem begins {self : Productions} (h : Accesses self power s₀ forms n target s) :
    s₀.lookahead.isIdentifier = true := by
  induction h with
  | name _ hname => exact hname
  | access _ _ _ _ ih => exact ih

/-- Where no operator continues the chain, the productions one level up read it as a whole. -/
theorem expression_eq (h : Accesses (productions fuel) power s₀ forms n target s) (hs : s₀.Ready)
    (hends : s.operator? power = none) :
    ((productions (fuel + 1)).expression power).run.run s₀ =
      (.ok target, { s with depth := s.depth - 1 }) := by
  have := productions_stepwise fuel
  rw [productions_expression]
  exact h.run_end hs hends

end Accesses

namespace Changing

variable {step : Reading α} {change : Change}

/-- The chain begins at a state that is ready, too, and the target is checked while the sink is
open. -/
theorem reached (h : Changing fuel forms target step change s s₀ s') (hs : s.Ready)
    (hrecords : s.session.sink.Records none) :
    s'.session.sink.Records none ∧ GetsTo step s (change.check target) s' ∧
      target.position = s₀.lookahead.position ∧
        ∀ form ∈ forms.getLast?, IsAccess form target.kind := by
  have := productions_stepwise fuel
  have := productions_stepwise (fuel + 1)
  cases h with
  | @assignment _ _ symbol access _ s₁ _ hin hnext hhead =>
      have hstepwise : Stepwise (assignmentHead symbol) := by
        unfold assignmentHead
        exact .of_steady (n := 0) inferInstance
      refine ⟨hstepwise.leads_records (hin.records hrecords) _ _ hhead, hin.getsTo hs hnext ?_,
        hin.summary⟩
      rw [operation_assign]
      refine .bind hhead (.here fun _ => .of_steady (n := 0) ?_)
      exact .bind inferInstance fun _ => .pure _
  | @postfixUpdate _ _ symbol _ s₁ _ hin hnext hhead =>
      have hstepwise : Stepwise (updateHead symbol) := by
        unfold updateHead
        exact .of_steady (n := 0) inferInstance
      refine ⟨hstepwise.leads_records (hin.records hrecords) _ _ hhead, hin.getsTo hs hnext ?_,
        hin.summary⟩
      rw [operation_update]
      exact .bind hhead (.here fun _ => .of_steady (n := 0) inferInstance)
  | prefixUpdate hadvance hin hends =>
      have hsteady : Steady 0 advance := inferInstance
      have hrecords' := hin.records (hsteady.stepwise.leads_records hrecords _ _ hadvance)
      refine ⟨hrecords', ?_, hin.summary⟩
      unfold updateExpression
      refine .bind (run_token s) (.bind hadvance ?_)
      refine .bind (hin.expression_eq (hsteady.leads hs _ _ hadvance).ready hends) ?_
      exact .here fun _ => .pure _
  | patternElement hin hends =>
      refine ⟨hin.records hrecords, ?_, hin.summary⟩
      exact assignmentElement_getsTo hin.begins (hin.expression_eq hs hends)
  | loop hopening hplain hin hends hiteration =>
      have hsteady : Steady 0 forOpening := by
        unfold forOpening
        infer_instance
      have hrecords' : s₀.session.sink.Records none :=
        hsteady.stepwise.leads_records hrecords _ _ hopening
      refine ⟨hin.records hrecords', ?_, hin.summary⟩
      have hready' : s₀.Ready := (hsteady.leads hs _ _ hopening).ready
      rw [forStatement_opening]
      refine .bind hopening (.bind (run_loopHead hin.begins hplain
        (hin.expression_eq hready' hends)) ?_)
      refine .first ?_ fun _ => .of_steady (n := 0) inferInstance
      unfold forRest
      refine .bind hiteration ?_
      exact .here fun _ => .of_steady (n := 0) inferInstance

end Changing

/-- A construct that changes what a chain leads to comes to the check of its target, and what that
says is up to the last access of the chain. A call and an optional access are reported where the
chain begins, unless the code is switched off on that line. Of a member nothing is said, and what
stands between it and the name makes no difference. -/
theorem target_judged_by_last {step : Reading α} {change : Change} {form : OperatorForm}
    (hchanging : Changing fuel forms target step change s s₀ s') (hs : s.Ready)
    (hrecords : s.session.sink.Records none) (hlast : form ∈ forms.getLast?) :
    GetsTo step s (change.check target) s' ∧
      (form = .call ∨ form = .optionalChain →
        s'.session.sink.suppresses change.code s₀.lookahead.position.line = false →
        (step.run.run s).2.session.sink.Tells change.code s₀.lookahead.position.place) ∧
      (form = .dot ∨ form = .index → (change.check target).run.run s' = (.ok (), s')) := by
  obtain ⟨hopen, hgets, hposition, haccess⟩ := hchanging.reached hs hrecords
  refine ⟨hgets, fun hform hshown => hgets.tells ?_, fun hform => ?_⟩
  · rw [change.check_eq_report ((haccess form hlast).eq_of_not_member hform), ← hposition]
    exact report_tells hopen.isHalted_eq_false (hposition ▸ hshown) _
  · obtain ⟨property?, hkind⟩ := (haccess form hlast).eq_member hform
    rw [change.check_member hkind]
    rfl

/-- To see what a name begins is to look at what comes. -/
theorem run_nameRole_eq {role : NameRole} (hs : s.Ready)
    (hrole : (nameRole.run.run s).1 = .ok role) : nameRole.run.run s = (.ok role, s) := by
  have hmeets : Meets False nameRole s fun _ s' => s' = s := Steady.meets_nameRole hs
  have houtcome := hmeets.outcome
  rcases hrun : nameRole.run.run s with ⟨_ | role', s'⟩ <;> rw [hrun] at hrole houtcome
  · cases hrole
  · cases hrole
    rw [houtcome]

/-- An assignment to a chain with an optional access at its end and another one in front. -/
theorem judged_by_last_assignment :
    let s₀ := Analysis.startState "a?.b.c?.d=0" { edition := .es2020 } {}
    let self := productions 9
    let target (kind : ExpressionKind) : Expression := { kind, position := s₀.lookahead.position }
    let access (s : State) (form : OperatorForm) (kind : ExpressionKind) : State :=
      s.after (operation self (.ofToken s.lookahead) form (target kind))
    let s₁ := State.after { s₀ with depth := s₀.depth + 1 } variableName
    let s₂ := access s₁ .optionalChain (.identifier "a" 0)
    let s₃ := access s₂ .dot .optionalChain
    let s₄ := access s₃ .optionalChain (.member (some "c"))
    let s := s₄.after (assignmentHead (.ofToken s₄.lookahead))
    Changing 9 [.optionalChain, .dot, .optionalChain] (target .optionalChain)
      (readExpression self 0) (.assigned .write) s₀ s₀ s ∧
      s₀.lookahead.position.place = (1, 1) ∧
      ((readExpression self 0).run.run s₀).2.session.sink.Tells "E031"
        s₀.lookahead.position.place := by
  intro s₀ self target access s₁ s₂ s₃ s₄ s
  have hready : s₀.Ready := Analysis.ready_startState _ _ _
  have hplain : (nameRole.run.run { s₀ with depth := s₀.depth + 1 }).1 = .ok .plain := by
    decide +kernel
  have hvariable : (variableName.run.run { s₀ with depth := s₀.depth + 1 }).1 =
      .ok (target (.identifier "a" 0)) := by decide +kernel
  have hname : Accesses self 0 s₀ [] _ (target (.identifier "a" 0)) s₁ :=
    .name (by decide +kernel) (by decide +kernel)
      (run_nameRole_eq (s := { s₀ with depth := s₀.depth + 1 }) hready hplain)
      (State.run_eq_after hvariable)
  have haccess {forms : List OperatorForm} {n : Nat} {s : State} {kind : ExpressionKind}
      (form : OperatorForm) (kind' : ExpressionKind)
      (hin : Accesses self 0 s₀ forms (n + 1) (target kind) s)
      (hnext : s.operator? 0 = some (.ofToken s.lookahead, form)) (hform : form ∈ accessForms)
      (hrun : ((operation self (.ofToken s.lookahead) form (target kind)).run.run s).1 =
        .ok (target kind')) :
      Accesses self 0 s₀ (forms ++ [form]) n (target kind') (access s form kind) :=
    .access hin hnext hform (State.run_eq_after hrun)
  have hfirst := haccess .optionalChain .optionalChain hname (by decide +kernel) (by decide)
    (by decide +kernel)
  have hsecond := haccess .dot (.member (some "c")) hfirst (by decide +kernel) (by decide)
    (by decide +kernel)
  have hthird := haccess .optionalChain .optionalChain hsecond (by decide +kernel) (by decide)
    (by decide +kernel)
  have hchanging : Changing 9 [.optionalChain, .dot, .optionalChain] (target .optionalChain)
      (readExpression self 0) (.assigned .write) s₀ s₀ s :=
    .assignment hthird (by decide +kernel) (State.run_eq_after (by decide +kernel))
  exact ⟨hchanging, by decide +kernel, (target_judged_by_last hchanging hready (.start _ _ _)
    rfl).2.1 (.inr rfl) (by decide +kernel)⟩

/-- The same chain without its end is passed over. -/
example :
    let codes (source : String) :=
      (Analysis.ofSource source { edition := .es2020 } {}).diagnostics.map (·.code)
    codes "a?.b.c?.d=0;" = ["E031"] ∧ codes "a?.b.c=0;" = [] ∧ codes "a?.b++;" = ["W017"] ∧
      codes "a?.b[0]++;" = [] := by
  decide +kernel

end ScriptLint.Reading

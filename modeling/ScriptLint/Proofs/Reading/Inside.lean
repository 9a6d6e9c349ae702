import ScriptLint.Proofs.Invariant.Enclosure
import ScriptLint.Proofs.Reading.FallThrough
import ScriptLint.Proofs.Reading.Opening

/-! # Statements inside of statements

The way from the beginning of a statement to a statement that is read as a part of it leads through
a head, and in a list past the statements in front. What is read on the way closes what it opens;
only the scope, the loop, the `switch` or the label around the part stays open. So in the same
function the labels around the part are those around the whole, and those that stand between the
two.
-/

set_option synthInstance.maxSize 4096

namespace ScriptLint.Reading

open Scope (Enclosure Label)

variable {α β γ σ : Type} {s s' s'' : State}

/-! ## Getting to a part -/

/-- The step gets from one state to another one, where it takes the inner step. -/
def GetsTo (step : Reading α) (s : State) (inner : Reading β) (s' : State) : Prop :=
  ∃ next : β → Reading α, (∀ b, Stepwise (next b)) ∧ step.run.run s = (inner >>= next).run.run s'

namespace GetsTo

variable {step : Reading α} {inner : Reading β} {innermost : Reading γ}

theorem here {next : β → Reading α} (hnext : ∀ b, Stepwise (next b)) :
    GetsTo (inner >>= next) s inner s := ⟨next, hnext, rfl⟩

theorem of_run_eq {step' : Reading α} (h : GetsTo step' s' inner s'')
    (hrun : step.run.run s = step'.run.run s') : GetsTo step s inner s'' := by
  obtain ⟨next, hnext, hrun'⟩ := h
  exact ⟨next, hnext, hrun.trans hrun'⟩

theorem bind {first : Reading γ} {next : γ → Reading α} {a : γ}
    (hrun : first.run.run s = (.ok a, s')) (h : GetsTo (next a) s' inner s'') :
    GetsTo (first >>= next) s inner s'' := h.of_run_eq (by rw [run_bind, hrun])

theorem first {first : Reading γ} {next : γ → Reading α} (h : GetsTo first s inner s')
    (hnext : ∀ a, Stepwise (next a)) : GetsTo (first >>= next) s inner s' := by
  obtain ⟨rest, hrest, hrun⟩ := h
  refine ⟨fun b => rest b >>= next, fun b => .bind (hrest b) hnext, ?_⟩
  rw [← bind_assoc, run_bind, hrun, run_bind (inner >>= rest)]

theorem trans (h : GetsTo step s inner s') (h' : GetsTo inner s' innermost s'') :
    GetsTo step s innermost s'' := by
  obtain ⟨next, hnext, hrun⟩ := h
  exact (h'.first hnext).of_run_eq hrun

theorem ite {c : Prop} [Decidable c] (hc : c) {other : Reading α} (h : GetsTo step s inner s') :
    GetsTo (if c then step else other) s inner s' := by rwa [if_pos hc]

theorem ite_not {c : Prop} [Decidable c] (hc : ¬ c) {other : Reading α}
    (h : GetsTo step s inner s') : GetsTo (if c then other else step) s inner s' := by
  rwa [if_neg hc]

/-- What is told in the part is told of the whole. -/
theorem tells (h : GetsTo step s inner s') {code : String} {place : Nat × Nat}
    (htells : (inner.run.run s').2.session.sink.Tells code place) :
    (step.run.run s).2.session.sink.Tells code place := by
  obtain ⟨next, hnext, hrun⟩ := h
  rw [hrun]
  exact tells_bind htells hnext

end GetsTo

theorem GetsTo.nested {step : Reading α} {inner : Reading β} (hdepth : s.depth < s.options.maxDepth)
    (h : GetsTo step { s with depth := s.depth + 1 } inner s') :
    GetsTo (nested step) s inner s' := by
  refine (h.first fun a => ?_).of_run_eq (run_nested hdepth)
  exact .bind (.adjust fun _ h => ⟨h.maxErrors, rfl⟩) fun _ => .pure a

/-- The loop gets from one state to another one, where fewer rounds are allowed. -/
inductive Rounds (round : σ → Reading (Round σ α)) : Nat → σ → State → Nat → σ → State → Prop
  | refl (n : Nat) (a : σ) (s : State) : Rounds round n a s n a s
  | again {n m : Nat} {a b c : σ} {s s' s'' : State} (h : Rounds round n a s (m + 1) b s')
    (hrun : (round b).run.run s' = (.ok (.again c), s'')) : Rounds round n a s m c s''

namespace Rounds

variable {round : σ → Reading (Round σ α)} {n m : Nat} {a b : σ}

theorem run_eq (h : Rounds round n a s m b s') :
    (iterate round n a).run.run s = (iterate round m b).run.run s' := by
  induction h with
  | refl => rfl
  | again h hrun ih => rw [ih, iterate, run_bind, hrun]

theorem keepsLabels [hround : ∀ a, KeepsLabels (round a)] (h : Rounds round n a s m b s')
    (hs : s.Settled) : s'.Settled ∧ s'.labels = s.labels := by
  induction h with
  | refl => exact ⟨hs, rfl⟩
  | again h hrun ih =>
      obtain ⟨hs', hlabels⟩ := ih hs
      exact ((hround _).leads hs' _ _ hrun).imp_right (·.trans hlabels)

theorem getsTo_repeatFrom {inner : Reading β} (h : Rounds round
      (s.size - s.lookahead.position.offset + 4) a s (m + 1) b s')
    (hround : GetsTo (round b) s' inner s'') (hstepwise : ∀ a, Stepwise (round a)) :
    GetsTo (repeatFrom a round) s inner s'' := by
  refine .bind (a := s) rfl (.of_run_eq ?_ h.run_eq)
  rw [iterate]
  refine hround.first fun r => ?_
  cases r with
  | again a => exact .iterate hstepwise m a
  | done answer => exact .pure answer

end Rounds

/-! ## Heads -/

section Heads

variable (self : Productions)

/-- A `while` loop up to its body. -/
def whileHead : Reading Unit := do
  advance
  condition self
  track (·.enterLoop)

/-- A `do` loop up to its body. -/
def doHead : Reading Unit := do
  advance
  track (·.enterLoop)

theorem isRegular_strictWith : Halt.IsRegular "E010" := by decide

theorem isRegular_with : Halt.IsRegular "W085" := by decide

/-- A `with` statement up to its body. -/
def withHead : Reading Unit := do
  let position := (← token).position
  if ← isStrict then report "E010" position [] isRegular_strictWith
  else if !(← options).withstmt then report "W085" position [] isRegular_with
  advance
  let _ ← subject self

/-- A `catch` clause up to its first statement. -/
def catchHead : Reading Unit := do
  let position := (← token).position
  advance
  track (·.enterScope .catchClause position)
  if ← acceptPunctuator "(" then
    let target ← self.bindingTarget
    declareAll .exception target.names
    expectPunctuator ")"
  else requireEdition "optional catch binding" .es2019 position
  expectPunctuator "\x7b"

/-- The rest of the head of a loop over something, from `in` or `of` on. -/
def iterationHead (iteration : Iteration) (position : Position) : Reading Unit := do
  advance
  match iteration with
  | .values =>
    requireEdition "for of" .es2015 position
    let _ ← self.element
  | .keys =>
    let _ ← self.anyExpression
  expectPunctuator ")"
  track (·.enterLoop)

/-- The rest of the head of a loop with a condition and a step. -/
def countedHead : Reading Unit := do
  expectPunctuator ";"
  if !(← atPunctuator ";") then
    let e ← self.anyExpression
    checkCondition e
  expectPunctuator ";"
  if !(← atPunctuator ")") then
    let _ ← self.anyExpression
  expectPunctuator ")"
  track (·.enterLoop)

/-- The head of a `for` loop after its first part. The answer tells what the loop runs over, with
its position. -/
def forRestHead (position : Position) (head : LoopHead) :
    Reading (Option (Iteration × Position)) := do
  match head, ← iteration? with
  | .declarations kind ds, some iteration =>
    checkLoopDeclarations kind ds iteration position
    iterationHead self iteration position
    pure (some (iteration, position))
  | .expression target, some iteration =>
    loopTarget target
    iterationHead self iteration position
    pure (some (iteration, position))
  | .declarations .constName ds, none =>
    if !ds.initialized then reportUninitialized ((ds.names.head?.map (·.name)).getD "") position
    countedHead self
    pure none
  | _, _ =>
    countedHead self
    pure none

/-- A `for` loop up to its body. -/
def forHead : Reading (Option (Iteration × Position)) := do
  let position := (← token).position
  advance
  let t ← token
  if t.isName "await" && (← inAsync) then
    requireEdition "asynchronous iteration" .es2018 t.position
    advance
  expectPunctuator "("
  track (·.enterScope .block position)
  let head ← loopHead self
  forRestHead self position head

theorem isRegular_unfiltered : Halt.IsRegular "W089" := by decide

/-- What a `for` loop does behind its body. -/
def forEnd (over? : Option (Iteration × Position)) (body : Statement) : Reading Unit := do
  track (·.exitLoop)
  match over? with
  | some (iteration, position) =>
    let filters := body.filtered || body.kind = .conditional
    if iteration = .keys && (← options).forin && !filters then
      report "W089" position [] isRegular_unfiltered
  | none => pure ()

/-- A `try` statement behind its `catch` clause, if it has one. -/
def tryEnd (caught : Bool) : Reading Statement := do
  if ← atKeyword "finally" then
    advance
    let _ ← block self
  else if !caught then reportInstead "catch" (← token)
  pure { kind := .other }

variable {self}

theorem whileStatement_eq : whileStatement self =
    whileHead self >>= fun _ => self.statement false >>= fun _ => track (·.exitLoop) >>= fun _ =>
      pure { kind := .loop } := by
  unfold whileStatement whileHead loopBody
  simp only [bind_assoc, pure_bind]

theorem doStatement_eq : doStatement self =
    doHead >>= fun _ => self.statement false >>= fun _ => track (·.exitLoop) >>= fun _ =>
      expectKeyword "while" >>= fun _ => condition self >>= fun _ => endStatement true >>= fun _ =>
        pure { kind := .loop } := by
  unfold doStatement doHead loopBody
  simp only [bind_assoc, pure_bind]

theorem withStatement_eq : withStatement self =
    withHead self >>= fun _ => self.statement false >>= fun _ => pure { kind := .other } := by
  unfold withStatement withHead
  simp only [bind_assoc, pure_bind, ite_bind]

theorem catchClause_eq : catchClause self =
    catchHead self >>= fun _ => statementList self false >>= fun _ =>
      inScopes Scope.Action.exitScope >>= fun _ => expectPunctuator "\x7d" := by
  unfold catchClause catchHead
  simp only [bind_assoc, ite_bind]

theorem iterationRest_eq (iteration : Iteration) (position : Position) :
    iterationRest self iteration position = iterationHead self iteration position >>= fun _ =>
      self.statement false >>= fun body => forEnd (some (iteration, position)) body := by
  unfold iterationRest iterationHead loopBody forEnd
  cases iteration <;> simp only [bind_assoc, pure_bind]

theorem countedRest_eq : countedRest self = countedHead self >>= fun _ =>
    self.statement false >>= fun body => forEnd none body := by
  unfold countedRest countedHead loopBody forEnd
  simp only [bind_assoc, pure_bind, ite_bind]

theorem forRest_eq (position : Position) (head : LoopHead) : forRest self position head =
    forRestHead self position head >>= fun over? => self.statement false >>= fun body =>
      forEnd over? body := by
  unfold forRest forRestHead
  rw [bind_assoc]
  refine bind_congr fun over? => ?_
  split <;> simp only [iterationRest_eq, countedRest_eq, bind_assoc, pure_bind, ite_bind]

theorem forStatement_eq : forStatement self =
    forHead self >>= fun over? => self.statement false >>= fun body =>
      forEnd over? body >>= fun _ => inScopes Scope.Action.exitScope >>= fun _ =>
        pure { kind := .loop } := by
  unfold forStatement forHead
  simp only [forRest_eq, bind_assoc, ite_bind]

theorem tryStatement_eq : tryStatement self =
    advance >>= fun _ => block self >>= fun _ => atKeyword "catch" >>= fun caught =>
      (if caught then catchClause self else pure ()) >>= fun _ => tryEnd self caught := by
  unfold tryStatement
  refine bind_congr fun _ => bind_congr fun _ => bind_congr fun caught => ?_
  have hend : (do
      let finished ← atKeyword "finally"
      if finished then
        advance
        let _ ← block self
      if !caught && !finished then reportInstead "catch" (← token)
      pure { kind := .other }) = tryEnd self caught := by
    refine bind_congr fun finished => ?_
    cases caught <;> cases finished <;> rfl
  cases caught with
  | false => exact hend
  | true => exact bind_congr fun _ => hend

instance (over? : Option (Iteration × Position)) (body : Statement) :
    Steady 0 (forEnd over? body) := by
  unfold forEnd
  refine .bind inferInstance fun _ => ?_
  split <;> infer_instance

instance [self.Steady 0] (caught : Bool) : Steady 0 (tryEnd self caught) := by
  unfold tryEnd
  infer_instance

end Heads

/-! ## Labels on the way -/

section Labels

variable (self : Productions) [hsteady : self.Steady 0]
  [hself : ∀ es, self.Upholds (Enclosed es)]

instance (position : Position) : KeepsLabels (blockHead position) := by
  unfold blockHead
  infer_instance

instance : KeepsLabels (ifHead self) := by
  unfold ifHead
  infer_instance

instance : KeepsLabels (whileHead self) := by
  unfold whileHead
  infer_instance

instance : KeepsLabels doHead := by
  unfold doHead
  infer_instance

instance : KeepsLabels (withHead self) := by
  unfold withHead
  infer_instance

instance : KeepsLabels (catchHead self) := by
  unfold catchHead
  infer_instance

instance : KeepsLabels (switchHead self) := by
  unfold switchHead
  infer_instance

instance (iteration : Iteration) (position : Position) :
    KeepsLabels (iterationHead self iteration position) := by
  unfold iterationHead
  cases iteration <;> infer_instance

instance : KeepsLabels (countedHead self) := by
  unfold countedHead
  infer_instance

instance (position : Position) (head : LoopHead) :
    KeepsLabels (forRestHead self position head) := by
  unfold forRestHead
  refine .bind inferInstance fun over? => ?_
  split <;> infer_instance

instance : KeepsLabels (forHead self) := by
  unfold forHead
  infer_instance

instance (scan : ListScan) : KeepsLabels (listRound self false scan) := by
  have hsteady : Steady 0 (listRound self false scan) := Advances.steady inferInstance
  infer_instance

instance (clause : Clause) : KeepsLabels (switchRound self clause) := by
  have hsteady : Steady 0 (switchRound self clause) := Advances.steady inferInstance
  infer_instance

end Labels

/-! ## Parts -/

/-- What the statement that comes next begins with. -/
def State.StartsWith (s : State) (start : StatementStart) : Prop :=
  (statementStart.run.run s).1 = .ok start

instance (start : StatementStart) : Decidable (s.StartsWith start) :=
  inferInstanceAs (Decidable ((statementStart.run.run s).1 = .ok start))

theorem State.StartsWith.run_eq {start : StatementStart} (h : s.StartsWith start) :
    statementStart.run.run s = (.ok start, s) := by
  obtain ⟨start', hrun⟩ := exists_statementStart s
  rw [State.StartsWith, hrun] at h
  rw [hrun, ← h]

/-- What a statement begins with depends on the next token only. -/
theorem State.StartsWith.of_lookahead {start : StatementStart} (h : s.StartsWith start)
    (hlookahead : s'.lookahead = s.lookahead) : s'.StartsWith start := by
  have hpeek (s : State) : peek.run.run s = (.ok (Token.next s.lookahead.stop), s) := rfl
  refine Eq.trans ?_ h
  unfold statementStart
  rw [run_bind, run_bind, run_token, run_token]
  dsimp only
  rw [run_bind, run_bind, hpeek, hpeek]
  dsimp only
  rw [hlookahead]
  repeat' split
  all_goals rfl

/-- Whether a loop comes next. -/
def State.atLoop (s : State) : Bool := ["for", "while", "do"].any s.lookahead.isKeyword

/-- The label of a statement that begins at the first state, if what it stands in front of begins at
the second one. -/
def labelBetween (s s' : State) : Label :=
  { name := s.lookahead.name, iteration := s'.atLoop, position := s.lookahead.position }

/-- Reading a list of statements from the first state on, the next one begins at the second. -/
def InList (self : Productions) (s s' : State) : Prop :=
  ∃ n scan, Rounds (listRound self false) (s.size - s.lookahead.position.offset + 4) {} s (n + 1)
    scan s' ∧ endsBlock s'.lookahead = false

/-- A block comes next at the first state, and one of its statements begins at the second one. -/
def InBlock (self : Productions) (s s' : State) : Prop :=
  s.lookahead.isPunctuator "\x7b" = true ∧
    ∃ s₁, (blockHead s.lookahead.position).run.run s = (.ok (), s₁) ∧ InList self s₁ s'

/-- In the statement that begins at `s`, another one begins at `s'`, in the same function and with
no statement between them but a list or a clause. If the first one has a label, that is given. -/
inductive Part (self : Productions) (s : State) : Option Label → State → Prop
  | label {s' : State} (hstart : s.StartsWith .label)
    (hhead : labelHead.run.run s = (.ok (), s')) : Part self s (some (labelBetween s s')) s'
  | block {s' : State} (hstart : s.StartsWith (.form .block)) (hblock : InBlock self s s') :
    Part self s none s'
  | thenBranch {s' : State} (hstart : s.StartsWith (.form .ifWord))
    (hhead : (ifHead self).run.run s = (.ok (), s')) : Part self s none s'
  | elseBranch {s₁ s₂ s' : State} {first : Statement} (hstart : s.StartsWith (.form .ifWord))
    (hhead : (ifHead self).run.run s = (.ok (), s₁))
    (hfirst : (self.statement false).run.run s₁ = (.ok first, s₂))
    (helse : s₂.lookahead.isKeyword "else" = true)
    (hadvance : advance.run.run s₂ = (.ok (), s')) : Part self s none s'
  | forBody {s' : State} {over? : Option (Iteration × Position)}
    (hstart : s.StartsWith (.form .forWord))
    (hhead : (forHead self).run.run s = (.ok over?, s')) : Part self s none s'
  | whileBody {s' : State} (hstart : s.StartsWith (.form .whileWord))
    (hhead : (whileHead self).run.run s = (.ok (), s')) : Part self s none s'
  | doBody {s' : State} (hstart : s.StartsWith (.form .doWord))
    (hhead : doHead.run.run s = (.ok (), s')) : Part self s none s'
  | withBody {s' : State} (hstart : s.StartsWith (.form .withWord))
    (hhead : (withHead self).run.run s = (.ok (), s')) : Part self s none s'
  | clause {s₁ s₂ s' : State} {n : Nat} {clause : Clause}
    (hstart : s.StartsWith (.form .switchWord))
    (hhead : (switchHead self).run.run s = (.ok (), s₁))
    (hrounds : Rounds (switchRound self) (s₁.size - s₁.lookahead.position.offset + 4) .none s₁
      (n + 1) clause s₂)
    (hgoes : endsBlock s₂.lookahead = false)
    (hitem : s₂.lookahead.isKeyword "case" = false ∧ s₂.lookahead.isKeyword "default" = false)
    (hbefore : (if clause = .none then reportInstead "case" s₂.lookahead else pure () :
      Reading Unit).run.run s₂ = (.ok (), s')) : Part self s none s'
  | tryBlock {s₁ s' : State} (hstart : s.StartsWith (.form .tryWord))
    (hadvance : advance.run.run s = (.ok (), s₁)) (hblock : InBlock self s₁ s') :
    Part self s none s'
  | catchBlock {s₁ s₂ s₃ s' : State} {body : Statement} (hstart : s.StartsWith (.form .tryWord))
    (hadvance : advance.run.run s = (.ok (), s₁))
    (hbody : (block self).run.run s₁ = (.ok body, s₂))
    (hcatch : s₂.lookahead.isKeyword "catch" = true)
    (hhead : (catchHead self).run.run s₂ = (.ok (), s₃)) (hlist : InList self s₃ s') :
    Part self s none s'
  | finallyBlock {s₁ s₂ s₃ s₄ s' : State} {body : Statement}
    (hstart : s.StartsWith (.form .tryWord)) (hadvance : advance.run.run s = (.ok (), s₁))
    (hbody : (block self).run.run s₁ = (.ok body, s₂))
    (hclause : (if s₂.lookahead.isKeyword "catch" then catchClause self else pure () :
      Reading Unit).run.run s₂ = (.ok (), s₃))
    (hfinally : s₃.lookahead.isKeyword "finally" = true)
    (hadvance' : advance.run.run s₃ = (.ok (), s₄)) (hblock : InBlock self s₄ s') :
    Part self s none s'

section Parts

variable {self : Productions} [hsteady : self.Steady 0]

theorem statementList_getsTo (h : InList self s s') :
    GetsTo (statementList self false) s (self.statement true) s' := by
  obtain ⟨n, scan, hrounds, hgoes⟩ := h
  have hends : ¬ (s'.lookahead.isEnd || (s'.lookahead.isPunctuator "\x7d" && !false)) = true := by
    simpa [endsBlock] using hgoes
  have hbrace : ¬ s'.lookahead.isPunctuator "\x7d" = true := by
    rw [endsBlock, Bool.or_eq_false_iff] at hgoes
    exact Bool.not_eq_true _ ▸ hgoes.2
  have hround : GetsTo (listRound self false scan) s' (self.statement true) s' := by
    rw [listRound_eq]
    refine .bind (a := s'.lookahead) rfl (.ite_not hends (.ite_not hbrace ?_))
    refine .first (.here fun _ => ?_) fun _ => .pure _
    exact .of_steady (n := 0) inferInstance
  have hadvances (scan : ListScan) : Advances 0 (listRound self false scan) := inferInstance
  exact .first (hrounds.getsTo_repeatFrom hround fun scan => (hadvances scan).stepwise)
    fun _ => .pure _

theorem block_getsTo (h : InBlock self s s') :
    GetsTo (block self) s (self.statement true) s' := by
  obtain ⟨hbrace, s₁, hhead, hlist⟩ := h
  rw [block_eq]
  refine .bind (a := s.lookahead) rfl (.ite hbrace (.bind hhead ?_))
  exact .first (statementList_getsTo hlist) fun _ => .of_steady (n := 0) inferInstance

omit hsteady in
theorem switchRound_getsTo {clause : Clause} (hgoes : endsBlock s.lookahead = false)
    (hitem : s.lookahead.isKeyword "case" = false ∧ s.lookahead.isKeyword "default" = false)
    (hbefore : (if clause = .none then reportInstead "case" s.lookahead else pure () :
      Reading Unit).run.run s = (.ok (), s')) :
    GetsTo (switchRound self clause) s (self.statement true) s' := by
  have hends : ¬ (s.lookahead.isPunctuator "\x7d" || s.lookahead.isEnd) = true := by
    rw [Bool.or_comm]
    exact Bool.eq_false_iff.mp hgoes
  have hhead : ¬ (s.lookahead.isKeyword "case" || s.lookahead.isKeyword "default") = true := by
    simp [hitem]
  rw [switchRound_eq]
  refine .bind (a := s.lookahead) rfl (.ite_not hends (.ite_not hhead (.bind hbefore ?_)))
  refine .first (.here fun _ => ?_) fun _ => .pure _
  exact .of_steady (n := 0) inferInstance

/-- Reading a statement gets to its parts. -/
theorem Part.getsTo {label? : Option Label} (hdepth : s.depth < s.options.maxDepth)
    (h : Part self { s with depth := s.depth + 1 } label? s') (inList : Bool) :
    ∃ inList', GetsTo (readStatement self inList) s (self.statement inList') s' := by
  cases h with
  | label hstart hhead =>
      refine ⟨false, .nested hdepth (.bind hstart.run_eq ?_)⟩
      dsimp only
      rw [labelledStatement_eq]
      exact .bind hhead (.here fun _ => .of_steady (n := 0) inferInstance)
  | block hstart hblock =>
      exact ⟨true, .nested hdepth (.bind hstart.run_eq (block_getsTo hblock))⟩
  | thenBranch hstart hhead =>
      refine ⟨false, .nested hdepth (.bind hstart.run_eq ?_)⟩
      dsimp only [statementOf]
      rw [ifStatement_eq]
      exact .bind hhead (.here fun _ => .of_steady (n := 0) inferInstance)
  | elseBranch hstart hhead hfirst helse hadvance =>
      refine ⟨false, .nested hdepth (.bind hstart.run_eq ?_)⟩
      dsimp only [statementOf]
      rw [ifStatement_eq]
      refine .bind hhead (.bind hfirst (.bind rfl (.ite helse (.bind hadvance ?_))))
      exact .here fun _ => .pure _
  | forBody hstart hhead =>
      refine ⟨false, .nested hdepth (.bind hstart.run_eq ?_)⟩
      dsimp only [statementOf]
      rw [forStatement_eq]
      exact .bind hhead (.here fun _ => .of_steady (n := 0) inferInstance)
  | whileBody hstart hhead =>
      refine ⟨false, .nested hdepth (.bind hstart.run_eq ?_)⟩
      dsimp only [statementOf]
      rw [whileStatement_eq]
      exact .bind hhead (.here fun _ => .of_steady (n := 0) inferInstance)
  | doBody hstart hhead =>
      refine ⟨false, .nested hdepth (.bind hstart.run_eq ?_)⟩
      dsimp only [statementOf]
      rw [doStatement_eq]
      exact .bind hhead (.here fun _ => .of_steady (n := 0) inferInstance)
  | withBody hstart hhead =>
      refine ⟨false, .nested hdepth (.bind hstart.run_eq ?_)⟩
      dsimp only [statementOf]
      rw [withStatement_eq]
      exact .bind hhead (.here fun _ => .of_steady (n := 0) inferInstance)
  | clause hstart hhead hrounds hgoes hitem hbefore =>
      refine ⟨true, .nested hdepth (.bind hstart.run_eq ?_)⟩
      dsimp only [statementOf]
      rw [switchStatement_eq]
      have hadvances (clause : Clause) : Advances 0 (switchRound self clause) := inferInstance
      have hround : GetsTo (switchRound self _) _ (self.statement true) s' :=
        switchRound_getsTo hgoes hitem hbefore
      refine .bind hhead (.first (hrounds.getsTo_repeatFrom hround fun clause =>
        (hadvances clause).stepwise) fun _ => ?_)
      unfold switchEnd
      exact .of_steady (n := 0) inferInstance
  | tryBlock hstart hadvance hblock =>
      refine ⟨true, .nested hdepth (.bind hstart.run_eq ?_)⟩
      dsimp only [statementOf]
      rw [tryStatement_eq]
      refine .bind hadvance (.first (block_getsTo hblock) fun _ => ?_)
      exact .of_steady (n := 0) inferInstance
  | catchBlock hstart hadvance hbody hcatch hhead hlist =>
      refine ⟨true, .nested hdepth (.bind hstart.run_eq ?_)⟩
      dsimp only [statementOf]
      rw [tryStatement_eq]
      refine .bind hadvance (.bind hbody (.bind rfl (.first (.ite hcatch ?_) fun _ => ?_)))
      · rw [catchClause_eq]
        refine .bind hhead (.first (statementList_getsTo hlist) fun _ => ?_)
        exact .of_steady (n := 0) inferInstance
      · exact .of_steady (n := 0) inferInstance
  | finallyBlock hstart hadvance hbody hclause hfinally hadvance' hblock =>
      refine ⟨true, .nested hdepth (.bind hstart.run_eq ?_)⟩
      dsimp only [statementOf]
      rw [tryStatement_eq]
      refine .bind hadvance (.bind hbody (.bind rfl (.bind hclause (.bind rfl ?_))))
      exact .ite hfinally (.bind hadvance' (.first (block_getsTo hblock) fun _ => .pure _))

end Parts

section Labels

variable {self : Productions} [hsteady : self.Steady 0]
  [hself : ∀ es, self.Upholds (Enclosed es)]

theorem labelColon_lookahead (label : Token) :
    Leads (labelColon label) s fun t s' => t = s'.lookahead := by
  have hend (s : State) (t : Token) (ht : t = s.lookahead) : Leads (do
      if !(["for", "while", "do"].any t.isKeyword || t.isKeyword "switch" ||
          t.isPunctuator "\x7b") then
        report "W028" label.position [label.name, t.display] isRegular_label
      pure t) s fun t s' => t = s'.lookahead := by
    refine .ite (fun _ => .bind fun _ s' hrun => .pure ?_) fun _ => .pure ht
    exact ht.trans (@report_gains "W028" _ _ _ _ s _ s' hrun).lookahead.symm
  unfold labelColon
  refine .after fun reserved s => ?_
  suffices hrest : ∀ s, Leads _ s _ from .ite (fun _ => .after fun _ s => hrest s) fun _ => hrest s
  refine fun s => .after fun _ _ => .after fun _ s => .bind ?_
  rintro _ _ ⟨⟩
  exact hend s s.lookahead rfl

/-- The label that is put in front of a statement is the innermost one around it. -/
theorem labelHead_leads (hs : s.Settled) :
    Leads labelHead s fun _ s' => s'.Settled ∧ s'.labels = labelBetween s s' :: s.labels := by
  have hcolon : KeepsLabels (labelColon s.lookahead) := by
    unfold labelColon
    infer_instance
  unfold labelHead
  refine .bind ?_
  rintro _ _ ⟨⟩
  refine .bind fun t s₁ hrun _ s' hpush => ?_
  obtain ⟨hs₁, hlabels⟩ := hcolon.leads hs _ s₁ hrun
  obtain ⟨hs', hpushed⟩ := pushLabel_leads hs₁ _ _ s' hpush
  cases hpush
  refine ⟨hs', hpushed.trans ?_⟩
  rw [hlabels, labelColon_lookahead _ t s₁ hrun]
  rfl

/-- From the first state to the second one, the labels of the function stay the same. -/
def State.SameLabels (s s' : State) : Prop := s.Settled → s'.Settled ∧ s'.labels = s.labels

theorem State.SameLabels.trans (h : s.SameLabels s') (h' : s'.SameLabels s'') :
    s.SameLabels s'' := fun hs => by
  obtain ⟨hs', hlabels⟩ := h hs
  exact (h' hs').imp_right (·.trans hlabels)

omit hsteady hself in
theorem KeepsLabels.sameLabels {step : Reading α} (hstep : KeepsLabels step) {a : α}
    (hrun : step.run.run s = (.ok a, s')) : s.SameLabels s' := fun hs => hstep.leads hs a s' hrun

theorem InList.sameLabels (h : InList self s s') : s.SameLabels s' := fun hs => by
  obtain ⟨n, scan, hrounds, -⟩ := h
  exact hrounds.keepsLabels hs

theorem InBlock.sameLabels (h : InBlock self s s') : s.SameLabels s' := by
  obtain ⟨-, s₁, hhead, hlist⟩ := h
  exact (KeepsLabels.sameLabels inferInstance hhead).trans hlist.sameLabels

/-- Around a part there is one label more if it has one in front, and no other. -/
theorem Part.labels_eq {label? : Option Label} (h : Part self s label? s') (hs : s.Settled) :
    s'.Settled ∧ s'.labels = label?.toList ++ s.labels := by
  have hstep {α : Type} {step : Reading α} [KeepsLabels step] {a : α} {s s' : State}
      (hrun : step.run.run s = (.ok a, s')) : s.SameLabels s' :=
    KeepsLabels.sameLabels inferInstance hrun
  cases h with
  | label hstart hhead => exact labelHead_leads hs _ s' hhead
  | block hstart hblock => exact hblock.sameLabels hs
  | thenBranch hstart hhead | forBody hstart hhead | whileBody hstart hhead | doBody hstart hhead
  | withBody hstart hhead => exact hstep hhead hs
  | elseBranch hstart hhead hfirst helse hadvance =>
      exact ((hstep hhead).trans ((hstep hfirst).trans (hstep hadvance))) hs
  | clause hstart hhead hrounds hgoes hitem hbefore =>
      have hclauses : State.SameLabels _ _ := fun hs => hrounds.keepsLabels hs
      exact ((hstep hhead).trans (hclauses.trans (hstep hbefore))) hs
  | tryBlock hstart hadvance hblock => exact ((hstep hadvance).trans hblock.sameLabels) hs
  | catchBlock hstart hadvance hbody hcatch hhead hlist =>
      exact ((hstep hadvance).trans ((hstep hbody).trans ((hstep hhead).trans hlist.sameLabels))) hs
  | finallyBlock hstart hadvance hbody hclause hfinally hadvance' hblock =>
      have hbefore := (hstep hadvance).trans ((hstep hbody).trans (hstep hclause))
      exact (hbefore.trans ((hstep hadvance').trans hblock.sameLabels)) hs

/-! ## Statements at any depth -/

/-- In the statement that the productions of the first depth read from the first state on, another
one is read by those of the second depth from the second state on, in the same function. The labels
are those between the two, innermost first. -/
inductive Inside : Nat → State → List Label → Nat → State → Prop
  | self (fuel : Nat) (s : State) : Inside fuel s [] fuel s
  | part {fuel fuel' : Nat} {s s' s'' : State} {label? : Option Label} {labels : List Label}
    (hdepth : s.depth < s.options.maxDepth)
    (hpart : Part (productions fuel) { s with depth := s.depth + 1 } label? s')
    (hrest : Inside fuel s' labels fuel' s'') :
    Inside (fuel + 1) s (labels ++ label?.toList) fuel' s''

namespace Inside

variable {fuel fuel' fuel'' : Nat} {labels labels' : List Label}

theorem trans (h : Inside fuel s labels fuel' s') (h' : Inside fuel' s' labels' fuel'' s'') :
    Inside fuel s (labels' ++ labels) fuel'' s'' := by
  induction h with
  | self => rwa [List.append_nil]
  | part hdepth hpart hrest ih =>
      rw [← List.append_assoc]
      exact .part hdepth hpart (ih h')

/-- The labels around a statement inside of another one are those around that, and those between. -/
theorem labels_eq (h : Inside fuel s labels fuel' s') (hs : s.Settled) :
    s'.Settled ∧ s'.labels = labels ++ s.labels := by
  induction h with
  | self => exact ⟨hs, rfl⟩
  | @part fuel _ s _ _ _ _ hdepth hpart hrest ih =>
      have := productions_stepwise fuel
      obtain ⟨hs₁, hlabels₁⟩ := hpart.labels_eq (hs.deeper _)
      obtain ⟨hs', hlabels⟩ := ih hs₁
      refine ⟨hs', hlabels.trans ?_⟩
      rw [hlabels₁, List.append_assoc]
      rfl

/-- Reading a statement gets to those inside of it. -/
theorem getsTo (h : Inside fuel s labels fuel' s') (inList : Bool) :
    ∃ inList', GetsTo ((productions fuel).statement inList) s
      ((productions fuel').statement inList') s' := by
  induction h generalizing inList with
  | self fuel s => exact ⟨inList, pure, .pure, by rw [bind_pure]⟩
  | @part fuel _ s _ _ _ _ hdepth hpart hrest ih =>
      have := productions_stepwise fuel
      obtain ⟨inList₁, hgets⟩ := hpart.getsTo hdepth inList
      obtain ⟨inList', hgets'⟩ := ih inList₁
      rw [productions_statement]
      exact ⟨inList', hgets.trans hgets'⟩

end Inside

end Labels

end ScriptLint.Reading

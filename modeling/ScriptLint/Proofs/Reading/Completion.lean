import ScriptLint.Proofs.Reading.Declarator
import ScriptLint.Proofs.Reading.Program

/-! # How statements end

Control leaves a statement at its end, or by a jump. An outline of a statement says as much of it as
tells in which of these ways it may be left, whatever its expressions give. The outline of a
statement that comes next is what reading it comes across, up to its end.
-/

set_option synthInstance.maxSize 4096

namespace ScriptLint.Reading

/-- How control leaves a statement. -/
inductive Completion where
  /-- At its end. -/
  | normal
  | broken (label? : Option String)
  | continued (label? : Option String)
  | returned
  | thrown
deriving Repr, DecidableEq

/-- What a statement is made of, as far as control is concerned. -/
inductive Outline where
  | expression
  | breakTo (label? : Option String)
  | continueWith (label? : Option String)
  | returnValue
  | throwValue
  | block (statements : List Outline)
  | ifOnly (first : Outline)
  | ifElse (first second : Outline)
  | labelled (name : String) (body : Outline)
  /-- Any other statement. -/
  | other
deriving Repr

namespace Outline

/-! ## Completions -/

mutual

/-- In which ways a statement may be left, by the rules of the language. What a condition gives is
left open, and so is all that other statements do. With `landing`, a `break` to the label of a
statement completes that statement. -/
def Completes (landing : Bool) : Outline → Completion → Prop
  | expression, c => c = .normal ∨ c = .thrown
  | breakTo label?, c => c = .broken label?
  | continueWith label?, c => c = .continued label?
  | returnValue, c => c = .returned ∨ c = .thrown
  | throwValue, c => c = .thrown
  | block statements, c => AllComplete landing statements c
  | ifOnly first, c => c = .normal ∨ c = .thrown ∨ first.Completes landing c
  | ifElse first second, c =>
    c = .thrown ∨ first.Completes landing c ∨ second.Completes landing c
  | labelled name body, c =>
    (c ≠ .broken (some name) ∧ body.Completes landing c) ∨
      (landing = true ∧ c = .normal ∧ body.Completes landing (.broken (some name)))
  | other, _ => True

/-- In which ways the statements of a list may be left, one after the other. -/
def AllComplete (landing : Bool) : List Outline → Completion → Prop
  | [], c => c = .normal
  | first :: rest, c =>
    (first.Completes landing .normal ∧ AllComplete landing rest c) ∨
      (c ≠ .normal ∧ first.Completes landing c)

end

mutual

/-- Whether a statement may be left in a certain way. -/
def decideCompletes (landing : Bool) :
    (outline : Outline) → (c : Completion) → Decidable (outline.Completes landing c)
  | expression, c => inferInstanceAs (Decidable (c = .normal ∨ c = .thrown))
  | breakTo label?, c => inferInstanceAs (Decidable (c = .broken label?))
  | continueWith label?, c => inferInstanceAs (Decidable (c = .continued label?))
  | returnValue, c => inferInstanceAs (Decidable (c = .returned ∨ c = .thrown))
  | throwValue, c => inferInstanceAs (Decidable (c = .thrown))
  | block statements, c => decideAllComplete landing statements c
  | ifOnly first, c =>
    have := decideCompletes landing first c
    inferInstanceAs (Decidable (c = .normal ∨ c = .thrown ∨ first.Completes landing c))
  | ifElse first second, c =>
    have := decideCompletes landing first c
    have := decideCompletes landing second c
    inferInstanceAs
      (Decidable (c = .thrown ∨ first.Completes landing c ∨ second.Completes landing c))
  | labelled name body, c =>
    have := decideCompletes landing body c
    have := decideCompletes landing body (.broken (some name))
    inferInstanceAs (Decidable ((c ≠ .broken (some name) ∧ body.Completes landing c) ∨
      (landing = true ∧ c = .normal ∧ body.Completes landing (.broken (some name)))))
  | other, _ => inferInstanceAs (Decidable True)

def decideAllComplete (landing : Bool) :
    (statements : List Outline) → (c : Completion) → Decidable (AllComplete landing statements c)
  | [], c => inferInstanceAs (Decidable (c = .normal))
  | first :: rest, c =>
    have := decideCompletes landing first .normal
    have := decideCompletes landing first c
    have := decideAllComplete landing rest c
    inferInstanceAs (Decidable ((first.Completes landing .normal ∧ AllComplete landing rest c) ∨
      (c ≠ .normal ∧ first.Completes landing c)))

end

instance (landing : Bool) (outline : Outline) (c : Completion) :
    Decidable (outline.Completes landing c) := decideCompletes landing outline c

instance (landing : Bool) (statements : List Outline) (c : Completion) :
    Decidable (AllComplete landing statements c) := decideAllComplete landing statements c

/-- A list goes on behind its last statement only if that can be left at its end. -/
theorem AllComplete.last {landing : Bool} {statements : List Outline} {last : Outline}
    (h : AllComplete landing (statements ++ [last]) .normal) : last.Completes landing .normal := by
  induction statements with
  | nil =>
      rw [List.nil_append, AllComplete] at h
      rcases h with h | h
      · exact h.1
      · exact absurd rfl h.1
  | cons first rest ih =>
      rw [List.cons_append, AllComplete] at h
      rcases h with h | h
      · exact ih h.2
      · exact absurd rfl h.1

end Outline

/-! ## The parts of a statement -/

theorem isRegular_label : Halt.IsRegular "W028" := by decide

/-- A label and its colon, with what is to say about them. Gives the token that comes next. -/
def labelColon (label : Token) : Reading Token := do
  if ← isReserved label.name then reportReserved label.name label.position
  advance
  advance
  let t ← token
  if !(["for", "while", "do"].any t.isKeyword || t.isKeyword "switch" || t.isPunctuator "\x7b") then
    report "W028" label.position [label.name, t.display] isRegular_label
  pure t

/-- A label up to the statement that it stands in front of. -/
def labelHead : Reading Unit := do
  let label ← token
  let t ← labelColon label
  track (·.pushLabel
    { name := label.name
      iteration := ["for", "while", "do"].any t.isKeyword
      position := label.position })

/-- An `if` statement up to its first branch. -/
def ifHead (self : Productions) : Reading Unit := do
  advance
  condition self

/-- A block up to its first statement. -/
def blockHead (position : Position) : Reading Unit := do
  advance
  track (·.enterScope .block position)

/-- A statement of a list. One that consumes nothing gives up its first token, which is `t`. -/
def listItem (self : Productions) (t : Token) : Reading Statement := do
  let statement ← self.statement true
  let after ← token
  if after.position.offset == t.position.offset && !after.isEnd then advance
  pure statement

variable {self : Productions}

theorem ite_bind {α β : Type} {c : Prop} [Decidable c] (first second : Reading α)
    (next : α → Reading β) :
    (if c then first else second) >>= next = if c then first >>= next else second >>= next := by
  split <;> rfl

theorem labelledStatement_eq : labelledStatement self =
    labelHead >>= fun _ => self.statement false >>= fun body =>
      track (·.popLabel) >>= fun _ => pure body := by
  unfold labelledStatement labelHead labelColon
  simp only [bind_assoc, ite_bind, pure_bind]

theorem ifStatement_eq : ifStatement self =
    ifHead self >>= fun _ => self.statement false >>= fun first => token >>= fun t =>
      if t.isKeyword "else" then advance >>= fun _ => self.statement false >>= fun second =>
        pure { kind := .conditional, exits := first.exits && second.exits }
      else pure { kind := .conditional } := by
  unfold ifStatement ifHead atKeyword
  simp only [bind_assoc, pure_bind]

theorem block_eq : block self = token >>= fun t =>
    if t.isPunctuator "\x7b" then
      blockHead t.position >>= fun _ => statementList self false >>= fun body =>
        inScopes Scope.Action.exitScope >>= fun _ => expectPunctuator "\x7d" >>= fun _ => pure body
    else expectPunctuator "\x7b" >>= fun _ => pure { kind := .other } := by
  unfold block blockHead
  simp only [bind_assoc]

theorem listRound_eq (top : Bool) (scan : ListScan) : listRound self top scan =
    token >>= fun t =>
      if t.isEnd || (t.isPunctuator "\x7d" && !top) then pure (.done scan)
      else if t.isPunctuator "\x7d" then
        reportUnexpected "\x7d" t.position >>= fun _ => advance >>= fun _ => pure (.again scan)
      else listItem self t >>= fun statement =>
        pure (.again
          { first? := scan.first? <|> some statement.kind, exits := statement.exits }) := by
  unfold listRound listItem
  simp only [bind_assoc, ite_bind, pure_bind]

theorem switchRound_eq (clause : Clause) : switchRound self clause =
    token >>= fun t =>
      if t.isPunctuator "\x7d" || t.isEnd then pure (.done ())
      else if t.isKeyword "case" || t.isKeyword "default" then
        clauseHead self clause >>= fun _ => pure (.again .empty)
      else (if clause = .none then reportInstead "case" t else pure ()) >>= fun _ =>
        listItem self t >>= fun statement => pure (.again (.running statement.exits)) := by
  unfold switchRound listItem
  simp only [bind_assoc, ite_bind, pure_bind]

/-! ## The outline of what comes next -/

/-- The state that a step leaves. -/
def State.after {α : Type} (s : State) (step : Reading α) : State := (step.run.run s).2

theorem State.run_eq_after {α : Type} {s : State} {step : Reading α} {a : α}
    (h : (step.run.run s).1 = .ok a) : step.run.run s = (.ok a, s.after step) := Prod.ext h rfl

/-- The label of a jump that comes next. -/
def State.jumpLabel? (s : State) : Option String :=
  let t := Token.next s.lookahead.stop
  if t.isIdentifier && !t.flags.newlineBefore then some t.name else none

/-- The outlines of the statements of a list, where `outline` is that of a single one. -/
def listOutlines (self : Productions) (outline : State → Outline) (ends : Token → Bool) :
    Nat → State → List Outline
  | 0, _ => []
  | rounds + 1, s =>
    if ends s.lookahead then []
    else outline s :: listOutlines self outline ends rounds (s.after (listItem self s.lookahead))

/-- The end of the statements of a block. -/
def endsBlock (t : Token) : Bool := t.isEnd || t.isPunctuator "\x7d"

/-- The outline of the statement that comes next. -/
def outlineAt : Nat → State → Outline
  | 0, _ => .other
  | fuel + 1, s =>
    let self := productions fuel
    let s := { s with depth := s.depth + 1 }
    match (statementStart.run.run s).1 with
    | .ok .label => .labelled s.lookahead.name (outlineAt fuel (s.after labelHead))
    | .ok .expression => .expression
    | .ok (.form .breakWord) => .breakTo s.jumpLabel?
    | .ok (.form .continueWord) => .continueWith s.jumpLabel?
    | .ok (.form .returnWord) => .returnValue
    | .ok (.form .throwWord) => .throwValue
    | .ok (.form .block) =>
      let s := s.after (blockHead s.lookahead.position)
      .block (listOutlines self (outlineAt fuel) endsBlock
        (s.size - s.lookahead.position.offset + 4) s)
    | .ok (.form .ifWord) =>
      let s := s.after (ifHead self)
      let first := outlineAt fuel s
      let s := s.after (self.statement false)
      if s.lookahead.isKeyword "else" then .ifElse first (outlineAt fuel (s.after advance))
      else .ifOnly first
    | _ => .other

/-! ## Exits -/

variable {s : State} {fuel : Nat} {inList : Bool}

theorem Leads.nested {α : Type} {step : Reading α} {post : α → Prop}
    (h : Leads step { s with depth := s.depth + 1 } fun a _ => post a) :
    Leads (nested step) s fun a _ => post a := by
  refine .bind ?_
  rintro _ _ ⟨⟩
  refine .bind ?_
  rintro _ _ ⟨⟩
  refine .ite (fun _ => ?_) fun _ => .bind fun a s' hrun => .after fun _ _ => .pure (h a s' hrun)
  rintro a s' hrun
  cases hrun

/-- Control may reach what follows the statement that is read. -/
class Stays (step : Reading Statement) : Prop where
  leads : ∀ s, Leads step s fun r _ => r.exits = false

namespace Stays

instance (kind : StatementKind) (filtered : Bool) : Stays (pure { kind, filtered }) :=
  ⟨fun _ => .pure rfl⟩

instance {α : Type} {first : Reading α} {next : α → Reading Statement} [h : ∀ a, Stays (next a)] :
    Stays (first >>= next) := ⟨fun _ => .after fun a s => (h a).leads s⟩

instance {c : Prop} [Decidable c] {first second : Reading Statement} [hfirst : Stays first]
    [hsecond : Stays second] : Stays (if c then first else second) :=
  ⟨fun s => .ite (fun _ => hfirst.leads s) fun _ => hsecond.leads s⟩

instance (kind : Scope.BindingKind) : Stays (variableStatement self kind) := by
  unfold variableStatement
  infer_instance

instance (async inList : Bool) : Stays (functionStatement self async inList) := by
  unfold functionStatement
  infer_instance

instance : Stays (expressionStatement self) := by
  unfold expressionStatement
  infer_instance

/-- Only jumps, and statements that may end in one, keep control from what follows. -/
theorem statementOf {form : StatementForm} (hform : form ∉ [.breakWord, .continueWord, .returnWord,
    .throwWord, .block, .ifWord]) : Stays (statementOf self inList form) := by
  cases form
  case breakWord | continueWord | returnWord | throwWord | block | ifWord => simp at hform
  all_goals
    dsimp only [Reading.statementOf, forStatement, whileStatement, doStatement, switchStatement,
      tryStatement, withStatement, debuggerStatement, emptyStatement, importStatement]
    infer_instance

end Stays

/-- What begins a statement is only looked at. -/
theorem exists_statementStart (s : State) :
    ∃ start, statementStart.run.run s = (.ok start, s) := by
  have htoken : token.run.run s = (.ok s.lookahead, s) := rfl
  have hpeek : peek.run.run s = (.ok (Token.next s.lookahead.stop), s) := rfl
  unfold statementStart
  rw [run_bind, htoken]
  dsimp only
  rw [run_bind, hpeek]
  dsimp only
  repeat' split
  all_goals exact ⟨_, rfl⟩

/-- Where a statement exits, it is not left at its end, unless by a `break` to a label in it. -/
def Exits (step : Reading Statement) (s : State) (outline : Outline) : Prop :=
  Leads step s fun r _ => r.exits = true → ¬ outline.Completes false .normal

theorem Stays.exits {step : Reading Statement} (h : Stays step) (s : State) (outline : Outline) :
    Exits step s outline := fun r s' hrun hexits => by
  rw [h.leads s r s' hrun] at hexits
  cases hexits

/-- The state after a step that goes on is the one that the rest begins in. -/
theorem Leads.of_after {α β : Type} {first : Reading α} {next : α → Reading β}
    {post : β → State → Prop} (h : ∀ a, first.run.run s = (.ok a, s.after first) →
      Leads (next a) (s.after first) post) : Leads (first >>= next) s post := by
  refine .bind fun a s' hrun => ?_
  have hafter : s.after first = s' := by rw [State.after, hrun]
  subst hafter
  exact h a hrun

theorem Exits.of_not_completes {step : Reading Statement} {outline : Outline}
    (h : ¬ outline.Completes false .normal) : Exits step s outline := fun _ _ _ _ => h

theorem exits_labelledStatement
    (hself : ∀ inList s, Exits (self.statement inList) s (outlineAt fuel s)) :
    Exits (labelledStatement self) s
      (.labelled s.lookahead.name (outlineAt fuel (s.after labelHead))) := by
  unfold Exits
  rw [labelledStatement_eq]
  refine .of_after fun _ _ => .bind fun body _ hbody => .after fun _ _ => .pure fun hexits h => ?_
  rw [Outline.Completes] at h
  rcases h with h | h
  · exact hself false _ body _ hbody hexits h.2
  · exact absurd h.1 nofun

theorem exits_ifStatement
    (hself : ∀ inList s, Exits (self.statement inList) s (outlineAt fuel s)) :
    let before := s.after (ifHead self)
    let behind := before.after (self.statement false)
    Exits (ifStatement self) s
      (if behind.lookahead.isKeyword "else" then
        .ifElse (outlineAt fuel before) (outlineAt fuel (behind.after advance))
      else .ifOnly (outlineAt fuel before)) := by
  intro before behind
  unfold Exits
  rw [ifStatement_eq]
  refine .of_after fun _ _ => .of_after fun first hfirst => .bind ?_
  rintro _ _ ⟨⟩
  refine .ite (fun helse => ?_) fun _ => .pure nofun
  rw [if_pos helse]
  refine .of_after fun _ _ => .bind fun second _ hsecond => .pure fun hexits h => ?_
  obtain ⟨hfirst', hsecond'⟩ := Bool.and_eq_true_iff.mp hexits
  rw [Outline.Completes] at h
  rcases h with h | h | h
  · cases h
  · exact hself false _ first _ hfirst hfirst' h
  · exact hself false _ second _ hsecond hsecond' h

theorem exits_listItem {outline : Outline} (hself : Exits (self.statement true) s outline)
    (t : Token) : Exits (listItem self t) s outline := by
  refine .bind fun r s' hrun => .after fun after s => ?_
  exact .ite (fun _ => .after fun _ _ => .pure (hself r s' hrun)) fun _ => .pure (hself r s' hrun)

/-- Where the last statement of a list exits, the list is not left at its end. -/
theorem exits_iterate {outline : State → Outline}
    (hself : ∀ s, Exits (self.statement true) s (outline s)) {rounds : Nat} {scan : ListScan} :
    Leads (iterate (listRound self false) rounds scan) s fun scan' _ => scan'.exits = true →
      (listOutlines self outline endsBlock rounds s = [] ∧ scan.exits = true) ∨
        ¬ Outline.AllComplete false (listOutlines self outline endsBlock rounds s) .normal := by
  induction rounds generalizing s scan with
  | zero =>
      rintro scan' s' hrun
      cases hrun
  | succ rounds ih =>
      rw [iterate, listRound_eq, bind_assoc]
      refine .bind ?_
      rintro _ _ ⟨⟩
      rw [ite_bind]
      refine .ite (fun hends => .pure fun hexits => .inl ⟨?_, hexits⟩) fun hgoes => ?_
      · rw [listOutlines, endsBlock, if_pos (by simpa using hends)]
      have hends : endsBlock s.lookahead = false := by simpa [endsBlock] using hgoes
      have hbrace : ¬ s.lookahead.isPunctuator "\x7d" = true := by
        unfold endsBlock at hends
        rw [Bool.or_eq_false_iff] at hends
        exact Bool.not_eq_true _ ▸ hends.2
      rw [if_neg hbrace, bind_assoc, listOutlines, hends, if_neg Bool.false_ne_true]
      refine .of_after fun statement hrun => ?_
      have hstatement := exits_listItem (hself s) s.lookahead statement _ hrun
      intro scan' s' hrest hexits
      right
      rw [Outline.AllComplete]
      rintro (⟨hfirst, hall⟩ | ⟨hne, -⟩)
      · rcases ih scan' s' hrest hexits with ⟨hnone, hlast⟩ | hnot
        · exact hstatement hlast hfirst
        · exact hnot hall
      · exact hne rfl

theorem exits_block (hself : ∀ inList s, Exits (self.statement inList) s (outlineAt fuel s)) :
    let first := s.after (blockHead s.lookahead.position)
    Exits (block self) s (.block (listOutlines self (outlineAt fuel) endsBlock
      (first.size - first.lookahead.position.offset + 4) first)) := by
  intro first
  unfold Exits
  rw [block_eq]
  refine .bind ?_
  rintro _ _ ⟨⟩
  refine .ite (fun _ => .of_after fun _ _ => ?_) fun _ => .after fun _ _ => .pure nofun
  refine .bind fun body s' hlist => .after fun _ _ => .after fun _ _ => .pure fun hexits h => ?_
  have hbody : Leads (statementList self false) first fun body _ => body.exits = true →
      ¬ Outline.AllComplete false (listOutlines self (outlineAt fuel) endsBlock
        (first.size - first.lookahead.position.offset + 4) first) .normal := by
    refine .bind fun scan s' hrun => .pure fun hexits => ?_
    rcases exits_iterate (hself true) scan s' hrun hexits with ⟨-, hfirst⟩ | hnot
    · cases hfirst
    · exact hnot
  rw [Outline.Completes] at h
  exact hbody body s' hlist hexits h

/-- A statement that is read and exits is not left at its end, unless by a `break` to a label in
it. -/
theorem productions_exits (fuel : Nat) (inList : Bool) (s : State) :
    Exits ((productions fuel).statement inList) s (outlineAt fuel s) := by
  induction fuel generalizing inList s with
  | zero =>
      rintro r s' hrun
      cases hrun
  | succ fuel ih =>
      let deeper : State := { s with depth := s.depth + 1 }
      obtain ⟨start, hstart⟩ := exists_statementStart deeper
      rw [productions_statement]
      refine .nested ?_
      refine .bind fun start' s' hrun => ?_
      cases hstart.symm.trans hrun
      rw [outlineAt]
      dsimp only
      rw [hstart]
      cases start with
      | label => exact exits_labelledStatement ih
      | letDeclaration | asyncFunction | expression =>
          exact Stays.exits (by dsimp only; infer_instance) _ _
      | form form =>
          cases form
          case breakWord | continueWord | returnWord | throwWord =>
            exact Exits.of_not_completes (by simp [Outline.Completes])
          case block => exact exits_block ih
          case ifWord => exact exits_ifStatement ih
          all_goals exact (Stays.statementOf (by decide)).exits _ _

end ScriptLint.Reading

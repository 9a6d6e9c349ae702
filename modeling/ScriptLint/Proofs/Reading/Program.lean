import ScriptLint.Proofs.Reading.Statement

/-! # The steps of programs

What is written over the productions is steady up to a bound if they are up to the bound below. At
the end of the input no production is needed, so the bounds on what is left and on depth go down
together: a depth of three is enough for every byte that is left.
-/

set_option synthInstance.maxSize 4096

namespace ScriptLint.Reading

variable {n m : Nat} {s : State} {sure : Prop}

namespace Steady

variable (self : Productions)

/-! ## The end of the input -/

/-- What follows a punctuator that was accepted has less left than what goes on without it. -/
theorem of_test {α : Type} {first : Reading Bool} {next : Bool → Reading α}
    (hfirst : Advances (n + 1) first) (hyes : Steady n (next true))
    (hno : Steady (n + 1) (next false)) : Steady (n + 1) (first >>= next) where
  stepwise := .bind hfirst.stepwise fun
    | true => hyes.stepwise
    | false => hno.stepwise
  meets hs hn := by
    refine (hfirst.meets hs hn).bind fun again s' h => ?_
    cases again with
    | true =>
        have hn' hsure := Nat.lt_of_lt_of_le (h.left_lt rfl) (Nat.le_of_lt_succ (hn hsure))
        exact (hyes.meets h.reaches.ready hn').mono fun _ _ h' => h.reaches.trans h'
    | false =>
        have hn' := h.reaches.bound hn
        exact (hno.meets h.reaches.ready hn').mono fun _ _ h' => h.reaches.trans h'

/-- Only the end of the input comes with nothing left. -/
theorem of_at_end {α : Type} {step : Reading α} (hzero : Steady 0 step)
    (hend : ∀ s, s.Ready → s.lookahead.isEnd → Meets True step s fun _ s' => s.Reaches s') :
    Steady 1 step where
  stepwise := hzero.stepwise
  meets {s _} hs hn := by
    by_cases hleft : s.left = 0
    · exact (hend s hs (hs.isEnd_iff.mpr hleft)).imp fun _ => trivial
    · exact hzero.meets hs fun hsure => absurd (Nat.lt_one_iff.mp (hn hsure)) hleft

section AtEnd

variable [self.Steady 0]

theorem isPunctuator_eq_false {t : Token} (hend : t.isEnd) (p : String) :
    t.isPunctuator p = false := by
  simp [Token.isPunctuator, Token.lexeme_of_isEnd hend]

theorem readBindingTarget_at_end : Steady 1 (readBindingTarget self) := by
  refine .of_at_end inferInstance fun s hs hend => ?_
  have hname : Steady (s.left + 1) (do
    return ({ names := (← bindingName).toList, plain := true } : BindingTarget)) := inferInstance
  refine .atPunctuator ?_
  rw [isPunctuator_eq_false hend]
  refine .atPunctuator ?_
  rw [isPunctuator_eq_false hend]
  exact hname.meets hs fun _ => Nat.lt_succ_self _

theorem assignmentProperty_at_end : Steady 1 (assignmentProperty self) := by
  refine .of_at_end inferInstance fun s hs hend => ?_
  have hkey : isPropertyKey s.lookahead = false := by
    simp [isPropertyKey, Token.lexeme_of_isEnd hend]
  have hreport : Steady (s.left + 1) (reportNoName s.lookahead) := inferInstance
  refine .token ?_
  rw [isPunctuator_eq_false hend, hkey]
  exact hreport.meets hs fun _ => Nat.lt_succ_self _

theorem assignmentPart_at_end (scan : PatternScan) : Steady 1 (assignmentPart self false scan) := by
  -- What takes the rest would have to be announced by dots.
  have hpart : Steady 1 (do
      let rest ← acceptPunctuator "..."
      if rest || false then assignmentElement self else assignmentProperty self
      pure (.again { scan with isEmpty := false, afterRest := scan.afterRest || rest } :
        Round PatternScan PatternScan)) := by
    have := assignmentProperty_at_end self
    refine .of_test inferInstance inferInstance ?_
    exact .bind this fun _ => .pure _
  unfold assignmentPart
  infer_instance

theorem readAssignmentPattern_at_end : Steady 1 (readAssignmentPattern self) := by
  refine .of_at_end inferInstance fun s hs hend => ?_
  have := assignmentPart_at_end self
  have hrest : Steady 1 (do
    advance
    let scan ← commaList "\x7d" {} (assignmentPart self false) noTrailingCheck
    expectPunctuator "\x7d"
    if scan.isEmpty then report "W137" s.lookahead.position []) := inferInstance
  refine .token ?_
  rw [isPunctuator_eq_false hend]
  exact hrest.meets hs fun _ => Nat.lt_one_iff.mpr (hs.isEnd_iff.mp hend)

omit [self.Steady 0] in
/-- No operand comes at the end of the input, so the analysis ends with it. -/
theorem meets_readOperand_at_end {Wanted : Expression → State → Prop}
    (hs : s.Ready) (hend : s.lookahead.isEnd) : Meets sure (readOperand self) s Wanted := by
  have hrescan : Meets sure rescanRegexp s fun _ s' => s' = s := by
    refine .token ?_
    split
    next hslash => simp [Token.isEnd_eq_false_of_isSlash hslash] at hend
    next => exact .pure rfl
  refine hrescan.bind ?_
  rintro _ s rfl
  have hsymbol : (Symbol.ofToken s.lookahead).operand? = none := by
    simp [Symbol.ofToken, Token.lexeme_of_isEnd hend]
  refine .token ?_
  rw [hsymbol]
  refine .token ?_
  rw [if_pos hend]
  exact meets_earlyEnd hs

theorem readOperand_at_end : Steady 1 (readOperand self) :=
  .of_at_end inferInstance fun _ hs hend => meets_readOperand_at_end self hs hend

theorem readExpression_at_end (power : Nat) : Steady 1 (readExpression self power) := by
  have hoperators : Steady 1 (do
      let first ← readOperand self
      repeatFrom first (operatorRound self power)) := by
    refine .of_at_end inferInstance fun s hs hend => ?_
    have hoperand : Meets True (readOperand self) s fun _ _ => False :=
      meets_readOperand_at_end self hs hend
    exact hoperand.bind fun _ _ => False.elim
  exact .nested hoperators

/-- What comes at the end of the input is left to an expression. -/
theorem meets_statementStart_at_end (hend : s.lookahead.isEnd) :
    Meets sure statementStart s fun start s' => start = .expression ∧ s' = s := by
  have hlexeme := Token.lexeme_of_isEnd hend
  have hidentifier : s.lookahead.isIdentifier = false := by simp [Token.isIdentifier, hlexeme]
  have hname (word : String) : s.lookahead.isName word = false := by simp [Token.isName, hlexeme]
  have hsymbol : (Symbol.ofToken s.lookahead).statement? = none := by
    simp [Symbol.ofToken, hlexeme]
  refine .token (.peek ?_)
  simp only [hidentifier, hname, hsymbol, Bool.false_and, Bool.false_eq_true, if_false]
  exact .pure ⟨rfl, rfl⟩

theorem readStatement_at_end [Steady 1 (self.expression 0)] (inList : Bool) :
    Steady 1 (readStatement self inList) := by
  have hexpression : Steady 1 (expressionStatement self) := inferInstance
  unfold readStatement
  refine .nested (.of_at_end ?_ fun s hs hend => ?_)
  · refine .bind inferInstance fun start => ?_
    cases start <;> infer_instance
  · refine (meets_statementStart_at_end hend).bind ?_
    rintro _ _ ⟨rfl, rfl⟩
    exact hexpression.meets hs fun _ => Nat.lt_one_iff.mpr (hs.isEnd_iff.mp hend)

end AtEnd

/-! ## Anywhere -/

section

variable [hself : self.Steady n]

/-- Behind a consumed token the end of the input is as good as what follows with less left. -/
instance (n : Nat) : Reach (n + 2) (n + 1) := ⟨.inr ⟨rfl, Nat.succ_pos n⟩⟩

theorem readBindingTarget_succ : Steady (n + 1) (readBindingTarget self) := by
  cases n with
  | zero => exact readBindingTarget_at_end self
  | succ n => infer_instance

theorem readAssignmentPattern_succ : Steady (n + 1) (readAssignmentPattern self) := by
  cases n with
  | zero => exact readAssignmentPattern_at_end self
  | succ n => infer_instance

theorem readOperand_succ [Steady (n + 1) self.assignmentPattern] :
    Steady (n + 1) (readOperand self) := by
  cases n with
  | zero => exact readOperand_at_end self
  | succ n => infer_instance

theorem readExpression_succ [Steady (n + 1) self.assignmentPattern] (power : Nat) :
    Steady (n + 1) (readExpression self power) := by
  cases n with
  | zero => exact readExpression_at_end self power
  | succ n => infer_instance

theorem readStatement_succ [Steady (n + 1) (self.expression 0)] (inList : Bool) :
    Steady (n + 1) (readStatement self inList) := by
  cases n with
  | zero => exact readStatement_at_end self inList
  | succ n => infer_instance

end

end Steady

/-! ## Productions -/

theorem productions_expression (fuel power : Nat) :
    (productions (fuel + 1)).expression power = readExpression (productions fuel) power :=
  funext fun s => by rw [productions]

theorem productions_operand (fuel : Nat) :
    (productions (fuel + 1)).operand = readOperand (productions fuel) :=
  funext fun s => by rw [productions]

theorem productions_statement (fuel : Nat) (inList : Bool) :
    (productions (fuel + 1)).statement inList = readStatement (productions fuel) inList :=
  funext fun s => by rw [productions]

theorem productions_bindingTarget (fuel : Nat) :
    (productions (fuel + 1)).bindingTarget = readBindingTarget (productions fuel) :=
  funext fun s => by rw [productions]

theorem productions_assignmentPattern (fuel : Nat) :
    (productions (fuel + 1)).assignmentPattern = readAssignmentPattern (productions fuel) :=
  funext fun s => by rw [productions]

/-- Up to nothing, the fuel may run out. -/
theorem Steady.outOfFuel {α : Type} : Steady 0 (throw .outOfFuel : Reading α) :=
  ⟨.outOfFuel, fun {s _} _ hn => ⟨.refl _, .of_ignores (fun _ _ => rfl) s,
    fun hsure => absurd (hn hsure) (Nat.not_lt_zero _)⟩⟩

/-- Whatever the bound on depth, productions never go back. -/
theorem productions_stepwise (fuel : Nat) : (productions fuel).Steady 0 := by
  induction fuel with
  | zero => constructor <;> intros <;> exact .outOfFuel
  | succ fuel ih =>
      refine ⟨fun power => ?_, ?_, fun inList => ?_, ?_, ?_⟩
      · rw [productions_expression]
        infer_instance
      · rw [productions_operand]
        infer_instance
      · rw [productions_statement]
        infer_instance
      · rw [productions_bindingTarget]
        infer_instance
      · rw [productions_assignmentPattern]
        infer_instance

/-- A depth of three is enough for every byte that is left and for the end of the input, for a
statement may begin with an expression at the same place, and an expression with a pattern. -/
theorem productions_steady {fuel : Nat} (hfuel : 3 * n ≤ fuel) : (productions fuel).Steady n := by
  induction n generalizing fuel with
  | zero => exact productions_stepwise fuel
  | succ n ih =>
      have htarget {fuel : Nat} (hfuel : 3 * n ≤ fuel) :
          Steady (n + 1) (productions (fuel + 1)).bindingTarget := by
        have := ih hfuel
        rw [productions_bindingTarget]
        exact .readBindingTarget_succ _
      have hpattern {fuel : Nat} (hfuel : 3 * n ≤ fuel) :
          Steady (n + 1) (productions (fuel + 1)).assignmentPattern := by
        have := ih hfuel
        rw [productions_assignmentPattern]
        exact .readAssignmentPattern_succ _
      have hoperand {fuel : Nat} (hfuel : 3 * n ≤ fuel) :
          Steady (n + 1) (productions (fuel + 2)).operand := by
        have := ih (Nat.le_succ_of_le hfuel)
        have := hpattern hfuel
        rw [productions_operand]
        exact .readOperand_succ _
      have hexpression {fuel : Nat} (hfuel : 3 * n ≤ fuel) (power : Nat) :
          Steady (n + 1) ((productions (fuel + 2)).expression power) := by
        have := ih (Nat.le_succ_of_le hfuel)
        have := hpattern hfuel
        rw [productions_expression]
        exact .readExpression_succ _ power
      have hstatement {fuel : Nat} (hfuel : 3 * n ≤ fuel) (inList : Bool) :
          Steady (n + 1) ((productions (fuel + 3)).statement inList) := by
        have := ih (Nat.le_succ_of_le (Nat.le_succ_of_le hfuel))
        have := hexpression hfuel 0
        rw [productions_statement]
        exact .readStatement_succ _ inList
      obtain ⟨fuel, rfl⟩ := Nat.exists_eq_add_of_le' (show 3 ≤ fuel by omega)
      exact ⟨hexpression (by omega), hoperand (by omega), hstatement (by omega),
        htarget (by omega), hpattern (by omega)⟩

/-! ## Programs -/

theorem program_steady (self : Productions) [self.Steady n] : Steady n (program self) := by
  unfold program
  infer_instance

/-- Reading a program is put together from the steps of reading. -/
theorem program_stepwise (fuel : Nat) : Stepwise (program (productions fuel)) := by
  have := productions_stepwise fuel
  exact .of_steady (n := 0) (program_steady _)

end ScriptLint.Reading

/-! ## Layers of nesting

How deeply productions nest is bounded in two ways. The bound of the options counts the expressions,
operands and statements around a place; patterns are not counted, so they nest as deeply as the
source has them do. The table of productions is tied anew here, in layers: each layer takes one off
the bound of the options, and within a layer only patterns nest. As long as the layers are as many
as the levels that the options still allow, a step cannot tell them from the productions of any
depth.
-/

namespace ScriptLint.Reading

variable {α β σ : Type} {k : Nat}

/-! ## Tables in layers -/

/-- The table with patterns that nest at most the given number of times, and else unchanged. -/
def Productions.withPatterns (self : Productions) : Nat → Productions
  | 0 =>
    { self with
      bindingTarget := throw .outOfFuel
      assignmentPattern := throw .outOfFuel }
  | patterns + 1 =>
    { self with
      bindingTarget := fun s => readBindingTarget (self.withPatterns patterns) s
      assignmentPattern := fun s => readAssignmentPattern (self.withPatterns patterns) s }

/-- The table whose expressions, operands and statements are written over another one. -/
def Productions.around (inner : Productions) : Productions :=
  { inner with
    expression := fun power s => readExpression inner power s
    operand := fun s => readOperand inner s
    statement := fun inList s => readStatement inner inList s }

section

variable (self : Productions) (patterns : Nat)

/-! Only patterns are replaced. -/

theorem withPatterns_expression :
    (self.withPatterns patterns).expression = self.expression := by cases patterns <;> rfl

theorem withPatterns_operand : (self.withPatterns patterns).operand = self.operand := by
  cases patterns <;> rfl

theorem withPatterns_statement : (self.withPatterns patterns).statement = self.statement := by
  cases patterns <;> rfl

theorem withPatterns_bindingTarget : (self.withPatterns (patterns + 1)).bindingTarget =
    readBindingTarget (self.withPatterns patterns) :=
  funext fun s => by rw [Productions.withPatterns]

theorem withPatterns_assignmentPattern : (self.withPatterns (patterns + 1)).assignmentPattern =
    readAssignmentPattern (self.withPatterns patterns) :=
  funext fun s => by rw [Productions.withPatterns]

theorem around_expression (power : Nat) :
    self.around.expression power = readExpression self power := rfl

theorem around_operand : self.around.operand = readOperand self := rfl

theorem around_statement (inList : Bool) :
    self.around.statement inList = readStatement self inList := rfl

end

/-- The productions in a number of layers, in each of which patterns nest at most `patterns`
times. -/
def layered (patterns : Nat) : Nat → Productions
  | 0 => productions 0
  | layers + 1 => (layered patterns layers).around.withPatterns patterns

/-! ## Steps that stand in for others -/

/-- From states with at most `k` levels to go, the second step does what the first one does, unless
the first runs out of fuel. -/
class Refines (k : Nat) (step step' : Reading α) : Prop where
  run_eq {s : State} : s.Ready → s.depth ≤ s.options.maxDepth → s.options.maxDepth < s.depth + k →
    (step.run.run s).1 ≠ .error .outOfFuel → step'.run.run s = step.run.run s

namespace Refines

variable {first first' : Reading α} {next next' : α → Reading β} {step step' : Reading α}

instance (priority := low) refl (step : Reading α) : Refines k step step := ⟨fun _ _ _ _ => rfl⟩

/-- No state has no level to go. -/
theorem zero (step step' : Reading α) : Refines 0 step step' :=
  ⟨fun _ hle hlt => absurd hlt (Nat.not_lt_of_le hle)⟩

theorem outOfFuel (step : Reading α) : Refines k (throw .outOfFuel) step :=
  ⟨fun _ _ _ hfuel => absurd rfl hfuel⟩

protected theorem bind (hsteady : Steady 0 first) (hfirst : Refines k first first')
    (hnext : ∀ a, Refines k (next a) (next' a)) :
    Refines k (first >>= next) (first' >>= next') := by
  refine ⟨fun {s} hs hle hlt hfuel => ?_⟩
  have hmeets := (hsteady.meets hs (False.elim : False → _)).outcome
  rw [run_bind] at hfuel
  rw [run_bind, run_bind]
  rcases hrun : first.run.run s with ⟨stop | a, s'⟩ <;> rw [hrun] at hfuel hmeets
  · have hstop : (first.run.run s).1 ≠ .error .outOfFuel := by
      rw [hrun]
      exact fun heq => hfuel (congrArg _ (Except.error.inj heq))
    rw [hfirst.run_eq hs hle hlt hstop, hrun]
  · have hgoes : (first.run.run s).1 ≠ .error .outOfFuel := by
      rw [hrun]
      exact nofun
    have hreaches : s.Reaches s' := hmeets
    rw [hfirst.run_eq hs hle hlt hgoes, hrun]
    refine (hnext a).run_eq hreaches.ready ?_ ?_ hfuel
    · rwa [hreaches.depth, hreaches.maxDepth]
    · rwa [hreaches.depth, hreaches.maxDepth]

instance [hsteady : Steady 0 first] [hfirst : Refines k first first']
    [hnext : ∀ a, Refines k (next a) (next' a)] : Refines k (first >>= next) (first' >>= next') :=
  .bind hsteady hfirst hnext

instance (priority := low) [hconsumes : Consumes 0 first] [hfirst : Refines k first first']
    [hnext : ∀ a, Refines k (next a) (next' a)] : Refines k (first >>= next) (first' >>= next') :=
  .bind hconsumes.steady hfirst hnext

/-- To look at the options leaves everything as it is. -/
instance {next next' : Options → Reading α} [hnext : ∀ o, Refines k (next o) (next' o)] :
    Refines k (options >>= next) (options >>= next') :=
  ⟨fun {s} hs hle hlt hfuel => (hnext s.options).run_eq hs hle hlt hfuel⟩

instance {c : Prop} [Decidable c] {yes yes' no no' : Reading α} [hyes : Refines k yes yes']
    [hno : Refines k no no'] : Refines k (if c then yes else no) (if c then yes' else no') := by
  split
  · exact hyes
  · exact hno

/-- One level deeper there is one level less to go. -/
theorem nested (hstep : Refines (k - 1) step step') :
    Refines k (nested step) (Reading.nested step') := by
  refine ⟨fun {s} hs hle hlt hfuel => ?_⟩
  let deeper : State := { s with depth := s.depth + 1 }
  have hrun (step : Reading α) : (Reading.nested step).run.run s =
      (if s.options.maxDepth < s.depth + 1 then halt .tooDeep s.lookahead.position
      else step >>= fun a => do
        modify fun s => { s with depth := s.depth - 1 }
        pure a : Reading α).run.run deeper := rfl
  rw [hrun] at hfuel
  rw [hrun, hrun]
  split
  · rfl
  next hdeeper =>
    rw [if_neg hdeeper, run_bind] at hfuel
    have hinside : (step.run.run deeper).1 ≠ .error .outOfFuel := by
      intro heq
      rcases hresult : step.run.run deeper with ⟨stop | a, s'⟩ <;> rw [hresult] at heq hfuel
      · exact hfuel (congrArg _ (Except.error.inj heq))
      · cases heq
    have hlevels : s.options.maxDepth < s.depth + 1 + (k - 1) := by omega
    have hsame : step'.run.run deeper = step.run.run deeper :=
      hstep.run_eq hs (Nat.le_of_not_lt hdeeper) hlevels hinside
    rw [run_bind, run_bind, hsame]

theorem nested_succ (hstep : Refines k step step') :
    Refines (k + 1) (Reading.nested step) (Reading.nested step') := .nested hstep

instance [hstep : Refines (k - 1) step step'] :
    Refines k (Reading.nested step) (Reading.nested step') := .nested hstep

/-- Whether `in` is an operator makes no difference for the levels. -/
theorem of_runUnder {whole whole' : Reading α} (hstep : Refines k step step')
    (hrun : ∀ s, ∃ before after, whole.run.run s = runUnder step before after s ∧
      whole'.run.run s = runUnder step' before after s) : Refines k whole whole' := by
  refine ⟨fun {s} hs hle hlt hfuel => ?_⟩
  obtain ⟨before, after, hwhole, hwhole'⟩ := hrun s
  have hready : (s.restrict before).Ready := hs
  rw [hwhole] at hfuel
  rw [hwhole, hwhole']
  unfold runUnder at hfuel ⊢
  have hinside : (step.run.run (s.restrict before)).1 ≠ .error .outOfFuel := by
    intro heq
    rcases hresult : step.run.run (s.restrict before) with ⟨stop | a, s'⟩ <;>
      rw [hresult] at heq hfuel
    · exact hfuel (congrArg _ (Except.error.inj heq))
    · cases heq
  rw [hstep.run_eq hready hle hlt hinside]

instance [hstep : Refines k step step'] : Refines k (allowingIn step) (allowingIn step') :=
  .of_runUnder hstep fun s => ⟨_, _, run_allowingIn step s, run_allowingIn step' s⟩

instance [hstep : Refines k step step'] : Refines k (excludingIn step) (excludingIn step') :=
  .of_runUnder hstep fun s => ⟨_, _, run_excludingIn step s, run_excludingIn step' s⟩

/-! ## Loops -/

theorem iterate {round round' : σ → Reading (Round σ α)}
    (hsteady : ∀ state, Steady 0 (round state))
    (hround : ∀ state, Refines k (round state) (round' state)) (fuel : Nat) (state : σ) :
    Refines k (iterate round fuel state) (Reading.iterate round' fuel state) := by
  induction fuel generalizing state with
  | zero => exact .refl _
  | succ fuel ih =>
      refine .bind (hsteady state) (hround state) fun r => ?_
      cases r with
      | again state => exact ih state
      | done answer => exact .refl _

protected theorem repeatFrom {state : σ} {round round' : σ → Reading (Round σ α)}
    (hsteady : ∀ state, Steady 0 (round state))
    (hround : ∀ state, Refines k (round state) (round' state)) :
    Refines k (repeatFrom state round) (repeatFrom state round') := by
  refine ⟨fun {s} hs hle hlt hfuel => ?_⟩
  -- The bound on the number of rounds is a matter of the state alone.
  let rounds := s.size - s.lookahead.position.offset + 4
  have hrun (round : σ → Reading (Round σ α)) : (repeatFrom state round).run.run s =
      (Reading.iterate round rounds state).run.run s := rfl
  rw [hrun] at hfuel
  rw [hrun, hrun]
  exact (Refines.iterate hsteady hround rounds state).run_eq hs hle hlt hfuel

instance {state : σ} {round round' : σ → Reading (Round σ α)}
    [hadvances : ∀ state, Advances 0 (round state)]
    [hround : ∀ state, Refines k (round state) (round' state)] :
    Refines k (repeatFrom state round) (repeatFrom state round') :=
  .repeatFrom (fun state => (hadvances state).steady) hround

instance {round round' : Reading Bool} [hadvances : Advances 0 round] [Refines k round round'] :
    Refines k (repeatWhile round) (repeatWhile round') := by
  have hsteady := hadvances.steady
  exact .repeatFrom (fun _ => inferInstance) fun _ => inferInstance

instance {closer : String} {item item' : σ → Reading (Round σ σ)}
    {afterComma : σ → Position → Reading Unit} {state : σ} [∀ state, Steady 0 (item state)]
    [hitem : ∀ state, Refines k (item state) (item' state)] :
    Refines k (commaRound closer item afterComma state)
      (commaRound closer item' afterComma state) := by
  unfold commaRound
  refine .bind inferInstance (.refl _) fun closed => ?_
  split
  · exact .refl _
  · refine .bind inferInstance (hitem state) fun r => ?_
    exact .refl _

instance {closer : String} {state : σ} {item item' : σ → Reading (Round σ σ)}
    {afterComma : σ → Position → Reading Unit} [∀ state, Steady 0 (item state)]
    [∀ state comma, Steady 0 (afterComma state comma)]
    [∀ state, Refines k (item state) (item' state)] :
    Refines k (commaList closer state item afterComma)
      (commaList closer state item' afterComma) := by
  unfold commaList
  infer_instance

end Refines

/-- The second table stands in for the first one with at most `k` levels to go. Operands are only
read one level deeper. -/
class Productions.Refines (k : Nat) (table table' : Productions) : Prop where
  expression (power : Nat) : Reading.Refines k (table.expression power) (table'.expression power)
  operand : Reading.Refines (k - 1) table.operand table'.operand
  statement (inList : Bool) : Reading.Refines k (table.statement inList) (table'.statement inList)
  bindingTarget : Reading.Refines k table.bindingTarget table'.bindingTarget
  assignmentPattern : Reading.Refines k table.assignmentPattern table'.assignmentPattern

namespace Refines

section

variable {self self' : Productions} [hself : self.Refines k self']

instance (power : Nat) : Refines k (self.expression power) (self'.expression power) :=
  hself.expression power

instance : Refines (k - 1) self.operand self'.operand := hself.operand

instance (inList : Bool) : Refines k (self.statement inList) (self'.statement inList) :=
  hself.statement inList

instance : Refines k self.bindingTarget self'.bindingTarget := hself.bindingTarget

instance : Refines k self.assignmentPattern self'.assignmentPattern := hself.assignmentPattern

instance : Refines k self.anyExpression self'.anyExpression := hself.expression 0

instance : Refines k self.element self'.element := hself.expression _

end

end Refines

end ScriptLint.Reading

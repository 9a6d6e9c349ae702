import ScriptLint.Proofs.Lexing.Run
import ScriptLint.Proofs.Reading.Stepwise

/-! # Where `in` is no operator

In the first part of the head of a `for` loop `in` is no operator. Whether it is one is asked only
where it comes next, so a step that does not come across the word takes the same course with the
restriction and without. A step may lift the restriction for what follows, but it never imposes it.
-/

namespace ScriptLint.Reading

variable {α β : Type}

/-- The state with `in` excluded from the operators, or admitted. -/
@[reducible] def State.restrict (s : State) (excluded : Bool) : State :=
  { s with inExcluded := excluded }

/-! ## Steps that do not ask -/

/-- The step is the same with the restriction and without, and leaves it as it is. -/
def IgnoresIn (step : Reading α) : Prop :=
  ∀ s excluded, step.run.run (s.restrict excluded) =
    ((step.run.run s).1, (step.run.run s).2.restrict excluded)

namespace IgnoresIn

theorem pure (a : α) : IgnoresIn (Pure.pure a) := fun _ _ => rfl

theorem bind {first : Reading α} {next : α → Reading β} (hfirst : IgnoresIn first)
    (hnext : ∀ a, IgnoresIn (next a)) : IgnoresIn (first >>= next) := by
  intro s excluded
  rw [run_bind, run_bind, hfirst s excluded]
  rcases first.run.run s with ⟨stop | a, s'⟩
  · rfl
  · exact hnext a s' excluded

theorem observe {next : State → Reading α} (hnext : ∀ s, IgnoresIn (next s))
    (hsame : ∀ s excluded, next (s.restrict excluded) = next s := by intros; rfl) :
    IgnoresIn (get >>= next) := by
  intro s excluded
  change (next (s.restrict excluded)).run.run (s.restrict excluded) = _
  rw [hsame]
  exact hnext s s excluded

theorem change {change : State → State} (hchange : ∀ s excluded,
    change (s.restrict excluded) = (change s).restrict excluded := by intros; rfl) :
    IgnoresIn (modify change) := by
  intro s excluded
  exact congrArg (Prod.mk (Except.ok ())) (hchange s excluded)

theorem inScopes (action : Scope.Action α) : IgnoresIn (inScopes action) := by
  intro s excluded
  rw [run_inScopes, run_inScopes]

theorem halt (reason : Halt) (position : Position) : IgnoresIn (halt reason position : Reading α) :=
  .observe fun _ => .bind .change fun _ _ _ => rfl

theorem inExcluded_eq {step : Reading α} (hstep : IgnoresIn step) (s : State) :
    (step.run.run s).2.inExcluded = s.inExcluded :=
  congrArg (fun result => result.2.inExcluded) (hstep s s.inExcluded)

end IgnoresIn

/-! ## Steps that ask where `in` comes next -/

/-- No token from the one that comes next in the first state to the one in the second is the word
`in`. -/
def State.FreeOfIn (s s' : State) : Prop :=
  ∀ t : Token, s.lookahead.LeadsTo t → t.LeadsTo s'.lookahead → t.isKeyword "in" = false

theorem State.FreeOfIn.left {s s' s'' : State} (hfree : s.FreeOfIn s'')
    (hleads : s'.lookahead.LeadsTo s''.lookahead) : s.FreeOfIn s' :=
  fun t ht ht' => hfree t ht (ht'.trans hleads)

theorem State.FreeOfIn.right {s s' s'' : State} (hfree : s.FreeOfIn s'')
    (hleads : s.lookahead.LeadsTo s'.lookahead) : s'.FreeOfIn s'' :=
  fun t ht ht' => hfree t (hleads.trans ht) ht'

/-- The step from the state depends on the restriction only through the word `in`, and does not
impose it. -/
structure MindsIn (step : Reading α) (s : State) : Prop where
  lifts : ∀ a s', step.run.run s = (.ok a, s') → s'.inExcluded → s.inExcluded
  alike : s.FreeOfIn (step.run.run s).2 → ∀ excluded, ∃ excluded',
    step.run.run (s.restrict excluded) =
      ((step.run.run s).1, (step.run.run s).2.restrict excluded')

namespace MindsIn

variable {s : State}

theorem of_ignores {step : Reading α} (hstep : IgnoresIn step) (s : State) : MindsIn step s where
  lifts a s' hrun hexcluded := by
    have hsame := hstep.inExcluded_eq s
    rw [hrun] at hsame
    exact hsame ▸ hexcluded
  alike _ excluded := ⟨excluded, hstep s excluded⟩

theorem observe {next : State → Reading α} (hnext : MindsIn (next s) s)
    (hsame : ∀ excluded, next (s.restrict excluded) = next s) : MindsIn (get >>= next) s where
  lifts := hnext.lifts
  alike hfree excluded := by
    change ∃ _, (next (s.restrict excluded)).run.run (s.restrict excluded) = _
    rw [hsame]
    exact hnext.alike hfree excluded

theorem bind {first : Reading α} {next : α → Reading β} (hfirst : MindsIn first s)
    (hleads : s.lookahead.LeadsTo (first.run.run s).2.lookahead)
    (hnext : ∀ a s', first.run.run s = (.ok a, s') →
      MindsIn (next a) s' ∧ s'.lookahead.LeadsTo ((next a).run.run s').2.lookahead) :
    MindsIn (first >>= next) s := by
  have hrun := run_bind first next s
  rcases hmiddle : first.run.run s with ⟨stop | a, s'⟩ <;> rw [hmiddle] at hrun hleads
  · refine ⟨fun a s'' hrun' => ?_, fun hfree excluded => ?_⟩
    · rw [hrun] at hrun'
      cases hrun'
    · rw [hrun] at hfree ⊢
      obtain ⟨excluded', halike⟩ := hfirst.alike (by rwa [hmiddle]) excluded
      rw [hmiddle] at halike
      exact ⟨excluded', by rw [run_bind, halike]⟩
  · obtain ⟨hminds, hleads'⟩ := hnext a s' hmiddle
    refine ⟨fun b s'' hrun' hexcluded => ?_, fun hfree excluded => ?_⟩
    · rw [hrun] at hrun'
      exact hfirst.lifts a s' hmiddle (hminds.lifts b s'' hrun' hexcluded)
    · rw [hrun] at hfree ⊢
      obtain ⟨excluded', halike⟩ := hfirst.alike (hmiddle ▸ hfree.left hleads') excluded
      obtain ⟨excluded'', halike'⟩ := hminds.alike (hfree.right hleads) excluded'
      rw [hmiddle] at halike
      refine ⟨excluded'', ?_⟩
      rw [run_bind, halike]
      exact halike'

end MindsIn

/-! ## Steps that impose or lift it -/

/-- The run of a step under a restriction of its own, and with another one set afterwards. -/
def runUnder (step : Reading α) (before after : Bool) (s : State) : Except Stop α × State :=
  match step.run.run (s.restrict before) with
  | (.ok a, s') => (.ok a, s'.restrict after)
  | (.error stop, s') => (.error stop, s')

theorem run_allowingIn (step : Reading α) (s : State) :
    (allowingIn step).run.run s = runUnder step false s.inExcluded s := by
  change (step >>= fun a => setInExcluded s.inExcluded >>= fun _ => pure a).run.run
    (s.restrict false) = _
  rw [run_bind, runUnder]
  rcases step.run.run (s.restrict false) with ⟨stop | a, s'⟩ <;> rfl

theorem run_excludingIn (step : Reading α) (s : State) :
    (excludingIn step).run.run s = runUnder step true false s := by
  change (step >>= fun a => setInExcluded false >>= fun _ => pure a).run.run (s.restrict true) = _
  rw [run_bind, runUnder]
  rcases step.run.run (s.restrict true) with ⟨stop | a, s'⟩ <;> rfl

/-- The operator that a token is behind an operand, if the place admits it. -/
def operatorAt? (power : Nat) (excluded : Bool) (t : Token) : Option (Symbol × OperatorForm) :=
  match (Symbol.ofToken t).operator? with
  | none => none
  | some form =>
    if excluded || (Symbol.ofToken t).power ≤ power || (form = .update && t.flags.newlineBefore)
    then none else some (Symbol.ofToken t, form)

theorem run_nextOperator? (power : Nat) (s : State) : (nextOperator? power).run.run s =
    (.ok (operatorAt? power (s.inExcluded && s.lookahead.isKeyword "in") s.lookahead), s) := by
  change ((match (Symbol.ofToken s.lookahead).operator? with
    | none => pure none
    | some form => ite _ (pure none) (pure (some (Symbol.ofToken s.lookahead, form))) :
      Reading (Option (Symbol × OperatorForm)))).run.run s = _
  unfold operatorAt?
  split
  · rfl
  · split <;> rfl

namespace MindsIn

variable {s : State}

/-- With a restriction of its own, a step does not depend on the one from outside. -/
theorem of_runUnder {step whole : Reading α} (before : Bool) (after : Bool → Bool)
    (hafter : ∀ excluded, after excluded → excluded)
    (hrun : ∀ s, whole.run.run s = runUnder step before (after s.inExcluded) s) (s : State) :
    MindsIn whole s := by
  have hsame (excluded : Bool) :
      whole.run.run (s.restrict excluded) = runUnder step before (after excluded) s :=
    hrun (s.restrict excluded)
  constructor
  · intro a s' h hexcluded
    rw [hrun, runUnder] at h
    split at h <;> cases h
    exact hafter _ hexcluded
  · intro _ excluded
    rw [hsame, hrun]
    unfold runUnder
    split
    · exact ⟨after excluded, rfl⟩
    · exact ⟨_, rfl⟩

/-- Inside brackets there is no restriction, and after them it is what it was. -/
theorem allowingIn (step : Reading α) (s : State) : MindsIn (allowingIn step) s :=
  of_runUnder false id (fun _ => id) (run_allowingIn step) s

/-- The restriction is lifted after a step that it was imposed on. -/
theorem excludingIn (step : Reading α) (s : State) : MindsIn (excludingIn step) s :=
  of_runUnder true (fun _ => false) (fun _ => nofun) (run_excludingIn step) s

/-- Only where the word `in` comes next is the restriction looked at. -/
theorem nextOperator? (power : Nat) (s : State) : MindsIn (nextOperator? power) s := by
  constructor
  · intro _ _ h hexcluded
    rw [run_nextOperator?] at h
    cases h
    exact hexcluded
  · intro hfree excluded
    have hword : s.lookahead.isKeyword "in" = false := hfree _ .refl (run_nextOperator? .. ▸ .refl)
    refine ⟨excluded, ?_⟩
    rw [run_nextOperator?, run_nextOperator?, hword, Bool.and_false, Bool.and_false]

end MindsIn

end ScriptLint.Reading

import ScriptLint.Proofs.Scope.Stepwise
import ScriptLint.Proofs.Scope.Rest

/-! # Rejected declarations

A declaration is rejected when the name is taken. What counts as taken depends on the form of the
declaration: one that belongs to its block looks at the names of the block and at those that passed
through it, and one that passes through blocks looks at all of these and at the function in which it
comes to rest. A declaration whose name is free may be remarked on, but it is not rejected.
-/

namespace ScriptLint.Scope

/-! ## Forms of declarations -/

/-- The forms of declarations that may conflict. -/
inductive Form where
  /-- A `let`, a `const` or a `class`. -/
  | lexical (kind : BindingKind) (hkind : kind.isLexical)
  /-- A function in a block. -/
  | blockFunction
  /-- A `var`, or a function that is not in a block. -/
  | hoisted (kind : BindingKind) (hkind : kind = .varName ∨ kind = .function)

namespace Form

/-- The kind of the binding that the declaration makes. -/
def kind : Form → BindingKind
  | lexical kind _ | hoisted kind _ => kind
  | blockFunction => .function

/-- Whether the declaration is one of its block. Otherwise it comes to rest in the function. -/
def isLexical : Form → Bool
  | lexical _ _ | blockFunction => true
  | hoisted _ _ => false

/-- The operation that makes a declaration of the form. -/
def operation (name : String) (position : Position) : Form → Operation
  | lexical kind _ | hoisted kind _ => .declare name kind position
  | blockFunction => .declareBlockFunction name position

theorem perform_lexical (name : String) (position : Position) {kind : BindingKind}
    (hkind : kind.isLexical) :
    ((lexical kind hkind).operation name position).perform =
      Action.declareLexical name kind position := by
  cases kind <;> first | rfl | exact absurd hkind (by decide)

theorem perform_hoisted (name : String) (position : Position) {kind : BindingKind}
    (hkind : kind = .varName ∨ kind = .function) :
    ((hoisted kind hkind).operation name position).perform =
      Action.declareHoisted name kind position := by
  rcases hkind with rfl | rfl <;> rfl

/-- Whether the name is taken for a declaration of the form. -/
def IsTaken (t : Tracker) (name : String) : Form → Prop
  | lexical _ _ =>
    (∃ b, t.current.find? name = some b ∧ b.implicit = false) ∨
      t.current.find? name = none ∧ name ∈ t.current.hoisted
  | blockFunction =>
    (∃ b, t.current.find? name = some b ∧ (b.kind ≠ .function ∨ t.isStrict)) ∨
      t.current.find? name = none ∧ name ∈ t.current.hoisted
  | hoisted _ _ =>
    (∃ i ∈ t.innerIds, (t.frame i).blocksVar name) ∨
      ∃ b, t.functionFrame.find? name = some b ∧ (b.kind.isLexical ∨ b.kind = .imported)

end Form

namespace Action

theorem run_tracker_bind {α : Type} (next : Tracker → Action α) (s : Session) :
    (tracker >>= next).run.run s = (next s.tracker).run.run s := rfl

/-- The action rejects the declaration if the name is taken, and otherwise rejects nothing. -/
structure Judges (action : Action Unit) (name : String) (position : Position) (taken : Prop)
    (s : Session) : Prop where
  rejects : taken → ∃ scope, (action.run.run s).2.sink =
    (s.sink.report "E011" position [name] scope).2
  spares : ¬ taken → ∀ d ∈ (action.run.run s).2.sink.accepted, d.code = "E011" →
    d ∈ s.sink.accepted

namespace Judges

variable {name : String} {position : Position} {taken : Prop} {s : Session}

theorem tracker_bind {next : Tracker → Action Unit}
    (hnext : (next s.tracker).Judges name position taken s) :
    (tracker >>= next).Judges name position taken s := ⟨hnext.rejects, hnext.spares⟩

theorem update_bind {change : Tracker → Tracker} {next : Action Unit}
    (hnext : next.Judges name position taken { s with tracker := change s.tracker }) :
    (update change >>= fun _ => next).Judges name position taken s :=
  ⟨hnext.rejects, hnext.spares⟩

theorem reject (htaken : taken) : (reject "E011" name position).Judges name position taken s := by
  refine ⟨fun _ => ⟨s.tracker.functionName, ?_⟩, fun hfree => absurd htaken hfree⟩
  unfold Action.reject
  rw [run_tracker_bind, run_report]

/-- Other remarks are no rejections. -/
theorem keep (hfree : ¬ taken) {action : Action Unit}
    [haction : ReportsOnly ["W004", "W079", "W123"] action] :
    action.Judges name position taken s :=
  ⟨fun htaken => absurd htaken hfree, fun _ _ => haction.spares (by decide) s⟩

theorem ite {c : Prop} [Decidable c] {action : Action Unit} (hrejected : c → taken)
    (hkept : ¬ c → action.Judges name position taken s) :
    (if c then Action.reject "E011" name position else action).Judges name position taken s := by
  by_cases hc : c
  · rw [if_pos hc]
    exact .reject (hrejected hc)
  · rw [if_neg hc]
    exact hkept hc

end Judges

variable (name : String) (position : Position) (s : Session)

theorem declareLexical_judges {kind : BindingKind} (hkind : kind.isLexical) :
    (declareLexical name kind position).Judges name position
      ((Form.lexical kind hkind).IsTaken s.tracker name) s := by
  refine .tracker_bind ?_
  dsimp only
  split
  next b hfind =>
    by_cases himplicit : b.implicit
    · rw [if_pos himplicit]
      refine .keep ?_
      simp [Form.IsTaken, Tracker.current, hfind, himplicit]
    · rw [if_neg himplicit]
      exact .reject (.inl ⟨b, hfind, Bool.eq_false_iff.mpr himplicit⟩)
  next hfind =>
    refine .ite (fun h => .inr ⟨hfind, List.contains_iff_mem.mp h⟩) fun h => ?_
    refine .keep ?_
    simpa [Form.IsTaken, Tracker.current, hfind] using h

theorem declareBlockFunction_judges :
    (declareBlockFunction name position).Judges name position
      (Form.blockFunction.IsTaken s.tracker name) s := by
  refine .tracker_bind ?_
  dsimp only
  split
  next b hfind =>
    refine .ite (fun h => .inl ⟨b, hfind, by simpa using h⟩) fun h => .keep ?_
    simpa [Form.IsTaken, Tracker.current, hfind] using h
  next hfind =>
    refine .ite (fun h => .inr ⟨hfind, List.contains_iff_mem.mp h⟩) fun h => ?_
    refine .keep ?_
    simpa [Form.IsTaken, Tracker.current, hfind] using h

theorem declareHoisted_judges {kind : BindingKind} (hkind : kind = .varName ∨ kind = .function) :
    (declareHoisted name kind position).Judges name position
      ((Form.hoisted kind hkind).IsTaken s.tracker name) s := by
  refine .tracker_bind (.ite (fun h => .inl (List.any_eq_true.mp h)) fun hpassed => ?_)
  -- The blocks let the name pass, so it is the function that counts.
  rw [List.any_eq_true] at hpassed
  refine .update_bind ?_
  dsimp only
  split
  next hfind =>
    refine .keep (not_or.mpr ⟨hpassed, ?_⟩)
    simp [Tracker.functionFrame, hfind]
  next b hfind =>
    refine .ite (fun h => .inr ⟨b, hfind, by simpa using h⟩) fun h => ?_
    refine .keep (not_or.mpr ⟨hpassed, ?_⟩)
    simpa [Tracker.functionFrame, hfind] using h

/-- A declaration of each form is rejected if and only if the name is taken. -/
theorem perform_judges (form : Form) :
    (form.operation name position).perform.Judges name position
      (form.IsTaken s.tracker name) s := by
  cases form with
  | lexical kind hkind =>
      rw [Form.perform_lexical]
      exact declareLexical_judges name position s hkind
  | blockFunction => exact declareBlockFunction_judges name position s
  | hoisted kind hkind =>
      rw [Form.perform_hoisted]
      exact declareHoisted_judges name position s hkind

end Action

end ScriptLint.Scope

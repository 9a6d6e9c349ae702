import ScriptLint.Proofs.Diagnostic.History
import ScriptLint.Scope.Declare
import ScriptLint.Scope.Resolve

/-! # Steps and codes of scope analysis

What the operations of scope analysis are put together from, and with which codes they report.
-/

/-! ## The steps of scope analysis

Every operation of scope analysis is put together from four kinds of steps: an answer, a look at the
tracker, a change of the tracker, and a report. None looks into the sink, and none goes on after a
report that ended the analysis. That each operation is of this form is found by the search for
instances, which follows the definition.
-/

namespace ScriptLint.Scope.Action

variable {α β : Type}

theorem run_bind (first : Action α) (next : α → Action β) (s : Session) :
    (first >>= next).run.run s =
      match first.run.run s with
      | (.ok a, s') => (next a).run.run s'
      | (.error reason, s') => (.error reason, s') := by
  change (match first.run.run s with | (outcome, s') => ExceptT.bindCont next outcome s') = _
  rcases first.run.run s with ⟨_ | _, s'⟩ <;> rfl

theorem run_report (code : String) (position : Position) (arguments : List String) (scope : String)
    (hcode : Halt.IsRegular code) (s : Session) :
    (report code position arguments scope hcode).run.run s =
      ((s.sink.report code position arguments scope).1,
        { s with sink := (s.sink.report code position arguments scope).2 }) := by
  have hget : (get : Action Session).run.run s = (.ok s, s) := rfl
  unfold report
  rw [run_bind, hget]
  dsimp only
  rcases s.sink.report code position arguments scope with ⟨_ | _, sink⟩ <;> rfl

/-- An action that is put together from looks at the tracker, changes of it, and reports. -/
class inductive Stepwise : {α : Type} → Action α → Prop
  | pure {α : Type} (a : α) : Stepwise (Pure.pure a : Action α)
  | bind {α β : Type} {first : Action α} {next : α → Action β} :
      Stepwise first → (∀ a, Stepwise (next a)) → Stepwise (first >>= next)
  | tracker : Stepwise tracker
  | update (change : Tracker → Tracker) : Stepwise (update change)
  | report (code : String) (position : Position) (arguments : List String) (scope : String)
      (hcode : Halt.IsRegular code) : Stepwise (report code position arguments scope hcode)

namespace Stepwise

attribute [instance] Stepwise.pure Stepwise.tracker Stepwise.update Stepwise.report

instance {first : Action α} {next : α → Action β} [hfirst : Stepwise first]
    [hnext : ∀ a, Stepwise (next a)] : Stepwise (first >>= next) := .bind hfirst hnext

instance {c : Prop} [Decidable c] {first second : Action α} [hfirst : Stepwise first]
    [hsecond : Stepwise second] : Stepwise (if c then first else second) := by
  split <;> infer_instance

instance {items : List α} {step : α → Action PUnit} [∀ a, Stepwise (step a)] :
    Stepwise (items.forM step) := by
  induction items with
  | nil => exact .pure _
  | cons a rest ih => exact .bind inferInstance fun _ => ih

/-- What every report does to the sink, in steps that add up, an action does. -/
theorem relates {R : Sink → Sink → Prop} (hrefl : ∀ a, R a a)
    (htrans : ∀ {a b c}, R a b → R b c → R a c)
    (hreport : ∀ a code position arguments scope,
      R a (a.report code position arguments scope).2)
    {action : Action α} (haction : action.Stepwise) (s : Session) :
    R s.sink (action.run.run s).2.sink := by
  induction haction generalizing s with
  | pure | tracker | update => exact hrefl _
  | report code position arguments scope hcode =>
      rw [run_report]
      exact hreport _ code position arguments scope
  | @bind α β first next hfirst hnext ihfirst ihnext =>
      have hmiddle := ihfirst s
      rw [run_bind]
      rcases hrun : first.run.run s with ⟨reason | a, s'⟩ <;> rw [hrun] at hmiddle
      · exact hmiddle
      · exact htrans hmiddle (ihnext a s')

/-! ## Declarations -/

instance (name : String) (target : Nat) (position : Position) :
    Stepwise (checkNew name target position) := by
  unfold checkNew
  infer_instance

instance (target : Nat) (binding : Binding) : Stepwise (bindNew target binding) := by
  unfold bindNew
  infer_instance

instance (code name : String) (position : Position) (hcode : Halt.IsRegular code) :
    Stepwise (reject code name position hcode) := by
  unfold reject
  infer_instance

instance (name : String) (kind : BindingKind) (position : Position) :
    Stepwise (declareHoisted name kind position) := by
  unfold declareHoisted
  refine .bind inferInstance fun t => ?_
  split
  · infer_instance
  · refine .bind inferInstance fun _ => ?_
    dsimp only
    split <;> infer_instance

instance (name : String) (kind : BindingKind) (position : Position) :
    Stepwise (declareLexical name kind position) := by
  unfold declareLexical
  refine .bind inferInstance fun t => ?_
  dsimp only
  split <;> infer_instance

instance (name : String) (position : Position) :
    Stepwise (declareBlockFunction name position) := by
  unfold declareBlockFunction
  refine .bind inferInstance fun t => ?_
  dsimp only
  split <;> infer_instance

instance (name : String) (position : Position) (distinct : Bool) :
    Stepwise (declareParameter name position distinct) := by
  unfold declareParameter
  refine .bind inferInstance fun t => ?_
  dsimp only
  split <;> infer_instance

instance (name : String) (kind : BindingKind) (position : Position) :
    Stepwise (declare name kind position) := by
  unfold declare
  split <;> infer_instance

/-! ## Resolution -/

instance (b : Binding) (r : Reference) (scope : String) : Stepwise (remarkEarly b r scope) := by
  unfold remarkEarly
  infer_instance

instance (b : Binding) (r : Reference) (scope : String) : Stepwise (remarkWrite b r scope) := by
  unfold remarkWrite
  split <;> infer_instance

instance (b : Binding) (r : Reference) (scope : String) : Stepwise (remarkOutside b r scope) := by
  unfold remarkOutside
  refine .bind inferInstance fun t => ?_
  split <;> infer_instance

instance (frame : Nat) (b : Binding) (r : Reference) : Stepwise (resolveTo frame b r) := by
  unfold resolveTo
  infer_instance

instance (r : Reference) : Stepwise (resolveGlobal r) := by
  unfold resolveGlobal
  refine .bind inferInstance fun t => ?_
  dsimp only
  split <;> infer_instance

instance (frame id : Nat) : Stepwise (resolve frame id) := by
  unfold resolve
  refine .bind inferInstance fun t => ?_
  dsimp only
  split <;> infer_instance

instance (frame : Nat) : Stepwise (resolveAll frame) := by
  unfold resolveAll
  infer_instance

instance (frame : Nat) : Stepwise (reportUnused frame) := by
  unfold reportUnused
  infer_instance

instance : Stepwise exitScope := by
  unfold exitScope
  refine .bind inferInstance fun t => ?_
  split <;> infer_instance

instance : Stepwise finish := by
  unfold finish
  infer_instance

end Stepwise

end ScriptLint.Scope.Action

/-! ## The codes of scope analysis

Which codes each operation of scope analysis can report. A declaration is rejected or remarked on
with one of a few codes, and so is a reference when it is resolved; whatever else is in the sink
was there before. Which codes come into question is found by the search for instances.
-/

namespace ScriptLint.Scope

/-- Whether a code is one of a list, as the search for instances can tell. -/
class Listed (code : String) (codes : List String) : Prop where
  mem : code ∈ codes

instance (code : String) (codes : List String) : Listed code (code :: codes) :=
  ⟨List.mem_cons_self⟩

instance (code other : String) (codes : List String) [h : Listed code codes] :
    Listed code (other :: codes) := ⟨List.mem_cons_of_mem other h.mem⟩

namespace Action

variable {α β : Type} {codes : List String}

/-- Each diagnostic that the action adds has one of the codes. -/
class ReportsOnly (codes : List String) (action : Action α) : Prop where
  mem (s : Session) : ∀ d ∈ (action.run.run s).2.sink.accepted, d ∈ s.sink.accepted ∨ d.code ∈ codes

namespace ReportsOnly

instance (a : α) : ReportsOnly codes (Pure.pure a : Action α) := ⟨fun _ _ => .inl⟩

instance : ReportsOnly codes tracker := ⟨fun _ _ => .inl⟩

instance (change : Tracker → Tracker) : ReportsOnly codes (update change) := ⟨fun _ _ => .inl⟩

instance (code : String) [hlisted : Listed code codes] (position : Position)
    (arguments : List String) (scope : String) (hcode : Halt.IsRegular code) :
    ReportsOnly codes (report code position arguments scope hcode) := by
  constructor
  intro s d hmem
  rw [run_report] at hmem
  rcases Sink.mem_report_accepted hmem with hold | rfl
  · exact .inl hold
  · exact .inr hlisted.mem

protected theorem bind {first : Action α} {next : α → Action β} (hfirst : ReportsOnly codes first)
    (hnext : ∀ a, ReportsOnly codes (next a)) : ReportsOnly codes (first >>= next) := by
  constructor
  intro s d hmem
  rw [run_bind] at hmem
  have hmiddle := hfirst.mem s
  rcases hrun : first.run.run s with ⟨reason | a, s'⟩ <;> rw [hrun] at hmem hmiddle
  · exact hmiddle d hmem
  · rcases (hnext a).mem s' d hmem with hold | hnew
    · exact hmiddle d hold
    · exact .inr hnew

instance {first : Action α} {next : α → Action β} [hfirst : ReportsOnly codes first]
    [hnext : ∀ a, ReportsOnly codes (next a)] : ReportsOnly codes (first >>= next) :=
  .bind hfirst hnext

instance {c : Prop} [Decidable c] {first second : Action α} [hfirst : ReportsOnly codes first]
    [hsecond : ReportsOnly codes second] : ReportsOnly codes (if c then first else second) := by
  split <;> infer_instance

instance {items : List α} {step : α → Action PUnit} [∀ a, ReportsOnly codes (step a)] :
    ReportsOnly codes (items.forM step) := by
  induction items with
  | nil => exact inferInstanceAs (ReportsOnly codes (Pure.pure ⟨⟩ : Action PUnit))
  | cons a rest ih => exact .bind inferInstance fun _ => ih

/-- A code that is not among them is not reported. -/
theorem spares {action : Action α} (haction : ReportsOnly codes action) {code : String}
    (hcode : code ∉ codes) (s : Session) {d : Diagnostic}
    (hmem : d ∈ (action.run.run s).2.sink.accepted) (hd : d.code = code) : d ∈ s.sink.accepted :=
  (haction.mem s d hmem).resolve_right fun h => hcode (hd ▸ h)

/-! ## Declarations -/

/-- The codes of remarks on declarations. -/
abbrev declarationCodes : List String := ["E011", "W004", "W079", "W123"]

instance [Listed "W079" codes] [Listed "W123" codes] (name : String) (target : Nat)
    (position : Position) : ReportsOnly codes (checkNew name target position) := by
  unfold checkNew
  infer_instance

instance [Listed "W079" codes] [Listed "W123" codes] (target : Nat) (binding : Binding) :
    ReportsOnly codes (bindNew target binding) := by
  unfold bindNew
  infer_instance

instance (code name : String) [Listed code codes] (position : Position)
    (hcode : Halt.IsRegular code) : ReportsOnly codes (reject code name position hcode) := by
  unfold reject
  infer_instance

instance (name : String) (kind : BindingKind) (position : Position) :
    ReportsOnly declarationCodes (declareHoisted name kind position) := by
  refine .bind inferInstance fun t => ?_
  split
  · infer_instance
  · refine .bind inferInstance fun _ => ?_
    dsimp only
    split <;> infer_instance

instance (name : String) (kind : BindingKind) (position : Position) :
    ReportsOnly declarationCodes (declareLexical name kind position) := by
  refine .bind inferInstance fun t => ?_
  dsimp only
  split <;> infer_instance

instance (name : String) (position : Position) :
    ReportsOnly declarationCodes (declareBlockFunction name position) := by
  refine .bind inferInstance fun t => ?_
  dsimp only
  split <;> infer_instance

instance (name : String) (position : Position) (distinct : Bool) :
    ReportsOnly declarationCodes (declareParameter name position distinct) := by
  refine .bind inferInstance fun t => ?_
  dsimp only
  split <;> infer_instance

instance (name : String) (kind : BindingKind) (position : Position) :
    ReportsOnly declarationCodes (declare name kind position) := by
  unfold declare
  split <;> infer_instance

/-! ## Resolution -/

instance (b : Binding) (r : Reference) (scope : String) :
    ReportsOnly ["E056", "W003"] (remarkEarly b r scope) := by
  unfold remarkEarly
  infer_instance

instance (b : Binding) (r : Reference) (scope : String) :
    ReportsOnly ["E013", "W021", "W022"] (remarkWrite b r scope) := by
  unfold remarkWrite Binding.writeRemark?
  cases b.kind <;> infer_instance

instance (b : Binding) (r : Reference) (scope : String) :
    ReportsOnly ["W038"] (remarkOutside b r scope) := by
  refine .bind inferInstance fun t => ?_
  dsimp only
  split <;> infer_instance

instance (r : Reference) : ReportsOnly ["W020", "W117"] (resolveGlobal r) := by
  refine .bind inferInstance fun t => ?_
  dsimp only
  split <;> infer_instance

instance (frame : Nat) : ReportsOnly ["W098"] (reportUnused frame) := by
  unfold reportUnused
  infer_instance

end ReportsOnly

end Action

end ScriptLint.Scope

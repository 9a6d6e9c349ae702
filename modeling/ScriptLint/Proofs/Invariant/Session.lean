import ScriptLint.Proofs.Invariant.Basic
import ScriptLint.Proofs.Lexing.Issue
import ScriptLint.Proofs.Nesting.Step

/-! # Reading as scope analysis

All that reading does to the tracker and the sink are operations of scope analysis, one after the
other. Those that come with tokens, which are their problems and the comments in front of them,
touch no frame and no reference.
-/

namespace ScriptLint

/-- A change of the sink that adds only diagnostics with some of the codes. -/
def Sink.AddsOnly (codes : List String) (change : Sink → Sink) : Prop :=
  ∀ a : Sink, ∀ d ∈ (change a).accepted, d ∈ a.accepted ∨ d.code ∈ codes

theorem Sink.AddsOnly.filter {codes : List String} {change : Sink → Sink}
    (hchange : Filter change) : AddsOnly codes change := fun a d hmem => by
  rw [(hchange.keeps a).2] at hmem
  exact .inl hmem

theorem Sink.AddsOnly.report {codes : List String} {code : String} (hcode : code ∈ codes)
    (position : Position) (arguments : List String) (scope : String) :
    AddsOnly codes fun a => (a.report code position arguments scope).2 := fun _ _ hmem =>
  (mem_report_accepted hmem).imp_right <| by rintro rfl; exact hcode

namespace Scope.Operation

variable {codes : List String}

theorem performAll_append {first second : List Operation} {s s' s'' : Session}
    (hfirst : (performAll first).run.run s = (.ok (), s'))
    (hsecond : (performAll second).run.run s' = (.ok (), s'')) :
    (performAll (first ++ second)).run.run s = (.ok (), s'') := by
  have happend : performAll (first ++ second) = (performAll first >>= fun _ => performAll second) :=
    List.forM_append
  rw [happend, Action.run_bind, hfirst]
  exact hsecond

theorem performAll_singleton (operation : Operation) (s : Session) :
    (performAll [operation]).run.run s = operation.perform.run.run s := by
  have hsingle : performAll [operation] = (operation.perform >>= fun _ => Pure.pure ()) := rfl
  rw [hsingle, Action.run_bind]
  rcases operation.perform.run.run s with ⟨_ | _, s'⟩ <;> rfl

theorem run_changeSink (change : Sink → Sink) (s : Session) :
    (changeSink change).perform.run.run s = (.ok (), { s with sink := change s.sink }) := rfl

/-- What comes with a token is done to the scopes by operations of these kinds. -/
inductive WithToken (codes : List String) : Operation → Prop
  | addKnown (name : String) (writable : Bool) : WithToken codes (.addKnown name writable)
  | removeKnown (name : String) : WithToken codes (.removeKnown name)
  | setRules (rules : Rules) : WithToken codes (.setRules rules)
  | setStrict : WithToken codes .setStrict
  | markExported (name : String) : WithToken codes (.markExported name)
  | changeSink {change : Sink → Sink} (hchange : Sink.AddsOnly codes change) :
      WithToken codes (.changeSink change)

end Scope.Operation

namespace Reading

open Scope (Operation)

variable {α β : Type} {codes : List String}

/-- Between the states nothing was consumed, and what happened to the scopes are operations as they
come with tokens. -/
structure State.Attends (codes : List String) (s s' : State) : Prop where
  lookahead : s'.lookahead = s.lookahead
  consumed : s'.consumed = s.consumed
  size : s'.size = s.size
  operations : ∃ operations : List Operation,
    (∀ operation ∈ operations, operation.WithToken codes) ∧
    (Operation.performAll operations).run.run s.session = (.ok (), s'.session)

namespace State.Attends

variable {s s' s'' : State}

theorem refl (s : State) : s.Attends codes s := ⟨rfl, rfl, rfl, [], by simp, rfl⟩

theorem single {operation : Operation} (hoperation : operation.WithToken codes)
    {session : Scope.Session} (hrun : operation.perform.run.run s.session = (.ok (), session)) :
    s.Attends codes { s with session } := by
  refine ⟨rfl, rfl, rfl, [operation], by simpa using hoperation, ?_⟩
  rw [Operation.performAll_singleton, hrun]

theorem trans (hfirst : s.Attends codes s') (hsecond : s'.Attends codes s'') :
    s.Attends codes s'' := by
  obtain ⟨first, hfirst', hrun⟩ := hfirst.operations
  obtain ⟨second, hsecond', hrun'⟩ := hsecond.operations
  refine ⟨hsecond.lookahead.trans hfirst.lookahead, hsecond.consumed.trans hfirst.consumed,
    hsecond.size.trans hfirst.size, first ++ second, ?_, Operation.performAll_append hrun hrun'⟩
  intro operation hmem
  exact (List.mem_append.mp hmem).elim (hfirst' operation) (hsecond' operation)

end State.Attends

/-- The codes of what is wrong with a comment. -/
abbrev commentCodes : List String := ["E001", "E032"]

/-- A step that stays where it is and does to the scopes what may come with a token. -/
class Attends (codes : List String) (step : Reading α) : Prop where
  leads (s : State) : Leads step s fun _ s' => s.Attends codes s'

namespace Attends

instance (a : α) : Attends codes (Pure.pure a : Reading α) := ⟨fun s => .pure (.refl s)⟩

protected theorem bind {first : Reading α} {next : α → Reading β} (hfirst : Attends codes first)
    (hnext : ∀ a, Attends codes (next a)) : Attends codes (first >>= next) :=
  ⟨fun s => .bind fun a s' hrun b s'' hrun' =>
    (hfirst.leads s a s' hrun).trans ((hnext a).leads s' b s'' hrun')⟩

instance {first : Reading α} {next : α → Reading β} [hfirst : Attends codes first]
    [hnext : ∀ a, Attends codes (next a)] : Attends codes (first >>= next) := .bind hfirst hnext

instance {c : Prop} [Decidable c] {first second : Reading α} [hfirst : Attends codes first]
    [hsecond : Attends codes second] : Attends codes (if c then first else second) := by
  split <;> infer_instance

theorem forM {items : List α} {step : α → Reading PUnit}
    (hstep : ∀ a ∈ items, Attends codes (step a)) : Attends codes (items.forM step) := by
  induction items with
  | nil => exact inferInstanceAs (Attends codes (Pure.pure _))
  | cons a rest ih =>
      exact .bind (hstep a List.mem_cons_self) fun _ =>
        ih fun a hmem => hstep a (List.mem_cons_of_mem _ hmem)

/-- A step that only looks. -/
theorem look {step : Reading α} (hstep : ∀ s, (step.run.run s).2 = s) : Attends codes step where
  leads s a s' hrun := by
    obtain rfl : s = s' := by rw [← hstep s, hrun]
    exact .refl s

instance : Attends codes token := look fun _ => rfl

instance : Attends codes options := look fun _ => rfl

theorem operation {step : Reading Unit} {operation : Operation}
    (hrun : ∀ s, step.run.run s = (inScopes operation.perform).run.run s)
    (hoperation : operation.WithToken codes) : Attends codes step where
  leads s := by
    rintro ⟨⟩ s' hstep
    rw [hrun, run_inScopes] at hstep
    rcases hperform : operation.perform.run.run s.session with ⟨reason | a, session⟩ <;>
      rw [hperform] at hstep <;> cases hstep
    exact .single hoperation hperform

theorem sink {change : Sink → Sink} (hchange : Sink.AddsOnly codes change) :
    Attends codes (adjustSink change) :=
  have hrun (s : State) : (adjustSink change).run.run s =
      (inScopes (Operation.changeSink change).perform).run.run s := rfl
  .operation hrun (.changeSink hchange)

instance (change : Options → Options) : Attends codes (adjustOptions change) where
  leads s := by
    rintro _ _ ⟨⟩
    exact ⟨rfl, rfl, rfl, [], by simp, rfl⟩

theorem report {code : String} (hcode : code ∈ codes) (position : Position)
    (arguments : List String) (hregular : Halt.IsRegular code) :
    Attends codes (report code position arguments hregular) where
  leads s := .tracker <| by
    rintro ⟨⟩ s' hstep
    have hadds := Sink.AddsOnly.report hcode position arguments s.session.tracker.functionName
    rw [run_inScopes, Scope.Action.run_report] at hstep
    rcases hreport : s.session.sink.report code position arguments s.session.tracker.functionName
      with ⟨reason | ⟨⟩, sink⟩ <;> rw [hreport] at hstep <;> cases hstep
    refine .single (.changeSink hadds) ((Operation.run_changeSink _ _).trans ?_)
    rw [hreport]

/-! ## Comments -/

section Comments

variable (hcodes : commentCodes ⊆ codes)
include hcodes

theorem badOption (name : String) (position : Position) :
    Attends codes (badOption name position) := .report (hcodes (by decide)) _ _ _

theorem applyRule {rule : Type} (name : String) (position : Position)
    (found : Except OptionError rule) (change : rule → Options → Options) :
    Attends codes (applyRule name position found change) := by
  unfold Reading.applyRule
  split
  · infer_instance
  · exact badOption hcodes name position

theorem applyFlag (name value : String) (position : Position) :
    Attends codes (applyFlag name value position) := by
  have := badOption hcodes name position
  unfold Reading.applyFlag
  dsimp only
  split <;> infer_instance

theorem applyLimit (value : String) (position : Position) :
    Attends codes (applyLimit value position) := by
  unfold Reading.applyLimit
  split
  next limit _ => exact .bind inferInstance fun _ => .sink (.filter (.setLimit limit))
  next => exact .report (hcodes (by decide)) _ _ _

theorem applyIgnore (value : String) (position : Position) :
    Attends codes (applyIgnore value position) := by
  unfold Reading.applyIgnore
  split
  · exact .sink (.filter (.beginIgnore _))
  · exact .sink (.filter (.endIgnore _))
  · exact .sink (.filter (.ignoreLine _))
  · exact badOption hcodes _ position

theorem applyValue (name value : String) (position : Position) :
    Attends codes (applyValue name value position) := by
  have hbad := badOption hcodes name position
  have hstrict : Attends codes (track (·.setStrict)) := .operation (fun _ => rfl) .setStrict
  have hrule {rule : Type} := @applyRule codes hcodes rule name position
  have hignore := applyIgnore hcodes value position
  have hlimit := applyLimit hcodes value position
  have hflag := applyFlag hcodes name value position
  unfold Reading.applyValue
  dsimp only
  split
  case h_2 => split <;> infer_instance
  all_goals infer_instance

theorem applyItem (position : Position) (item : String × Option String) :
    Attends codes (applyItem position item) := by
  obtain ⟨name, value?⟩ := item
  unfold Reading.applyItem
  dsimp only
  split
  · exact .sink (.filter (.toggle _ _ _))
  · split
    · exact applyValue hcodes _ _ position
    · exact badOption hcodes name position

omit hcodes in
theorem applyGlobal (item : String × Option String) : Attends codes (applyGlobal item) := by
  unfold Reading.applyGlobal
  split
  · exact .operation (fun _ => rfl) (.removeKnown _)
  · exact .operation (fun _ => rfl) (.addKnown _ _)

theorem applyDirective (d : Directive) : Attends codes (applyDirective d) := by
  have hoptions : Attends codes (do
      d.items.forM (Reading.applyItem d.position)
      let rules := Scope.Rules.ofOptions (← options)
      track (·.setRules rules)) :=
    .bind (.forM fun item _ => applyItem hcodes d.position item) fun _ =>
      .bind inferInstance fun _ => .operation (fun _ => rfl) (.setRules _)
  unfold Reading.applyDirective
  split
  · exact hoptions
  · exact hoptions
  · exact .forM fun item _ => applyGlobal item
  · exact .forM fun item _ => .operation (fun _ => rfl) (.markExported item.1)
  · infer_instance

end Comments

/-! ## Tokens -/

theorem reportIssues {issues : List LexicalIssue} (hissues : ∀ issue ∈ issues, issue.code ∈ codes) :
    Attends codes (reportIssues issues) := by
  refine .forM fun issue hmem => .bind inferInstance fun o => ?_
  have : Attends codes (reportIssue issue) := .report (hissues issue hmem) _ _ _
  infer_instance

theorem checkFatal : Attends codes checkFatal where
  leads s := by
    unfold Reading.checkFatal
    refine .bind ?_
    rintro _ _ ⟨⟩
    split
    · exact .pure (.refl s)
    · refine .after fun _ _ _ _ hrun => ?_
      cases hrun

theorem acceptLookahead (hcodes : commentCodes ⊆ codes) : Attends codes acceptLookahead := by
  have hfatal : Attends codes Reading.checkFatal := checkFatal
  exact .bind inferInstance fun _ =>
    .bind (.forM fun d _ => applyDirective hcodes d) fun _ => hfatal

end Attends

/-- Consuming a token leads behind it, and there the scopes attend to what comes with it and with
the next one. -/
theorem advance_attends (hcodes : commentCodes ⊆ codes) {s : State}
    (hissues : ∀ issue ∈ s.lookahead.issues, issue.code ∈ codes) :
    Leads advance s fun _ s' => s.behind.Attends codes s' := by
  refine .bind ?_
  rintro _ _ ⟨⟩
  refine .bind ?_
  rintro _ _ ⟨⟩
  have hrest : Attends codes (do reportIssues s.lookahead.issues; acceptLookahead) :=
    .bind (.reportIssues hissues) fun _ => .acceptLookahead hcodes
  exact hrest.leads s.behind

end Reading

end ScriptLint

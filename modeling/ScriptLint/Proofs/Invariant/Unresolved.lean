import ScriptLint.Proofs.Invariant.Program
import ScriptLint.Proofs.Lockstep.Basic
import ScriptLint.Proofs.Scope.Unresolved

/-! # References while reading

Scope analysis has gone on by its own steps, in each of which some scope stays open, so what is told
of undeclared globals is not told before the last scopes are closed. The rules are always those of
the options, for a comment that sets options sets the rules after them.
-/

set_option synthInstance.maxSize 4096

namespace ScriptLint

namespace Scope.Operation

variable {s : Session} {codes : List String}

/-- The rules are what they were unless the operation sets them. -/
theorem perform_rules {operation : Operation} (hfixed : ∀ rules, operation ≠ .setRules rules) :
    operation.perform.Leads s fun _ s' => s'.tracker.rules = s.tracker.rules := by
  have hkeeps (action : Action Unit) [hrules : Action.KeepsRules action] :
      action.Leads s fun _ s' => s'.tracker.rules = s.tracker.rules := by
    intro _ s' hrun
    have hsame := hrules.rules s
    rwa [hrun] at hsame
  cases operation with
  | exitScope =>
      exact .mono (.of_ensures Action.exitScope_rests) fun _ _ hrests => hrests.rules
  | declare name kind position => exact hkeeps (Action.declare name kind position)
  | declareBlockFunction name position => exact hkeeps (Action.declareBlockFunction name position)
  | declareParameter name position distinct =>
      exact hkeeps (Action.declareParameter name position distinct)
  | setRules rules => exact absurd rfl (hfixed rules)
  | changeSink =>
      rintro _ _ ⟨⟩
      rfl
  | markInitialized =>
      refine .update ?_
      unfold Tracker.markInitialized
      split <;> rfl
  | markExported =>
      refine .update ?_
      unfold Tracker.markExported
      split <;> rfl
  | _ => exact .update rfl

theorem Turns.ne_setRules {operation : Operation} {bs bs' : List Bracket}
    (hturns : operation.Turns bs bs') (rules : Rules) : operation ≠ .setRules rules := by
  rintro rfl
  cases hturns

theorem Turns.ne_changeSink {operation : Operation} {bs bs' : List Bracket}
    (hturns : operation.Turns bs bs') (change : Sink → Sink) :
    operation ≠ .changeSink change := by
  rintro rfl
  cases hturns

/-- What is known before the last frames are closed: where the tracker came from, and nothing of
undeclared globals. -/
theorem performAll_impliesNone (hcode : "W117" ∉ codes) {operations : List Operation}
    (hoperations : ∀ operation ∈ operations, operation.WithToken codes)
    (hstack : s.tracker.stack ≠ []) (ht : s.tracker.Traced) (hs : s.ImpliesNone) :
    (performAll operations).Leads s fun _ s' => s'.tracker.Traced ∧ s'.ImpliesNone := by
  refine .mono (.forM (fun rest s' => (∀ operation ∈ rest, operation.WithToken codes) ∧
    s'.tracker.stack ≠ [] ∧ s'.tracker.Traced ∧ s'.ImpliesNone) ⟨hoperations, hstack, ht, hs⟩ ?_)
    fun _ _ h => h.2.2
  rintro operation rest s' ⟨hrest, hstack, ht, hs⟩
  have hoperation := hrest operation List.mem_cons_self
  have hopen : 0 < operation.depthAfter s'.tracker.stack.length := by
    have hpos := List.length_pos_iff.mpr hstack
    cases hoperation <;> exact hpos
  have hsink (change : Sink → Sink) (heq : operation = .changeSink change) :
      ∀ d ∈ (change s'.sink).accepted, d ∈ s'.sink.accepted ∨ d.code ≠ "W117" := by
    subst heq
    cases hoperation with
    | changeSink hchange =>
        intro d hmem
        exact (hchange s'.sink d hmem).imp_right fun hmem' heq => hcode (heq ▸ hmem')
  refine .mono ((Action.Leads.of_ensures (hoperation.perform)).and
    ((Action.Leads.of_ensures (operation.perform_traced hstack ht)).and
      (perform_impliesNone ht hs hopen hsink))) ?_
  rintro _ s'' ⟨⟨hstack', -⟩, ht', hs'⟩
  exact ⟨fun operation hmem => hrest operation (List.mem_cons_of_mem _ hmem),
    hstack'.symm ▸ hstack, ht', hs'⟩

end Scope.Operation

namespace Reading

open Scope (Operation)

variable {α β : Type} {s s' : State}

/-! ## Rules and options -/

/-- The rules are those of the options. -/
def State.Ruled (s : State) : Prop := s.session.tracker.rules = .ofOptions s.options

/-- The step changes neither the options nor the rules. -/
class KeepsOptions (step : Reading α) : Prop where
  leads (s : State) : Leads step s fun _ s' =>
    s'.options = s.options ∧ s'.session.tracker.rules = s.session.tracker.rules

namespace KeepsOptions

theorem ruled {step : Reading α} (hstep : KeepsOptions step) (hs : s.Ruled) :
    Leads step s fun _ s' => s'.Ruled :=
  (hstep.leads s).mono fun _ s' h => by
    unfold State.Ruled
    rw [h.1, h.2]
    exact hs

instance (a : α) : KeepsOptions (Pure.pure a : Reading α) := ⟨fun _ => .pure ⟨rfl, rfl⟩⟩

protected theorem bind {first : Reading α} {next : α → Reading β} (hfirst : KeepsOptions first)
    (hnext : ∀ a, KeepsOptions (next a)) : KeepsOptions (first >>= next) where
  leads s := .bind fun a s' hrun b s'' hrun' => by
    have h := hfirst.leads s a s' hrun
    have h' := (hnext a).leads s' b s'' hrun'
    exact ⟨h'.1.trans h.1, h'.2.trans h.2⟩

theorem forM {items : List α} {step : α → Reading PUnit} (hstep : ∀ a, KeepsOptions (step a)) :
    KeepsOptions (items.forM step) := by
  induction items with
  | nil => exact inferInstanceAs (KeepsOptions (Pure.pure _))
  | cons a rest ih => exact .bind (hstep a) fun _ => ih

theorem perform (operation : Operation) (hfixed : ∀ rules, operation ≠ .setRules rules) :
    KeepsOptions (inScopes operation.perform) where
  leads s _ s' hrun := by
    rw [run_inScopes] at hrun
    rcases hperform : operation.perform.run.run s.session with ⟨reason | ⟨⟩, session⟩ <;>
      rw [hperform] at hrun <;> cases hrun
    exact ⟨rfl, Operation.perform_rules hfixed () session hperform⟩

theorem report (code : String) (position : Position) (arguments : List String)
    (hcode : Halt.IsRegular code) : KeepsOptions (report code position arguments hcode) where
  leads s := .tracker fun _ s' hrun => by
    rw [run_inScopes, Scope.Action.run_report] at hrun
    obtain ⟨-, rfl⟩ := Prod.mk.inj hrun
    exact ⟨rfl, rfl⟩

/-- A step that only looks. -/
theorem look {step : Reading α} (hstep : ∀ s, (step.run.run s).2 = s) : KeepsOptions step where
  leads s a s' hrun := by
    obtain rfl : s = s' := by rw [← hstep s, hrun]
    exact ⟨rfl, rfl⟩

theorem reportIssues (issues : List LexicalIssue) : KeepsOptions (reportIssues issues) := by
  refine .forM fun issue => .bind (look fun _ => rfl) fun o => ?_
  split
  · exact report _ _ _ _
  · infer_instance

theorem checkFatal : KeepsOptions checkFatal := by
  refine .bind (look fun _ => rfl) fun t => ?_
  split
  · infer_instance
  · refine .bind (report _ _ _ _) fun _ => ⟨fun _ _ _ hrun => ?_⟩
    cases hrun

end KeepsOptions

/-- After a comment the rules are those of the options again. -/
theorem applyDirective_ruled (hs : s.Ruled) (d : Directive) :
    Leads (applyDirective d) s fun _ s' => s'.Ruled := by
  have hoptions : Leads (do
      d.items.forM (applyItem d.position)
      let rules := Scope.Rules.ofOptions (← options)
      track (·.setRules rules)) s fun _ s' => s'.Ruled := by
    refine .after fun _ s' => .bind ?_
    rintro _ _ ⟨⟩
    exact .track rfl
  have hglobal (item : String × Option String) : KeepsOptions (applyGlobal item) := by
    unfold applyGlobal
    split
    next name _ => exact .perform (.removeKnown (.ofList name)) (by simp)
    next => exact .perform (.addKnown item.1 (item.2 == some "true")) (by simp)
  have hexported (item : String × Option String) : KeepsOptions (track (·.markExported item.1)) :=
    .perform (.markExported item.1) (by simp)
  unfold applyDirective
  split
  · exact hoptions
  · exact hoptions
  · exact (KeepsOptions.forM hglobal).ruled hs
  · exact (KeepsOptions.forM hexported).ruled hs
  · exact .pure hs

theorem acceptLookahead_ruled (hs : s.Ruled) :
    Leads acceptLookahead s fun _ s' => s'.Ruled := by
  have hdirectives (ds : List Directive) {s : State} (hs : s.Ruled) :
      Leads (ds.forM applyDirective) s fun _ s' => s'.Ruled := by
    induction ds generalizing s with
    | nil => exact .pure hs
    | cons d ds ih => exact .bind ((applyDirective_ruled hs d).mono fun _ _ hs' => ih hs')
  refine .bind ?_
  rintro _ _ ⟨⟩
  exact .bind ((hdirectives _ hs).mono fun _ _ hs' => KeepsOptions.checkFatal.ruled hs')

theorem advance_ruled (hs : s.Ruled) : Leads advance s fun _ s' => s'.Ruled := by
  refine .bind ?_
  rintro _ _ ⟨⟩
  refine .bind ?_
  rintro _ _ ⟨⟩
  have hissues := (KeepsOptions.reportIssues s.lookahead.issues).ruled (s := s.behind) hs
  exact .bind (hissues.mono fun _ _ hs' => acceptLookahead_ruled hs')

/-! ## Before the last scopes are closed -/

/-- The codes of what comes with tokens. -/
abbrev tokenCodes : List String := commentCodes ++ LexicalIssue.kinds.map (·.1)

/-- The program is being read: what is open and where references stand is in order, all tokens are
those of the source, and nothing is known of undeclared globals yet. -/
structure Unsettled (source : String) (bs : List Bracket) (s : State) : Prop
    extends InOrder [] bs s where
  within : s.Within (.ofSource source)
  ruled : s.Ruled
  traced : s.session.tracker.Traced
  impliesNone : s.session.ImpliesNone

namespace Unsettled

variable {source : String} {bs bs' : List Bracket} {codes : List String}

theorem of_attends (hs : Unsettled source bs s) (hcode : "W117" ∉ codes)
    (hattends : s.Attends codes s') (hruled : s'.Ruled) : Unsettled source bs s' := by
  obtain ⟨operations, hoperations, hrun⟩ := hattends.operations
  obtain ⟨htraced, hnone⟩ := Operation.performAll_impliesNone hcode hoperations
    hs.toInOrder.stack_ne_nil hs.traced hs.impliesNone () s'.session hrun
  refine ⟨hs.toInOrder.of_attends hattends, ⟨?_, ?_⟩, hruled, htraced, hnone⟩
  · exact hattends.lookahead ▸ hs.within.lookahead
  · exact hattends.consumed ▸ hs.within.consumed

theorem behind (hs : Unsettled source bs s) : Unsettled source bs s.behind := by
  refine ⟨hs.toInOrder.behind, ⟨?_, fun t hmem => ?_⟩, hs.ruled, hs.traced, hs.impliesNone⟩
  · exact (Token.next_behind _).of_reaches hs.within.lookahead.stop
  · rcases List.mem_cons.mp hmem with rfl | hmem
    · exact hs.within.lookahead
    · exact hs.within.consumed t hmem

theorem acceptLookahead (hs : Unsettled source bs s) :
    Leads Reading.acceptLookahead s fun _ s' => Unsettled source bs s' := by
  have haccept : Attends commentCodes Reading.acceptLookahead :=
    .acceptLookahead (List.Subset.refl _)
  exact ((haccept.leads s).and (acceptLookahead_ruled hs.ruled)).mono fun _ s' h =>
    hs.of_attends (by decide) h.1 h.2

theorem advance (hs : Unsettled source bs s) :
    Leads Reading.advance s fun _ s' => Unsettled source bs s' := by
  have hissues : ∀ issue ∈ s.lookahead.issues, issue.code ∈ tokenCodes := fun issue hmem =>
    List.mem_append_right _ (List.mem_map_of_mem (hs.within.lookahead.issues issue hmem).kind)
  have hattends := advance_attends (List.subset_append_left _ _) hissues
  exact (hattends.and (advance_ruled hs.ruled)).mono fun _ s' h =>
    hs.behind.of_attends (by decide) h.1 h.2

/-- The next token is read again in its place. -/
theorem of_lookahead (hs : Unsettled source bs s) {t : Token} (hready : t.Within s.size)
    (hposition : t.position = s.lookahead.position) (hbehind : t.Behind (.ofSource source)) :
    Unsettled source bs { s with lookahead := t } :=
  ⟨hs.toInOrder.of_lookahead hready hposition, ⟨hbehind, hs.within.consumed⟩, hs.ruled, hs.traced,
    hs.impliesNone⟩

theorem rescanTemplate (hs : Unsettled source bs s) (hbrace : s.lookahead.isPunctuator "\x7d") :
    Leads Reading.rescanTemplate s fun _ s' => Unsettled source bs s' := by
  refine .bind ?_
  rintro _ _ ⟨⟩
  refine .bind ?_
  rintro _ _ ⟨⟩
  have hpiece := hs.of_lookahead (Token.Within.rescanTemplate hs.ready hbrace) rfl
    hs.within.lookahead.rescanTemplate
  have hfatal : Attends [] checkFatal := .checkFatal
  exact ((hfatal.leads _).and (KeepsOptions.checkFatal.ruled hpiece.ruled)).mono fun _ s' h =>
    hpiece.of_attends (by decide) h.1 h.2

theorem perform (hs : Unsettled source bs s) {operation : Operation}
    (hturns : operation.Turns bs bs') :
    Leads (inScopes operation.perform) s fun _ s' => Unsettled source bs' s' := by
  have hopen : 0 < operation.depthAfter s.session.tracker.stack.length := by
    obtain ⟨n, hn⟩ := Nat.exists_eq_add_of_lt hs.opened
    have hdepth := hturns.depthAfter_eq n
    rw [hn, show bs.count .scope + n + 1 = n + 1 + bs.count .scope by omega, hdepth]
    omega
  have hnone := Operation.perform_impliesNone hs.traced hs.impliesNone hopen
    fun change heq => absurd heq (hturns.ne_changeSink change)
  have htraced := Scope.Action.Leads.of_ensures
    (operation.perform_traced hs.toInOrder.stack_ne_nil hs.traced)
  intro _ s' hrun
  have hordered := hs.toInOrder.perform hturns _ s' hrun
  have hruled := (KeepsOptions.perform operation hturns.ne_setRules).ruled hs.ruled _ s' hrun
  rw [run_inScopes] at hrun
  rcases hperform : operation.perform.run.run s.session with ⟨reason | ⟨⟩, session⟩ <;>
    rw [hperform] at hrun <;> cases hrun
  have hsession := hnone.and htraced () session hperform
  exact ⟨hordered, ⟨hs.within.lookahead, hs.within.consumed⟩, hruled, hsession.2, hsession.1⟩

theorem record (hs : Unsettled source bs s) {p : Position} (hoffers : InOrder [p] bs s)
    (name : String) (access : Scope.Access) :
    Leads (addReference name p access) s fun _ s' => Unsettled source bs s' := by
  have htraced := (Operation.addReference name p access).perform_traced hs.toInOrder.stack_ne_nil
    hs.traced s.session.sink () _ rfl
  intro _ s' hrun
  have hordered := hoffers.record name access _ s' hrun
  cases hrun
  exact ⟨hordered, ⟨hs.within.lookahead, hs.within.consumed⟩, hs.ruled, htraced,
    ⟨hs.impliesNone.implied, hs.impliesNone.untold⟩⟩

theorem report (hs : Unsettled source bs s) {code : String}
    (hlisted : code ∈ grammarCodes ++ keyCodes) (position : Position) (arguments : List String)
    (hcode : Halt.IsRegular code) :
    Leads (Reading.report code position arguments hcode) s fun _ s' => Unsettled source bs s' := by
  have hreport : Attends (grammarCodes ++ keyCodes)
      (Reading.report code position arguments hcode) := .report hlisted position arguments hcode
  have hruled := (KeepsOptions.report code position arguments hcode).ruled hs.ruled
  exact ((hreport.leads s).and hruled).mono fun _ s' h => hs.of_attends (by decide) h.1 h.2

instance (source : String) : Invariant.Lawful (Unsettled source) where
  adjust depth inExcluded exports hs :=
    ⟨⟨hs.ready, hs.opened, hs.ordered, hs.before, hs.taken⟩,
      ⟨hs.within.lookahead, hs.within.consumed⟩, hs.ruled, hs.traced, hs.impliesNone⟩
  report position arguments hcode hlisted hs :=
    hs.report (List.mem_append_left _ hlisted) position arguments hcode
  reportKey arguments hcode hlisted _ hs _ :=
    hs.report (List.mem_append_right _ hlisted) _ arguments hcode
  perform hturns hs := hs.perform hturns
  advance hs := hs.advance
  rescanRegexp hslash hs :=
    hs.of_lookahead (Token.Within.rescanRegexp hs.ready hslash) rfl hs.within.lookahead.rescanRegexp
  rescanTemplate hbrace hs := hs.rescanTemplate hbrace
  inOrder hs := hs.toInOrder
  record name access hs hoffers := hs.record hoffers name access

end Unsettled

end Reading

end ScriptLint

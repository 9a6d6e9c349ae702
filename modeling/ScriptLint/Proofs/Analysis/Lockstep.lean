import ScriptLint.Proofs.Analysis.Limit
import ScriptLint.Proofs.Lockstep.Statement
import ScriptLint.Proofs.Scope.Unlimited

/-! # Analyses in lockstep

Reading under two editions, or two sets of options, side by side.
-/

/-! ## Runs under a later edition

In a later edition fewer features are asked for, other words are reserved, and functions in blocks
are declared otherwise. None of this changes which tokens are consumed or which frames are open, so
reading goes the same way, and a feature that the later edition asks for is one that the earlier
edition has asked for in the same place.
-/

namespace ScriptLint.Reading

open Scope (Session Tracker Action)

variable {c : Cursor}

/-- The scopes are the same to a reader, and the second sink asks for no edition where the first one
does not. -/
structure Ages (s s' : Session) : Prop where
  outline : s.tracker.SameOutline s'.tracker
  covers : s.sink.Covers editionCodes s'.sink

namespace Ages

variable {s s' : Session} {action action' : Action PUnit}

/-- Actions that ask for no edition, if the trackers stay alike. -/
theorem both [haction : action.Ageless] [haction' : action'.Ageless] (h : Ages s s')
    (houtline : (action.run.run s).1 = .ok () → (action'.run.run s').1 = .ok () →
      (action.run.run s).2.tracker.SameOutline (action'.run.run s').2.tracker) :
    (action'.run.run s').1 = (action.run.run s).1 ∧
      Ages (action.run.run s).2 (action'.run.run s').2 := by
  obtain ⟨houtcome, hadds⟩ := haction.run h.covers.limit
  obtain ⟨houtcome', hadds'⟩ := haction'.run h.covers.limit'
  exact ⟨houtcome'.trans houtcome.symm, houtline houtcome houtcome',
    (h.covers.adds_left hadds).adds_right hadds'⟩

/-- Actions that change only names may even be different ones. -/
theorem both_of_keepsOutline [action.Ageless] [hkeeps : action.KeepsOutline] [action'.Ageless]
    [hkeeps' : action'.KeepsOutline] (h : Ages s s') :
    (action'.run.run s').1 = (action.run.run s).1 ∧
      Ages (action.run.run s).2 (action'.run.run s').2 :=
  h.both fun hok hok' => (((hkeeps.ensures _).of_ok hok).symm.trans h.outline).trans
    ((hkeeps'.ensures _).of_ok hok')

theorem run_say (n : Notice) (scope : String) (s : Session) :
    (Action.say (some n) scope).run.run s =
      ((s.sink.report n.code n.position n.arguments scope).1,
        { s with sink := (s.sink.report n.code n.position n.arguments scope).2 }) :=
  Action.run_report n.code n.position n.arguments scope n.regular s

/-- The later run may say less about editions, and either may say more about other things. -/
theorem say (h : Ages s s') {notice? notice'? : Option Notice}
    (hedition : ∀ n ∈ notice'?, n.code ∈ editionCodes → n ∈ notice?) (scope : String) :
    ((Action.say notice'? scope).run.run s').1 = ((Action.say notice? scope).run.run s).1 ∧
      Ages ((Action.say notice? scope).run.run s).2 ((Action.say notice'? scope).run.run s').2 := by
  have hadds (n : Notice) := Sink.Adds.report h.covers.limit n.code n.position n.arguments scope
  have hadds' (n : Notice) := Sink.Adds.report h.covers.limit' n.code n.position n.arguments scope
  have hright {a : Sink} {n : Notice} (hcode : n.code ∉ editionCodes)
      (hcovers : a.Covers editionCodes s'.sink) := hcovers.adds_right
    ((hadds' n).2.mono fun _ heq => heq ▸ hcode)
  cases notice? with
  | none =>
      cases notice'? with
      | none => exact ⟨rfl, h⟩
      | some n' =>
          rw [run_say]
          exact ⟨(hadds' n').1, h.outline,
            hright (fun hcode => nomatch hedition n' rfl hcode) h.covers⟩
  | some n =>
      rw [run_say]
      cases notice'? with
      | none => exact ⟨(hadds n).1.symm, h.outline, h.covers.adds_left (hadds n).2⟩
      | some n' =>
          rw [run_say]
          refine ⟨(hadds' n').1.trans (hadds n).1.symm, h.outline, ?_⟩
          by_cases hcode : n'.code ∈ editionCodes
          · cases hedition n' rfl hcode
            exact h.covers.report n.code n.position n.arguments scope
          · exact hright hcode (h.covers.adds_left (hadds n).2)

end Ages

namespace Pairing

/-- A run, and the run under a later edition. No comment may set options. -/
@[reducible] def aged (c : Cursor) : Pairing where
  start := c
  allows d := d.kind ≠ .jshint ∧ d.kind ≠ .jslint
  options o o' := o.Later o' ∧ o.module = false
  session := Ages

instance : (aged c).Basic where
  outline h := h.outline
  maxDepth := by
    rintro o o' ⟨⟨hsame, -⟩, -⟩
    exact (congrArg Options.maxDepth hsame).symm
  module := by
    rintro o o' ⟨⟨hsame, -⟩, hmodule⟩
    rw [← hsame, hmodule]
    rfl
  say hnotice ho scope := ⟨fun h => h.say (hnotice.edition ho.1) scope⟩
  undeclared {n} hcode _ name scope := by
    have hreport : (Action.sayUndeclared name n scope).Stepwise := by
      unfold Action.sayUndeclared Action.say
      infer_instance
    have hcodes : (Action.sayUndeclared name n scope).ReportsOnly [n.code] := by
      unfold Action.sayUndeclared Action.say
      infer_instance
    have houtline : (Action.sayUndeclared name n scope).KeepsOutline := by
      unfold Action.sayUndeclared Action.say
      infer_instance
    have := Action.Ageless.of_codes hreport hcodes fun code hmem => by
      rw [List.mem_singleton.mp hmem]
      exact not_mem_editionCodes_of_plain n.code hcode
    exact ⟨Ages.both_of_keepsOutline⟩
  terminate reason _ _ scope _ _ h := ⟨h.outline, h.covers.terminate reason.code _ scope⟩
  track hchange _ _ h := ⟨hchange.outline h.outline, h.covers⟩
  declare _ _ _ _ := ⟨Ages.both_of_keepsOutline⟩
  declareParameter _ _ _ _ := ⟨Ages.both_of_keepsOutline⟩
  declareInBlock name position _ o o' _ := by
    have hageless (modern : Bool) : (Action.declareInBlock name position modern).Ageless := by
      unfold Action.declareInBlock
      split <;> infer_instance
    have houtline (modern : Bool) : (Action.declareInBlock name position modern).KeepsOutline := by
      unfold Action.declareInBlock
      infer_instance
    exact ⟨Ages.both_of_keepsOutline⟩
  exitScope := ⟨fun h => h.both fun hok hok' =>
    (((Action.exitScope_outline _).of_ok hok).symm.trans h.outline.congr_pop).trans
      ((Action.exitScope_outline _).of_ok hok')⟩
  finish := ⟨fun {s s'} h => h.both fun hok hok' => by
    have hfirst := (Action.finish_outline _).of_ok hok
    have hsecond := (Action.finish_outline _).of_ok hok'
    rw [h.outline.stack] at hsecond
    exact (hfirst.symm.trans (h.outline.congr_drop _)).trans hsecond⟩

instance : (aged c).Lawful where
  directive _ hkind _ := .nameDirective hkind

end Pairing

end ScriptLint.Reading

/-! ## Two analyses of a source

Two analyses of the same source start with the same first token, and with laws about single steps
they stay in lockstep. Comments that set options would make the two alike or set them further apart,
so whether there are any is asked of one of the two runs; the other one comes across the same
comments.

The first use of this: of two analyses that differ in nothing but the edition, the later one ends the
same way and asks for no edition of its own. Diagnostics are compared by code, line and column: where
several features are asked for in one place, only the first of them is told, and it need not be the
same one.
-/

namespace ScriptLint.Analysis

open Reading (Pairing Lockstep)

variable {source : String} {o o' : Options} {known : KnownGlobals}

/-- The analysis comes across no comment that sets options. -/
def LeavesOptions (source : String) (o : Options) (known : KnownGlobals) : Prop :=
  ∀ d ∈ (run source o known).2.comments, d.kind ≠ .jshint ∧ d.kind ≠ .jslint

instance : Decidable (LeavesOptions source o known) := by
  unfold LeavesOptions
  infer_instance

theorem startState_within (source : String) (o : Options) (known : KnownGlobals) :
    (startState source o known).Within (Cursor.ofSource source) where
  lookahead := Token.next_behind (.ofSource source)
  consumed := by simp [startState]

/-- In the first scopes there are no names yet. -/
theorem startState_anchored (source : String) (o : Options) (known : KnownGlobals) :
    (startState source o known).session.tracker.Anchored (Cursor.ofSource source) :=
  Scope.Tracker.anchored_iff.mpr
    (.start known _ o.module _ (Cursor.Reaches.refl (.ofSource source)).passes)

variable {p : Pairing} [p.Lawful]

theorem reading_lockstep (p : Pairing) [p.Lawful] (source : String) : Lockstep p (reading source) := by
  have := Lockstep.productions (p := p) (Reading.nestingBound source.utf8ByteSize)
  unfold reading
  infer_instance

/-- If the options and the first sessions belong together, then the results do. -/
theorem run_agree (hstart : p.start = Cursor.ofSource source) (hoptions : p.options o o')
    (hsession : p.session (startState source o known).session (startState source o' known).session)
    (hcomments : ∀ d ∈ (run source o known).2.comments, p.allows d) :
    p.Agree (run source o known) (run source o' known) := by
  have hwithin := startState_within source o known
  rw [← hstart] at hwithin
  have hrelates : p.Relates (startState source o known) (startState source o' known) :=
    ⟨hoptions, hsession, hwithin, rfl, rfl, rfl, rfl, rfl, rfl⟩
  exact (reading_lockstep p source).run hrelates hcomments

/-! ### A later edition -/

theorem isRegular_of_mem_editionCodes : ∀ code ∈ editionCodes, Halt.IsRegular code := by decide

/-- A later edition brings no diagnostic that asks for an edition, and it changes nothing about how
the analysis ends. -/
theorem later_asks_less (source : String) (o : Options) (known : KnownGlobals) (e e' : Edition)
    (hle : e ≤ e') (hmodule : o.module = false) (hzero : o.maxErrors = 0)
    (hcomments : LeavesOptions source { o with edition := e } known) :
    let earlier := ofSource source { o with edition := e } known
    let later := ofSource source { o with edition := e' } known
    later.ending = earlier.ending ∧
      ∀ d ∈ later.diagnostics, d.code = "W104" ∨ d.code = "W119" →
        ∃ d' ∈ earlier.diagnostics, d'.code = d.code ∧ d'.position.line = d.position.line ∧
          d'.position.column = d.position.column := by
  intro earlier later
  have hoptions : Options.Later { o with edition := e } { o with edition := e' } := ⟨rfl, hle⟩
  have houtline : (startState source { o with edition := e } known).session.tracker.SameOutline
      (startState source { o with edition := e' } known).session.tracker := by
    change (Scope.Tracker.start known _ o.module _).SameOutline
      (Scope.Tracker.start known _ o.module _)
    unfold Scope.Tracker.start
    rw [hmodule]
    exact .of_frames_eq rfl rfl rfl
  have hcovers : (startState source { o with edition := e } known).session.sink.Covers editionCodes
      (startState source { o with edition := e' } known).session.sink := .refl hzero
  obtain ⟨houtcome, hstate⟩ := run_agree (p := .aged (.ofSource source)) rfl ⟨hoptions, hmodule⟩
    ⟨houtline, hcovers⟩ hcomments
  refine ⟨congrArg Ending.ofOutcome houtcome, fun d hmem hcode => ?_⟩
  have hterminal : ∀ d ∈ (lastSink source { o with edition := e' } known).terminal?,
      d.code ∉ editionCodes := by
    intro d hmem hcode
    exact (lastSink_records source { o with edition := e' } known).not_isRegular_of_terminal hmem
      (isRegular_of_mem_editionCodes d.code hcode)
  have hmem' : d ∈ (lastSink source { o with edition := e' } known).finish := hmem
  obtain ⟨d', hd', hkey⟩ := hstate.session.covers.finish hterminal hmem' (by simpa using hcode)
  simp only [Diagnostic.key, Prod.mk.injEq] at hkey
  exact ⟨d', hd', hkey⟩

/-- Templates are there in the edition of 2015, and exponentiation is still asked for. -/
theorem later_asks_less_templates :
    Edition.es5 ≤ .es2015 ∧ ({ maxErrors := 0 } : Options).module = false ∧
      ({ maxErrors := 0 } : Options).maxErrors = 0 ∧
      LeavesOptions "``**``" { maxErrors := 0, edition := .es5 } {} ∧
      (let earlier := ofSource "``**``" { maxErrors := 0, edition := .es5 } {}
      let later := ofSource "``**``" { maxErrors := 0, edition := .es2015 } {}
      (earlier.diagnostics.filter (·.code = "W119")).length = 3 ∧
        (later.diagnostics.filter (·.code = "W119")).length = 1 ∧
        later.ending = earlier.ending ∧
        ∀ d ∈ later.diagnostics, d.code = "W104" ∨ d.code = "W119" →
          ∃ d' ∈ earlier.diagnostics, d'.code = d.code ∧ d'.position.line = d.position.line ∧
            d'.position.column = d.position.column) := by
  have hle : Edition.es5 ≤ .es2015 := by decide
  have hcomments : LeavesOptions "``**``" { maxErrors := 0, edition := .es5 } {} := by
    decide +kernel
  exact ⟨hle, rfl, rfl, hcomments, by decide +kernel, by decide +kernel,
    later_asks_less "``**``" { maxErrors := 0 } {} .es5 .es2015 hle rfl rfl hcomments⟩

end ScriptLint.Analysis

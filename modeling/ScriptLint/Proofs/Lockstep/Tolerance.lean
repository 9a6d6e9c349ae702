import ScriptLint.Proofs.Diagnostic.History
import ScriptLint.Proofs.Lockstep.Statement
import ScriptLint.Proofs.Lockstep.Step

/-! # Comments and tolerance in lockstep

Applying comments under two sets of options, and the productions that ask for a flag.
-/

/-! ## Option comments in lockstep

A comment that sets options does so in both runs. It changes the options field by field, it changes
what the sink drops, and in the end the scopes are given the new rules; two runs that these changes
keep in lockstep may come across any such comment. The limit on the number of reports is a matter of
its own, since it depends on what the sinks hold.
-/

namespace ScriptLint

/-- A change of the options that a comment may ask for, the limit apart. -/
inductive Options.Change : (Options → Options) → Prop
  | edition (edition : Edition) : Change fun o => { o with edition }
  | strict (strict : StrictRule) : Change fun o => { o with strict }
  | unused (unused : UnusedRule) : Change fun o => { o with unused }
  | shadow (shadow : ShadowRule) : Change fun o => { o with shadow }
  | generatorSent (generatorSent : Bool) : Change fun o => { o with generatorSent }
  | flag (flag : Flag) (value : Bool) : Change (·.set flag value)

/-- The comment leaves the limit on the number of reports as it is. -/
def Directive.LeavesLimit (d : Directive) : Prop := ∀ item ∈ d.items, item.1 ≠ "maxerr"

instance (d : Directive) : Decidable d.LeavesLimit := by
  unfold Directive.LeavesLimit
  infer_instance

namespace Reading

variable {p : Pairing}

namespace Pairing

/-- What the changes that option comments ask for have to do for two runs to stay in lockstep. -/
class Hears (p : Pairing) : Prop extends p.Basic where
  change : ∀ {change}, Options.Change change → ∀ {o o'}, p.options o o' →
    p.options (change o) (change o')
  filter : ∀ {change}, Sink.Filter change → (∀ a, (change a).limit = a.limit) → ∀ {s s'},
    p.session s s' → p.session { s with sink := change s.sink } { s' with sink := change s'.sink }
  rules : ∀ {o o' s s'}, p.options o o' → p.session s s' →
    p.session { s with tracker := s.tracker.setRules (.ofOptions o) }
      { s' with tracker := s'.tracker.setRules (.ofOptions o') }

end Pairing

namespace Lockstep

theorem adjustingOptions {change : Options → Options}
    (hchange : ∀ {o o'}, p.options o o' → p.options (change o) (change o')) :
    Lockstep p (adjustOptions change) :=
  .of_same (fun _ => rfl) (fun _ => rfl) (fun _ _ => trivial) fun h =>
    ⟨rfl, hchange h.options, h.session, ⟨h.within.lookahead, h.within.consumed⟩, h.consumed,
      h.lookahead, h.depth, h.inExcluded, h.exports, h.size⟩

theorem adjustingSink {change : Sink → Sink} (hchange : ∀ {s s'}, p.session s s' →
      p.session { s with sink := change s.sink } { s' with sink := change s'.sink }) :
    Lockstep p (adjustSink change) :=
  .of_same (fun _ => rfl) (fun _ => rfl) (fun _ _ => trivial) fun h =>
    ⟨rfl, h.with_session (hchange h.session)⟩

instance [hp : p.Basic] (name : String) (position : Position)
    [Behind p.start position] : Lockstep p (badOption name position) := by
  unfold badOption
  infer_instance

variable [hp : p.Hears]

instance (edition : Edition) : Lockstep p (adjustOptions fun o => { o with edition }) :=
  .adjustingOptions (hp.change (.edition edition))

instance (generatorSent : Bool) :
    Lockstep p (adjustOptions fun o => { o with generatorSent }) :=
  .adjustingOptions (hp.change (.generatorSent generatorSent))

instance (flag : Flag) (value : Bool) : Lockstep p (adjustOptions (·.set flag value)) :=
  .adjustingOptions (hp.change (.flag flag value))

instance (code : String) (line : Nat) (enabled : Bool) :
    Lockstep p (adjustSink (·.toggle code line enabled)) :=
  .adjustingSink (hp.filter (.toggle code line enabled) fun _ => rfl)

instance (line : Nat) : Lockstep p (adjustSink (·.beginIgnore line)) :=
  .adjustingSink (hp.filter (.beginIgnore line) fun a => by unfold Sink.beginIgnore; split <;> rfl)

instance (line : Nat) : Lockstep p (adjustSink (·.endIgnore line)) :=
  .adjustingSink (hp.filter (.endIgnore line) fun a => by unfold Sink.endIgnore; split <;> rfl)

instance (line : Nat) : Lockstep p (adjustSink (·.ignoreLine line)) :=
  .adjustingSink (hp.filter (.ignoreLine line) fun _ => rfl)

section

variable (position : Position) [hposition : Behind p.start position]

theorem applyingRule {rule : Type} (name : String) (found : Except OptionError rule)
    {change : rule → Options → Options} (hchange : ∀ r, Options.Change (change r)) :
    Lockstep p (applyRule name position found change) := by
  unfold applyRule
  split
  · exact .adjustingOptions (hp.change (hchange _))
  · infer_instance

instance (name value : String) : Lockstep p (applyFlag name value position) := by
  unfold applyFlag
  dsimp only
  split <;> infer_instance

instance (value : String) : Lockstep p (applyIgnore value position) := by
  unfold applyIgnore
  split <;> infer_instance

theorem applyingValue (name value : String)
    (hlimit : name ≠ "maxerr" ∨ Lockstep p (applyLimit value position)) :
    Lockstep p (applyValue name value position) := by
  unfold applyValue
  dsimp only
  split
  case h_6 => exact hlimit.resolve_left (· rfl)
  case h_7 =>
    have hrule := applyingRule (p := p) position "strict" (StrictRule.ofChoice (.word value)) .strict
    exact .bind hrule fun _ => by split <;> infer_instance
  case h_8 => exact applyingRule position _ _ .unused
  case h_9 => exact applyingRule position _ _ .shadow
  all_goals try infer_instance
  all_goals split <;> infer_instance

theorem applyingItem (item : String × Option String) (hlimit : item.1 ≠ "maxerr" ∨
      ∀ value, Lockstep p (applyLimit value position)) : Lockstep p (applyItem position item) := by
  unfold applyItem
  dsimp only
  split
  · infer_instance
  · split
    next value _ => exact .applyingValue position _ value (hlimit.imp_right (· value))
    next => infer_instance

end

/-- A comment of any kind, if it leaves the limit alone or the limit makes no difference. -/
theorem applyingDirective (d : Directive) (hposition : p.start.Passes d.position)
    (hlimit : d.LeavesLimit ∨ ∀ value, Lockstep p (applyLimit value d.position)) :
    Lockstep p (applyDirective d) := by
  have : Behind p.start d.position := ⟨hposition⟩
  have hitem (item : String × Option String) (hmem : item ∈ d.items) :
      Lockstep p (applyItem d.position item) :=
    .applyingItem d.position item (hlimit.imp_left (· item hmem))
  have hrules : Lockstep p (options >>= fun o =>
      track (·.setRules (Scope.Rules.ofOptions o))) :=
    .of_same (fun _ => rfl) (fun _ => rfl) (fun _ _ => trivial) fun h =>
      ⟨rfl, h.with_session (hp.rules h.options h.session)⟩
  by_cases hkind : d.kind ≠ .jshint ∧ d.kind ≠ .jslint
  · exact .nameDirective hkind
  · unfold applyDirective
    split
    · exact .bind (.forM_of_mem hitem) fun _ => hrules
    · exact .bind (.forM_of_mem hitem) fun _ => hrules
    all_goals
      next h => exact absurd (by simp [h]) hkind

end Lockstep

end Reading

end ScriptLint

/-! ## Runs under a tolerant flag

A flag that decides about the reports of a few codes decides about nothing else: with its tolerant
value reading goes the same way, and the sink is the same but for these codes. Without a flag this
says that a run keeps all places that it remembers or tells within the source, whatever its comments
say; with one, comments may not set options.

Two runs whose options differ in one flag at most, and whose sinks differ in the codes of that flag
at most, belong both to one run under the tolerant value of the flag. So what keeps a run in lockstep
with the tolerant one keeps the two in lockstep. Here comments may set options, the flag included,
because the two runs come across the same comments.
-/

namespace ScriptLint

namespace Sink

theorem Filter.totalLines {change : Sink → Sink} (hchange : Filter change) (a : Sink) :
    (change a).totalLines = a.totalLines := by
  cases hchange with
  | setLimit | toggle | ignoreLine => rfl
  | beginIgnore line =>
      obtain ⟨_, hframe⟩ := beginIgnore_frame a line
      change (Sink.beginIgnore line a).totalLines = _
      rw [hframe]
  | endIgnore line =>
      obtain ⟨_, hframe⟩ := endIgnore_frame a line
      change (Sink.endIgnore line a).totalLines = _
      rw [hframe]

theorem Anchored.filter {c : Cursor} {change : Sink → Sink} (hchange : Filter change) {a : Sink}
    (ha : a.Anchored c) : (change a).Anchored c := by
  obtain ⟨hterminal, haccepted⟩ := hchange.keeps a
  refine ⟨(hchange.totalLines a).trans ha.totalLines,
    fun d hmem => ha.accepted d (haccepted ▸ hmem), fun d hmem => ?_⟩
  rw [scannedPercent, hchange.totalLines]
  exact ha.terminal d (hterminal ▸ hmem)

/-- What a comment changes about a sink, it changes without the codes too. -/
theorem Filter.silence {change : Sink → Sink} (hchange : Filter change) (codes : List String)
    (a : Sink) : change (a.silence codes) = (change a).silence codes := by
  cases hchange with
  | setLimit | toggle | ignoreLine => rfl
  | beginIgnore line =>
      unfold Sink.beginIgnore Sink.silence
      dsimp only
      split <;> rfl
  | endIgnore line =>
      unfold Sink.endIgnore Sink.silence
      dsimp only
      split <;> rfl

theorem Spared.filter {c : Cursor} {codes : List String} {a b : Sink} (hab : Spared c codes a b)
    {change : Sink → Sink} (hchange : Filter change)
    (hlimit : codes = [] ∨ ∀ a, (change a).limit = a.limit) :
    Spared c codes (change a) (change b) := by
  obtain ⟨rfl, hunlimited, hanchored⟩ := hab
  refine ⟨hchange.silence codes a, ?_, hanchored.filter hchange⟩
  rcases hlimit with hcodes | hlimit
  · exact .inl hcodes
  · exact hunlimited.imp_right ((hlimit a).trans ·)

end Sink

namespace Reading

open Scope (Session Tracker Action)

variable {c : Cursor} {flag? : Option Flag}

namespace Pairing

/-- A run, and the run under the tolerant value of a flag. -/
@[reducible] def relaxed (c : Cursor) (flag? : Option Flag) : Pairing where
  start := c
  allows d := flag? = none ∨ (d.kind ≠ .jshint ∧ d.kind ≠ .jslint)
  options o o' := o' = o.relax flag?
  session s s' := s.Twins c flag? s'

theorem together_of_twinned {α : Type} {action : Action α} (haction : action.Twinned c flag?) :
    (relaxed c flag?).Together action action :=
  ⟨fun h => ⟨(haction.run h).outcome, (haction.run h).session⟩⟩

/-- Where the flag spares a report, only the first sink takes it. -/
theorem together_say {notice : Options → Option Notice} (hnotice : Advisory c notice)
    (o : Options) (scope : String) :
    (relaxed c flag?).Together (Action.say (notice o) scope)
      (Action.say (notice (o.relax flag?)) scope) := by
  refine ⟨fun {s s'} h => ?_⟩
  have hpasses := hnotice.passes o
  rw [hnotice.relax flag? o]
  cases hn : notice o with
  | none => exact ⟨rfl, h⟩
  | some n =>
      have hposition := hpasses n hn
      have hrun := fun s => Action.run_report n.code n.position n.arguments scope n.regular s
      by_cases hcode : n.code ∈ Flag.spared flag?
      · rw [Option.filter_some, if_neg (by simpa using hcode)]
        obtain ⟨houtcome, hsink⟩ := h.sink.report_left hcode hposition n.arguments scope
        change _ = ((Action.report n.code n.position n.arguments scope n.regular).run.run s).1 ∧
          Session.Twins c flag?
            ((Action.report n.code n.position n.arguments scope n.regular).run.run s).2 s'
        rw [hrun]
        exact ⟨houtcome.symm, h.tracker, h.anchored, hsink⟩
      · rw [Option.filter_some, if_pos (by simpa using hcode)]
        obtain ⟨houtcome, hsink⟩ := h.sink.report hcode hposition n.arguments scope
        change ((Action.report n.code n.position n.arguments scope n.regular).run.run s').1 =
            ((Action.report n.code n.position n.arguments scope n.regular).run.run s).1 ∧
          Session.Twins c flag?
            ((Action.report n.code n.position n.arguments scope n.regular).run.run s).2
            ((Action.report n.code n.position n.arguments scope n.regular).run.run s').2
        rw [hrun, hrun]
        exact ⟨houtcome, h.tracker, h.anchored, hsink⟩

instance : (relaxed c flag?).Basic where
  outline h := by
    rw [h.tracker]
    exact .of_frames_eq rfl rfl rfl
  maxDepth := by
    rintro o _ rfl
    exact Options.relax_maxDepth flag? o
  module := by
    rintro o _ rfl
    rw [Options.relax_module, Options.relax_edition]
  say := by
    rintro notice o _ hnotice rfl scope
    exact together_say hnotice o scope
  undeclared {n} hcode hposition name scope := by
    have : Scope.Listed n.code plainCodes := ⟨hcode⟩
    have hreport : (Action.report n.code n.position n.arguments scope n.regular).Twinned c flag? :=
      .report hposition
    have hsay : (Action.sayUndeclared name n scope).Twinned c flag? :=
      .look (fun _ => rfl) fun t _ => .ite hreport (.pure ())
    exact together_of_twinned hsay
  terminate reason position hposition scope s s' h :=
    ⟨h.tracker, h.anchored, h.sink.terminate reason.code hposition scope⟩
  track {change} hchange s s' h := by
    refine ⟨?_, hchange.anchored h.anchored, h.sink⟩
    rw [h.tracker, hchange.setRules, Tracker.relax, hchange.rules_eq]
  declare name kind {_} hposition := together_of_twinned (.declare name kind hposition)
  declareParameter name distinct {_} hposition :=
    together_of_twinned (.declareParameter name distinct hposition)
  declareInBlock name {position} hposition := by
    rintro o _ rfl
    rw [Options.relax_edition]
    have hplace : (Action.declareInBlock name position o.edition.isModern).Twinned c flag? :=
      .ite (.declareBlockFunction name hposition) (.declare name .function hposition)
    exact together_of_twinned hplace
  exitScope := together_of_twinned .exitScope
  finish := together_of_twinned .finish

/-! ### Comments -/

/-- What a comment does, it does in a single run. -/
instance : (relaxed c none).Hears where
  change _ _ _ h := congrArg _ h
  filter hchange _ _ _ h := ⟨h.tracker, h.anchored, h.sink.filter hchange (.inl rfl)⟩
  rules {o o' s s'} ho h := by
    have hsame : o' = o := ho
    rw [hsame]
    exact ⟨congrArg (·.setRules (.ofOptions o)) h.tracker, h.anchored.of_frames_eq rfl rfl, h.sink⟩

instance (value : String) (position : Position) [Behind c position] :
    Lockstep (relaxed c none) (applyLimit value position) := by
  have hlimit (limit : Nat) : Lockstep (relaxed c none) (adjustSink (·.setLimit limit)) :=
    .adjustingSink fun h => ⟨h.tracker, h.anchored, h.sink.filter (.setLimit limit) (.inl rfl)⟩
  have hoptions (limit : Nat) :
      Lockstep (relaxed c none) (adjustOptions fun o => { o with maxErrors := limit }) :=
    .adjustingOptions fun h => congrArg (fun o : Options => { o with maxErrors := limit }) h
  unfold applyLimit
  split <;> infer_instance

/-- Under a flag, comments may only tell which names are known or exported. -/
theorem applyDirective_relaxed (d : Directive)
    (hallowed : flag? = none ∨ (d.kind ≠ .jshint ∧ d.kind ≠ .jslint))
    (hposition : c.Passes d.position) : Lockstep (relaxed c flag?) (applyDirective d) := by
  rcases hallowed with rfl | hkind
  · have : Behind c d.position := ⟨hposition⟩
    exact .applyingDirective d hposition (.inr fun _ => inferInstance)
  · exact .nameDirective hkind

instance : (relaxed c flag?).Lawful where
  directive := applyDirective_relaxed

end Pairing

end Reading

end ScriptLint

/-! ### Runs that differ in a flag -/

namespace ScriptLint

/-- What a comment changes, it changes under the tolerant value of a flag too, unless it sets the
flag itself. -/
theorem Options.Change.relax {change : Options → Options} (hchange : Options.Change change)
    (flag? : Option Flag) (o : Options) :
    (change o).relax flag? = (change (o.relax flag?)).relax flag? := by
  rcases flag? with _ | flag
  · rfl
  cases hchange with
  | edition | strict | unused | shadow | generatorSent => cases flag <;> rfl
  | flag other value => cases flag <;> cases other <;> rfl

namespace Reading

open Scope (Session Tracker Action)

variable {c : Cursor} {flag? : Option Flag}

/-- The rules that options give, and those that the relaxed options give. -/
theorem twins_setRules {s m : Session} (h : s.Twins c flag? m) (o : Options) :
    Session.Twins c flag? { s with tracker := s.tracker.setRules (.ofOptions o) }
      { m with tracker := m.tracker.setRules (.ofOptions (o.relax flag?)) } := by
  refine ⟨?_, h.anchored.of_frames_eq rfl rfl, h.sink⟩
  change m.tracker.setRules (.ofOptions (o.relax flag?)) = _
  rw [h.tracker, Scope.Rules.ofOptions_relax]
  rfl

namespace Pairing

/-- Two runs that differ at most in a flag and in what it decides about. No comment may move the
limit, which the reports that only one of the runs makes would count towards. -/
@[reducible] def varied (c : Cursor) (flag? : Option Flag) : Pairing where
  start := c
  allows := Directive.LeavesLimit
  options o o' := o'.relax flag? = o.relax flag?
  session s s' := ∃ m, s.Twins c flag? m ∧ s'.Twins c flag? m

/-- What each of two actions does together with a third, the two do together. -/
theorem Together.of_relaxed {α : Type} {action action' tolerant : Action α}
    (haction : (relaxed c flag?).Together action tolerant)
    (haction' : (relaxed c flag?).Together action' tolerant) :
    (varied c flag?).Together action action' := by
  refine ⟨?_⟩
  rintro s s' ⟨m, h, h'⟩
  obtain ⟨houtcome, hsession⟩ := haction.run h
  obtain ⟨houtcome', hsession'⟩ := haction'.run h'
  exact ⟨houtcome'.symm.trans houtcome, _, hsession, hsession'⟩

theorem Together.of_self {α : Type} {action : Action α}
    (haction : (relaxed c flag?).Together action action) :
    (varied c flag?).Together action action := .of_relaxed haction haction

instance : (varied c flag?).Basic where
  outline := by
    rintro s s' ⟨m, h, h'⟩
    have hleft : s.tracker.SameOutline m.tracker := Basic.outline (p := relaxed c flag?) h
    have hright : s'.tracker.SameOutline m.tracker := Basic.outline (p := relaxed c flag?) h'
    exact hleft.trans hright.symm
  maxDepth {o o'} h := by
    rw [← Options.relax_maxDepth flag? o', h, Options.relax_maxDepth]
  module {o o'} h := by
    rw [← Options.relax_module flag? o', ← Options.relax_edition flag? o', h, Options.relax_module,
      Options.relax_edition]
  say {notice o o'} hnotice h scope := by
    refine .of_relaxed (together_say hnotice o scope) ?_
    rw [← h]
    exact together_say hnotice o' scope
  undeclared hcode hposition name scope :=
    .of_self (Basic.undeclared (p := relaxed c flag?) hcode hposition name scope)
  terminate reason _ hposition scope := by
    rintro s s' ⟨m, h, h'⟩
    exact ⟨_, Basic.terminate (p := relaxed c flag?) reason hposition scope h,
      Basic.terminate (p := relaxed c flag?) reason hposition scope h'⟩
  track hchange := by
    rintro s s' ⟨m, h, h'⟩
    exact ⟨_, Basic.track (p := relaxed c flag?) hchange h,
      Basic.track (p := relaxed c flag?) hchange h'⟩
  declare name kind _ hposition :=
    .of_self (Basic.declare (p := relaxed c flag?) name kind hposition)
  declareParameter name distinct _ hposition :=
    .of_self (Basic.declareParameter (p := relaxed c flag?) name distinct hposition)
  declareInBlock name position hposition o o' h := by
    refine .of_relaxed (Basic.declareInBlock (p := relaxed c flag?) name hposition rfl) ?_
    rw [← h]
    exact Basic.declareInBlock (p := relaxed c flag?) name hposition rfl
  exitScope := .of_self (Basic.exitScope (p := relaxed c flag?))
  finish := .of_self (Basic.finish (p := relaxed c flag?))

instance : (varied c flag?).Hears where
  change hchange o o' h := by
    change _ = _
    rw [hchange.relax flag? o', h, ← hchange.relax]
  filter {change} hchange hlimit := by
    rintro s s' ⟨m, h, h'⟩
    have hfilter {s : Session} (h : s.Twins c flag? m) :
        Session.Twins c flag? { s with sink := change s.sink } { m with sink := change m.sink } :=
      ⟨h.tracker, h.anchored, h.sink.filter hchange (.inr hlimit)⟩
    exact ⟨_, hfilter h, hfilter h'⟩
  rules := by
    rintro o o' s s' hoptions ⟨m, h, h'⟩
    have hright := twins_setRules h' o'
    rw [hoptions] at hright
    exact ⟨_, twins_setRules h o, hright⟩

instance : (varied c flag?).Lawful where
  directive d hlimit hposition := .applyingDirective d hposition (.inl hlimit)

end Pairing

end Reading

end ScriptLint

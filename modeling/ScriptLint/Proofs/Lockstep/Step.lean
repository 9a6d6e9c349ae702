import ScriptLint.Proofs.Lockstep.Basic

/-! # Steps in lockstep

What it takes for two runs to stay in lockstep is put into a few laws about single steps: reports,
early ends, and changes of the scopes. Some reports depend on the options and are made in one of the
runs only. Such a report is advisory: a flag decides about it alone, or it asks for an edition.
-/

namespace ScriptLint

/-- What a report says, and of which place. -/
structure Notice where
  code : String
  position : Position
  arguments : List String
  regular : Halt.IsRegular code := by decide

namespace Options

/-- The second options ask for the same as the first, in a later edition or the same one. -/
structure Later (o o' : Options) : Prop where
  same : { o with edition := o'.edition } = o'
  edition : o.edition ≤ o'.edition

end Options

/-- A report on which the options decide. A tolerant flag takes away the codes that it is about and
no others, and a later edition brings no report that asks for one. -/
structure Advisory (c : Cursor) (notice : Options → Option Notice) : Prop where
  passes : ∀ o, ∀ n ∈ notice o, c.Passes n.position
  relax : ∀ flag? o, notice (o.relax flag?) =
    (notice o).filter fun n => n.code ∉ Flag.spared flag?
  edition : ∀ {o o'}, Options.Later o o' → ∀ n ∈ notice o', n.code ∈ editionCodes → n ∈ notice o

namespace Advisory

variable {c : Cursor} {notice : Options → Option Notice}

/-- Reports that no flag decides about, although other options do. -/
theorem of_plain (hplain : ∀ o, ∀ n ∈ notice o, n.code ∈ plainCodes ∧ c.Passes n.position)
    (hrelax : ∀ flag? o, notice (o.relax flag?) = notice o) : Advisory c notice where
  passes o n hn := (hplain o n hn).2
  relax flag? o := by
    rw [hrelax]
    cases hn : notice o with
    | none => rfl
    | some n => simp [Option.filter, Flag.not_mem_spared flag? (hplain o n hn).1]
  edition _ n hn hmem := absurd hmem (not_mem_editionCodes_of_plain n.code (hplain _ n hn).1)

/-- A report that is made whatever the options are. -/
theorem const {n : Notice} (hcode : n.code ∈ plainCodes) (hpasses : c.Passes n.position) :
    Advisory c fun _ => some n := by
  refine .of_plain (fun _ _ hn => ?_) fun _ _ => rfl
  cases hn
  exact ⟨hcode, hpasses⟩

/-- A report about which one flag decides. -/
theorem of_flag {flag : Flag} {n : Notice} (hcode : n.code ∈ flag.codes)
    (hpasses : c.Passes n.position) {q : Options → Bool}
    (hq : ∀ flag? o, q (o.relax flag?) = (q o && decide (n.code ∉ Flag.spared flag?))) :
    Advisory c fun o => if q o then some n else none where
  passes o n' hn' := by
    split at hn' <;> cases hn'
    exact hpasses
  relax flag? o := by
    rw [hq]
    cases q o
    · rfl
    · simp [Option.filter]
  edition _ n' hn' hmem := by
    split at hn' <;> cases hn'
    exact absurd hcode (Flag.not_mem_spared_of_edition (some flag) hmem)

/-- A report that a flag turns off, if there is a reason for it at all. -/
theorem of_not_flag {flag : Flag} (htolerant : flag.tolerant = true) {n : Notice}
    (hcode : n.code ∈ flag.codes) (hpasses : c.Passes n.position) (reason : Bool)
    {q : Options → Bool} (hq : ∀ o, q o = (reason && !o.get flag)) :
    Advisory c fun o => if q o then some n else none :=
  .of_flag hcode hpasses fun flag? o => by
    rw [hq, hq, Options.not_get_relax flag? o htolerant hcode, Bool.and_assoc]

/-- A report that a flag turns on, if there is a reason for it at all. -/
theorem of_set_flag {flag : Flag} (htolerant : flag.tolerant = false) {n : Notice}
    (hcode : n.code ∈ flag.codes) (hpasses : c.Passes n.position) (reason : Bool)
    {q : Options → Bool} (hq : ∀ o, q o = (reason && o.get flag)) :
    Advisory c fun o => if q o then some n else none :=
  .of_flag hcode hpasses fun flag? o => by
    rw [hq, hq, Options.get_relax_of_not_tolerant flag? o htolerant hcode, Bool.and_assoc]

/-- One of two reports, neither of which asks for a later edition. -/
theorem ite {notice' : Options → Option Notice} {q : Options → Bool}
    (hq : ∀ flag? o, q (o.relax flag?) = q o) (h : Advisory c notice) (h' : Advisory c notice')
    (hcode : ∀ o, ∀ n ∈ notice o, n.code ∉ editionCodes)
    (hcode' : ∀ o, ∀ n ∈ notice' o, n.code ∉ editionCodes) :
    Advisory c fun o => if q o then notice o else notice' o where
  passes o n hn := by
    split at hn
    · exact h.passes o n hn
    · exact h'.passes o n hn
  relax flag? o := by
    rw [hq]
    split
    · exact h.relax flag? o
    · exact h'.relax flag? o
  edition {_ o'} _ n hn hmem := by
    split at hn
    · exact absurd hmem (hcode o' n hn)
    · exact absurd hmem (hcode' o' n hn)

/-- A report that asks for a later edition, and that a later edition does not bring about. -/
theorem of_edition {n : Notice} (hcode : n.code ∈ editionCodes) (hpasses : c.Passes n.position)
    {q : Edition → Bool} (hq : ∀ {e e' : Edition}, e ≤ e' → q e' = true → q e = true) :
    Advisory c fun o => if q o.edition then some n else none where
  passes o n' hn' := by
    split at hn' <;> cases hn'
    exact hpasses
  relax flag? o := by
    rw [Options.relax_edition]
    cases q o.edition
    · rfl
    · simp [Option.filter, Flag.not_mem_spared_of_edition flag? hcode]
  edition {o o'} h n' hn' _ := by
    split at hn'
    next hlater =>
      rw [if_pos (hq h.edition hlater)]
      exact hn'
    next => cases hn'

end Advisory

namespace Scope.Action

/-- Report, if there is something to report. -/
def say (notice? : Option Notice) (scope : String) : Action Unit :=
  match notice? with
  | none => Pure.pure ()
  | some n => report n.code n.position n.arguments scope n.regular

/-- Report something about a name unless it is declared. -/
def sayUndeclared (name : String) (n : Notice) (scope : String) : Action Unit := do
  if !(← tracker).isDeclared name then say (some n) scope

/-- Declare a function of a block, in the block only if the edition is modern. -/
def declareInBlock (name : String) (position : Position) (modern : Bool) : Action PUnit :=
  if modern then declareBlockFunction name position else declare name .function position

end Scope.Action

namespace Reading

open Scope (Session Tracker Action)

variable {α β : Type}

/-- Report, if there is something to report. -/
def tell (notice? : Option Notice) : Reading Unit :=
  match notice? with
  | none => pure ()
  | some n => report n.code n.position n.arguments n.regular

theorem tell_ite (q : Bool) (n : Notice) : tell (if q then some n else none) =
    if q then report n.code n.position n.arguments n.regular else pure () := by
  cases q <;> rfl

theorem tell_ite_bind (q : Prop) [Decidable q] (notice? notice'? : Option Notice)
    (next : Unit → Reading α) : (tell (if q then notice? else notice'?) >>= next) =
      if q then tell notice? >>= next else tell notice'? >>= next := by
  split <;> rfl

theorem run_tell (notice? : Option Notice) (s : State) :
    (tell notice?).run.run s =
      (((Action.say notice? s.session.tracker.functionName).run.run s.session).1.mapError .halted,
        { s with
          session := ((Action.say notice? s.session.tracker.functionName).run.run s.session).2 }) := by
  cases notice? with
  | none => rfl
  | some n =>
      change (inScopes (Action.say (some n) s.session.tracker.functionName)).run.run s = _
      rw [run_inScopes]

/-- A step that makes no report, or one of a kind. -/
inductive AtMostTells (q : Notice → Prop) : Reading Unit → Prop
  | nothing : AtMostTells q (pure ())
  | report (n : Notice) : q n → AtMostTells q (report n.code n.position n.arguments n.regular)

theorem AtMostTells.ite {q : Notice → Prop} {r : Prop} [Decidable r] {first second : Reading Unit}
    (hfirst : AtMostTells q first) (hsecond : AtMostTells q second) :
    AtMostTells q (if r then first else second) := by
  split
  · exact hfirst
  · exact hsecond

/-- Steps whose runs are the same are in lockstep together. -/
theorem Lockstep.congr {p : Pairing} [HasPlaces α] {step step' : Reading α}
    (hrun : ∀ s, step.run.run s = step'.run.run s) (hstep : Lockstep p step') : Lockstep p step where
  proceeds {s} hs := by
    rw [hrun]
    exact hstep.proceeds hs
  run {s s'} h hallowed := by
    rw [hrun] at hallowed ⊢
    rw [hrun]
    exact hstep.run h hallowed

namespace Pairing

/-- What reports, early ends and changes of the scopes have to do for two runs to stay in
lockstep. -/
class Basic (p : Pairing) : Prop where
  outline : ∀ {s s'}, p.session s s' → s.tracker.SameOutline s'.tracker
  maxDepth : ∀ {o o'}, p.options o o' → o'.maxDepth = o.maxDepth
  /-- Outside functions `await` is an operator for both or for none. -/
  module : ∀ {o o'}, p.options o o' →
    (o'.module && decide (Edition.es2022 ≤ o'.edition)) =
      (o.module && decide (Edition.es2022 ≤ o.edition))
  say : ∀ {notice o o'}, Advisory p.start notice → p.options o o' → ∀ scope,
    p.Together (Action.say (notice o) scope) (Action.say (notice o') scope)
  undeclared : ∀ {n : Notice}, n.code ∈ plainCodes → p.start.Passes n.position → ∀ name scope,
    p.Together (Action.sayUndeclared name n scope) (Action.sayUndeclared name n scope)
  terminate : ∀ (reason : Halt) {position}, p.start.Passes position → ∀ scope {s s'},
    p.session s s' → p.session { s with sink := s.sink.terminate reason.code position scope }
      { s' with sink := s'.sink.terminate reason.code position scope }
  track : ∀ {change}, Tracker.Tame p.start change → ∀ {s s'}, p.session s s' →
    p.session { s with tracker := change s.tracker } { s' with tracker := change s'.tracker }
  declare : ∀ name kind {position}, p.start.Passes position →
    p.Together (Action.declare name kind position) (Action.declare name kind position)
  declareParameter : ∀ name distinct {position}, p.start.Passes position →
    p.Together (Action.declareParameter name position distinct)
      (Action.declareParameter name position distinct)
  declareInBlock : ∀ name {position}, p.start.Passes position → ∀ {o o'}, p.options o o' →
    p.Together (Action.declareInBlock name position o.edition.isModern)
      (Action.declareInBlock name position o'.edition.isModern)
  exitScope : p.Together Action.exitScope Action.exitScope
  finish : p.Together Action.finish Action.finish

/-- What all steps have to do. How a comment is applied depends on which comments there may be. -/
class Lawful (p : Pairing) : Prop extends p.Basic where
  directive : ∀ d, p.allows d → p.start.Passes d.position → Lockstep p (applyDirective d)

end Pairing

variable {p : Pairing} {c : Cursor}

namespace Lockstep

/-- An action that the options choose. -/
theorem inScopesUnder {action : Options → Action PUnit}
    (haction : ∀ {o o'}, p.options o o' → p.Together (action o) (action o')) :
    Lockstep p (options >>= fun o => Reading.inScopes (action o)) := by
  have hrun (s : State) : (options >>= fun o => Reading.inScopes (action o)).run.run s =
      (Reading.inScopes (action s.options)).run.run s := rfl
  refine .of_same (fun s => ?_) (fun s => ?_) (fun _ _ => trivial) fun {s s'} h => ?_
  · rw [hrun, run_inScopes]
  · rw [hrun, run_inScopes]
  · obtain ⟨houtcome, hsession⟩ := (haction h.options).run h.session
    rw [hrun, hrun, run_inScopes, run_inScopes, houtcome]
    exact ⟨rfl, h.with_session hsession⟩

theorem inScopes {action : Action PUnit} (haction : p.Together action action) :
    Lockstep p (Reading.inScopes action) :=
  .congr (fun _ => rfl) (.inScopesUnder fun _ => haction)

variable [hp : p.Basic]

/-! ## Reports -/

/-- A step that is nothing but an advisory report. -/
theorem note {step : Reading Unit} (notice : State → Options → Option Notice)
    (hshared : ∀ {s s'}, p.Relates s s' → notice s' = notice s)
    (hadvisory : ∀ {s : State}, s.Within p.start → Advisory p.start (notice s))
    (hrun : ∀ s, step.run.run s = (tell (notice s s.options)).run.run s) : Lockstep p step := by
  refine .of_same (fun s => ?_) (fun s => ?_) (fun _ _ => trivial) fun {s s'} h => ?_
  · rw [hrun, run_tell]
  · rw [hrun, run_tell]
  · rw [hrun, hrun, run_tell, run_tell, hshared h, (hp.outline h.session).functionName]
    obtain ⟨houtcome, hsession⟩ := (hp.say (hadvisory h.within) h.options _).run h.session
    rw [houtcome]
    exact ⟨rfl, h.with_session hsession⟩

/-- An advisory report, and what comes after it. -/
theorem remark [HasPlaces α] {step : Reading α} (next : Reading α)
    (notice : State → Options → Option Notice)
    (hshared : ∀ {s s'}, p.Relates s s' → notice s' = notice s)
    (hadvisory : ∀ {s : State}, s.Within p.start → Advisory p.start (notice s))
    (hrun : ∀ s, step.run.run s = (tell (notice s s.options) >>= fun _ => next).run.run s)
    [hnext : Lockstep p next] : Lockstep p step := by
  have hnote : Lockstep p (do tell (notice (← get) (← options))) :=
    .note notice hshared hadvisory fun _ => rfl
  exact .congr hrun (.bind hnote fun _ => hnext)

instance report (code : String) (position : Position) (arguments : List String)
    (hcode : Halt.IsRegular code) [hlisted : Scope.Listed code plainCodes]
    [hposition : Behind p.start position] : Lockstep p (report code position arguments hcode) := by
  let n : Notice := ⟨code, position, arguments, hcode⟩
  exact .note _ (fun _ => rfl) (fun _ => .const (n := n) hlisted.mem hposition.behind) fun _ => rfl

/-- A report that a flag turns off, if there is a reason for it at all. -/
theorem noteUnless (flag : Flag) (htolerant : flag.tolerant = true) {n : Notice}
    (hcode : n.code ∈ flag.codes) (hposition : p.start.Passes n.position) (reason : Bool)
    {q : Options → Bool} (hq : ∀ o, q o = (reason && !o.get flag)) :
    Lockstep p (options >>= fun o =>
      if q o then Reading.report n.code n.position n.arguments n.regular else Pure.pure ()) :=
  .note _ (fun _ => rfl) (fun _ => .of_not_flag htolerant hcode hposition reason hq) fun s => by
    rw [tell_ite]
    rfl

/-- A report that a flag asks for, if there is a reason for it at all. -/
theorem noteIf (flag : Flag) (htolerant : flag.tolerant = false) {n : Notice}
    (hcode : n.code ∈ flag.codes) (hposition : p.start.Passes n.position) (reason : Bool)
    {q : Options → Bool} (hq : ∀ o, q o = (reason && o.get flag)) :
    Lockstep p (options >>= fun o =>
      if q o then Reading.report n.code n.position n.arguments n.regular else Pure.pure ()) :=
  .note _ (fun _ => rfl) (fun _ => .of_set_flag htolerant hcode hposition reason hq) fun s => by
    rw [tell_ite]
    rfl

omit hp in
/-- A question whose answer makes no difference. -/
theorem idle {γ : Type} {ask : Reading γ} {q : γ → Prop} [∀ a, Decidable (q a)]
    (hask : ∀ s, ∃ a, ask.run.run s = (.ok a, s)) :
    Lockstep p (ask >>= fun a => if q a then Pure.pure () else Pure.pure ()) := by
  refine .congr (fun s => ?_) (.pure ())
  obtain ⟨a, ha⟩ := hask s
  rw [run_bind, ha]
  dsimp only
  split <;> rfl

/-- One of several reports that a flag turns off. -/
theorem unlessSet (flag : Flag) (htolerant : flag.tolerant = true) {step : Reading Unit}
    (hstep : AtMostTells (fun n => n.code ∈ flag.codes ∧ p.start.Passes n.position) step) :
    Lockstep p (options >>= fun o => if !o.get flag then step else Pure.pure ()) := by
  cases hstep with
  | nothing => exact .idle fun s => ⟨s.options, rfl⟩
  | report n hn => exact .noteUnless flag htolerant hn.1 hn.2 true fun _ => (Bool.true_and _).symm

/-- A report about which options decide that are no flags, or flags that decide about more. -/
theorem underOptions {n : Notice} (hcode : n.code ∈ plainCodes) (hposition : p.start.Passes n.position)
    (q : State → Options → Bool) (hshared : ∀ {s s'}, p.Relates s s' → q s' = q s)
    (hrelax : ∀ s flag? o, q s (o.relax flag?) = q s o) {step : Reading Unit}
    (hrun : ∀ s, step.run.run s = (tell (if q s s.options then some n else none)).run.run s) :
    Lockstep p step := by
  refine .note (fun s o => if q s o then some n else none) (fun h => by rw [hshared h])
    (fun {s} _ => .of_plain (fun o n' hn' => ?_) fun flag? o => ?_) hrun
  · split at hn' <;> cases hn'
    exact ⟨hcode, hposition⟩
  · rw [hrelax]

/-- A report about something that only the oldest edition does not have. -/
theorem inOldest {n : Notice} (hcode : n.code ∈ plainCodes) (hposition : p.start.Passes n.position) :
    Lockstep p (options >>= fun o => if o.edition = .es3 then
      Reading.report n.code n.position n.arguments n.regular else Pure.pure ()) := by
  refine .underOptions hcode hposition (fun _ o => o.edition = .es3) (fun _ => rfl)
    (fun _ flag? o => ?_) fun s => ?_
  · rw [Options.relax_edition]
  · rw [tell_ite]
    change (if s.options.edition = .es3 then _ else _ : Reading Unit).run.run s = _
    simp only [decide_eq_true_eq]

/-- A report about a name that is not declared. Which names are is up to the sessions. -/
theorem undeclared (name : String) {n : Notice} (hcode : n.code ∈ plainCodes)
    (hposition : p.start.Passes n.position) {step : Reading Unit}
    (hrun : ∀ s, step.run.run s = (do
      if !(← tracker).isDeclared name then tell (some n) : Reading Unit).run.run s) :
    Lockstep p step := by
  have hstep (s : State) : step.run.run s =
      (((Action.sayUndeclared name n s.session.tracker.functionName).run.run
          s.session).1.mapError .halted,
        { s with session := ((Action.sayUndeclared name n s.session.tracker.functionName).run.run
          s.session).2 }) := by
    rw [hrun]
    change (if !s.session.tracker.isDeclared name then tell (some n) else pure ()).run.run s =
      (((if !s.session.tracker.isDeclared name then Action.say (some n) _
        else pure ()).run.run s.session).1.mapError .halted,
        { s with session := ((if !s.session.tracker.isDeclared name then Action.say (some n) _
          else pure ()).run.run s.session).2 })
    split
    · exact run_tell _ s
    · rfl
  refine .of_same (fun s => ?_) (fun s => ?_) (fun _ _ => trivial) fun {s s'} h => ?_
  · rw [hstep]
  · rw [hstep]
  · rw [hstep, hstep, (hp.outline h.session).functionName]
    obtain ⟨houtcome, hsession⟩ := (hp.undeclared hcode hposition name _).run h.session
    rw [houtcome]
    exact ⟨rfl, h.with_session hsession⟩

instance (issue : LexicalIssue) [hlisted : Scope.Listed issue.code plainCodes]
    [hposition : Behind p.start issue.position] : Lockstep p (reportIssue issue) :=
  .report issue.code issue.position issue.arguments issue.regular

/-- The use of a feature is reported in old editions only. -/
instance (feature : String) (since : Edition) (position : Position)
    [hposition : Behind p.start position] :
    Lockstep p (requireEdition feature since position) := by
  let n : Notice := ⟨"W119", position, [feature, toString since.number], by decide⟩
  have hadvisory : Advisory p.start fun o => if decide (o.edition < since) then some n else none :=
    .of_edition (q := fun e => decide (e < since)) Scope.Listed.mem hposition.behind
      fun hle hlt => decide_eq_true (Nat.lt_of_le_of_lt hle (of_decide_eq_true hlt))
  exact .note _ (fun _ => rfl) (fun _ => hadvisory) fun s => by rw [tell_ite]; rfl

instance (feature : String) (position : Position) [hposition : Behind p.start position] :
    Lockstep p (requireModern feature position) := by
  let n : Notice := ⟨"W104", position, [feature, toString Edition.es2015.number], by decide⟩
  have hadvisory : Advisory p.start fun o => if !o.edition.isModern then some n else none :=
    .of_edition (q := fun e => !e.isModern) Scope.Listed.mem hposition.behind fun {e e'} hle hold => by
      revert hle hold
      cases e <;> cases e' <;> decide
  exact .note _ (fun _ => rfl) (fun _ => hadvisory) fun s => by rw [tell_ite]; rfl

/-! ## Early ends and bounds -/

instance halt [HasPlaces α] (reason : Halt) (position : Position)
    [hposition : Behind p.start position] :
    Lockstep p (halt reason position : Reading α) := by
  refine .of_same (fun _ => rfl) (fun _ => rfl) (fun _ => nofun) fun {s s'} h => ⟨rfl, ?_⟩
  have hsession := hp.terminate reason hposition.behind s.session.tracker.functionName h.session
  change p.Relates _ { s' with session := ⟨s'.session.tracker,
    s'.session.sink.terminate reason.code position s'.session.tracker.functionName⟩ }
  rw [(hp.outline h.session).functionName]
  exact h.with_session hsession

instance nested [HasPlaces α] {step : Reading α} [hstep : Lockstep p step] :
    Lockstep p (nested step) := by
  have hchange (change : Nat → Nat) :
      Lockstep p (modify fun s => { s with depth := change s.depth } : Reading Unit) :=
    .of_same (fun _ => rfl) (fun _ => rfl) (fun _ _ => trivial) fun h =>
      ⟨rfl, h.options, h.session, ⟨h.within.lookahead, h.within.consumed⟩, h.consumed, h.lookahead,
        congrArg change h.depth, h.inExcluded, h.exports, h.size⟩
  refine .bind (hchange _) fun _ => .observe (fun {s s'} h => ?_) fun s hs => ?_
  · rw [h.lookahead, h.depth, hp.maxDepth h.options]
  · have : Behind p.start s.lookahead.position := ⟨hs.lookahead.start.passes⟩
    have := hchange (· - 1)
    infer_instance

/-! ## Scopes -/

instance (change : Tracker → Tracker) [hchange : Tracker.Tame p.start change] :
    Lockstep p (track change) :=
  .of_same (fun _ => rfl) (fun _ => rfl) (fun _ _ => trivial) fun h =>
    ⟨rfl, h.with_session (hp.track hchange h.session)⟩

instance (name : String) (position : Position) [hposition : Behind p.start position] :
    Lockstep p (track (·.declareFunctionName name position)) :=
  have := Tracker.Tame.declareFunctionName name hposition.behind
  inferInstance

instance (name : String) (position : Position) (access : Scope.Access)
    [hposition : Behind p.start position] :
    Lockstep p (track (·.addReference name position access)) :=
  have := Tracker.Tame.addReference name access hposition.behind
  inferInstance

instance (name : String) (kind : Scope.BindingKind) (position : Position)
    [hposition : Behind p.start position] :
    Lockstep p (Reading.inScopes (Action.declare name kind position)) :=
  .inScopes (hp.declare name kind hposition.behind)

instance (name : String) (position : Position) (distinct : Bool)
    [hposition : Behind p.start position] :
    Lockstep p (Reading.inScopes (Action.declareParameter name position distinct)) :=
  .inScopes (hp.declareParameter name distinct hposition.behind)

instance (name : String) (position : Position) [hposition : Behind p.start position] :
    Lockstep p (options >>= fun o =>
      Reading.inScopes (Action.declareInBlock name position o.edition.isModern)) :=
  .inScopesUnder (hp.declareInBlock name hposition.behind)

instance : Lockstep p (Reading.inScopes Action.exitScope) := .inScopes hp.exitScope

instance : Lockstep p (Reading.inScopes Action.finish) := .inScopes hp.finish

/-- What a reader sees of the scopes is the same in both runs. -/
theorem look [HasPlaces α] {next : Tracker → Reading α}
    (hblind : ∀ {t t'}, t.SameOutline t' → next t' = next t) (hnext : ∀ t, Lockstep p (next t)) :
    Lockstep p (tracker >>= next) := by
  change Lockstep p (get >>= fun s : State => next s.session.tracker)
  exact .observe (fun h => hblind (hp.outline h.session)) fun s _ => hnext s.session.tracker

instance : Lockstep p isStrict := .look (fun h => by rw [h.isStrict]) fun _ => inferInstance

/-- A comment that tells which names are known or exported. -/
theorem nameDirective {d : Directive} (hkind : d.kind ≠ .jshint ∧ d.kind ≠ .jslint) :
    Lockstep p (applyDirective d) := by
  have (item : String × Option String) : Lockstep p (applyGlobal item) := by
    unfold applyGlobal
    split <;> infer_instance
  unfold applyDirective
  split
  next h => exact absurd h hkind.1
  next h => exact absurd h hkind.2
  · exact .forM_of_mem fun item _ => this item
  · exact .forM_of_mem fun item _ => inferInstance
  · infer_instance

/-! ## Consuming tokens -/

/-- No flag decides about a problem that makes reading on senseless. -/
theorem listed_of_fatal {issue : LexicalIssue} (hissue : issue.Found LexicalIssue.kinds c)
    (hfatal : issue.fatal = true) : Scope.Listed issue.code plainCodes := by
  have hkind := hissue.kind
  rw [hfatal] at hkind
  have hcodes : ∀ kind ∈ LexicalIssue.kinds, kind.2 = true → kind.1 ∈ plainCodes := by decide
  exact ⟨hcodes _ hkind rfl⟩

/-- A problem of a token is reported unless an option tolerates it. -/
theorem advisory_issue {issue : LexicalIssue} (hissue : issue.Found LexicalIssue.kinds c) :
    Advisory c fun o => if !tolerates o issue then
      some ⟨issue.code, issue.position, issue.arguments, issue.regular⟩ else none := by
  let n : Notice := ⟨issue.code, issue.position, issue.arguments, issue.regular⟩
  have hposition : c.Passes n.position := hissue.position
  by_cases hstring : issue.code = "W043"
  · have hcode : n.code ∈ Flag.codes .multistr := by simp [n, hstring, Flag.codes]
    refine .of_not_flag rfl hcode hposition true fun o => ?_
    simp [tolerates, hstring, Options.get]
  by_cases hspace : issue.code = "W125"
  · have hcode : n.code ∈ Flag.codes .nonbsp := by simp [n, hspace, Flag.codes]
    refine .of_set_flag rfl hcode hposition true fun o => ?_
    simp [tolerates, hspace, Options.get]
  -- No flag tolerates the other kinds of problems, but an edition may.
  have htolerates (o : Options) : tolerates o issue = issue.since?.any (· ≤ o.edition) := by
    simp [tolerates, hstring, hspace]
  by_cases hgate : issue.code = "W119"
  · simp only [htolerates]
    have hcode : n.code ∈ editionCodes := by simp [n, hgate]
    refine .of_edition (q := fun e => !issue.since?.any (· ≤ e)) hcode hposition ?_
    intro e e' hle hlater
    cases hsince : issue.since? with
    | none => simp
    | some since =>
        simp only [hsince, Option.any_some, Bool.not_eq_true', decide_eq_false_iff_not] at hlater ⊢
        exact fun hearlier => hlater (Nat.le_trans hearlier hle)
  · have hkind := hissue.kind
    simp only [LexicalIssue.kinds, List.mem_cons, Prod.mk.injEq, hstring, hspace, hgate, false_and,
      false_or, List.not_mem_nil, or_false] at hkind
    refine .of_plain (fun o n' hn' => ?_) fun flag? o => ?_
    · split at hn' <;> cases hn'
      refine ⟨?_, hposition⟩
      rcases hkind with h | h | h | h | h | h | h | h | h | h <;> simp [h.1]
    · simp only [htolerates, Options.relax_edition]

theorem reportIssues {issues : List LexicalIssue}
    (hissues : LexicalIssue.AllFound LexicalIssue.kinds p.start issues) :
    Lockstep p (reportIssues issues) := by
  refine .forM_of_mem fun issue hmem => ?_
  refine .note _ (fun _ => rfl) (fun _ => advisory_issue (hissues issue hmem)) fun s => ?_
  rw [tell_ite (!tolerates s.options issue)
    ⟨issue.code, issue.position, issue.arguments, issue.regular⟩]
  rfl

end Lockstep

end Reading

end ScriptLint

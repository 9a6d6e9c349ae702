import ScriptLint.Proofs.Diagnostic.Sides
import ScriptLint.Proofs.Lexing.Run
import ScriptLint.Proofs.Reading.Restriction

/-! # What comments change

The limit of the sink, its toggles and the lines that it ignores are the business of comments and of
nothing else. What a comment changes it announces in its items, so the items tell what may happen to
the sink while the comments in front of a token are applied. Meanwhile the token stays where it is.
-/

namespace ScriptLint

namespace Sink

/-- Between the sinks nothing was set but what the items say. -/
structure Changes (Items : String × Option String → Prop) (a b : Sink) : Prop where
  limit : b.limit = a.limit ∨ ∃ value, Items ("maxerr", some value)
  toggles : ∀ toggle ∈ b.toggles, toggle ∈ a.toggles ∨
    ∃ item, Items item ∧ codeToggle? item.1 = some (toggle.code, toggle.enabled)
  ignoredLines : b.ignoredLines = a.ignoredLines ∨ Items ("ignore", some "line")

namespace Changes

variable {Items Items' : String × Option String → Prop} {a b c : Sink}

theorem of_same (hlimit : b.limit = a.limit) (htoggles : b.toggles = a.toggles)
    (hlines : b.ignoredLines = a.ignoredLines) : a.Changes Items b :=
  ⟨.inl hlimit, fun _ hmem => .inl (htoggles ▸ hmem), .inl hlines⟩

theorem refl (a : Sink) : a.Changes Items a := .of_same rfl rfl rfl

theorem trans (hab : a.Changes Items b) (hbc : b.Changes Items c) : a.Changes Items c where
  limit := by
    rcases hbc.limit with hlimit | hitem
    · exact hlimit ▸ hab.limit
    · exact .inr hitem
  toggles toggle hmem := by
    rcases hbc.toggles toggle hmem with hmem | hitem
    · exact hab.toggles toggle hmem
    · exact .inr hitem
  ignoredLines := by
    rcases hbc.ignoredLines with hlines | hitem
    · exact hlines ▸ hab.ignoredLines
    · exact .inr hitem

theorem mono (hab : a.Changes Items b) (hitems : ∀ item, Items item → Items' item) :
    a.Changes Items' b where
  limit := hab.limit.imp_right fun ⟨value, hitem⟩ => ⟨value, hitems _ hitem⟩
  toggles toggle hmem :=
    (hab.toggles toggle hmem).imp_right fun ⟨item, hitem, hcode⟩ => ⟨item, hitems _ hitem, hcode⟩
  ignoredLines := hab.ignoredLines.imp_right (hitems _)

theorem report (a : Sink) (code : String) (position : Position) (arguments : List String)
    (scope : String) : a.Changes Items (a.report code position arguments scope).2 := by
  obtain ⟨_, _, hframe⟩ := report_frame a code position arguments scope
  rw [hframe]
  exact .of_same rfl rfl rfl

theorem terminate (a : Sink) (code : String) (position : Position) (scope : String) :
    a.Changes Items (a.terminate code position scope) := by
  obtain ⟨_, hframe⟩ := terminate_frame a code position scope
  rw [hframe]
  exact .of_same rfl rfl rfl

theorem setLimit {value : String} (hitem : Items ("maxerr", some value)) (a : Sink) (limit : Nat) :
    a.Changes Items (a.setLimit limit) :=
  ⟨.inr ⟨value, hitem⟩, fun _ => .inl, .inl rfl⟩

theorem toggle {item : String × Option String} {code : String} {enabled : Bool}
    (hitem : Items item) (hcode : codeToggle? item.1 = some (code, enabled)) (a : Sink)
    (line : Nat) : a.Changes Items (a.toggle code line enabled) := by
  refine ⟨.inl rfl, fun toggle hmem => ?_, .inl rfl⟩
  rcases List.mem_cons.mp hmem with rfl | hmem
  · exact .inr ⟨item, hitem, hcode⟩
  · exact .inl hmem

theorem ignoreLine (hitem : Items ("ignore", some "line")) (a : Sink) (line : Nat) :
    a.Changes Items (a.ignoreLine line) :=
  ⟨.inl rfl, fun _ => .inl, .inr hitem⟩

theorem beginIgnore (a : Sink) (line : Nat) : a.Changes Items (a.beginIgnore line) := by
  obtain ⟨_, hframe⟩ := beginIgnore_frame a line
  rw [hframe]
  exact .of_same rfl rfl rfl

theorem endIgnore (a : Sink) (line : Nat) : a.Changes Items (a.endIgnore line) := by
  obtain ⟨_, hframe⟩ := endIgnore_frame a line
  rw [hframe]
  exact .of_same rfl rfl rfl

end Changes

end Sink

namespace Reading

variable {α β : Type} {Items : String × Option String → Prop}

/-! ## Going on -/

/-- The second state comes from the first by taking tokens and applying the comments in front of
them. -/
structure State.LeadsTo (s s' : State) : Prop where
  token : s.lookahead.LeadsTo s'.lookahead
  sink : s.session.sink.Changes s.lookahead.Announces s'.session.sink

namespace State.LeadsTo

variable {s s' s'' : State}

theorem refl (s : State) : s.LeadsTo s := ⟨.refl, .refl _⟩

theorem trans (hfirst : s.LeadsTo s') (hsecond : s'.LeadsTo s'') : s.LeadsTo s'' :=
  ⟨hfirst.token.trans hsecond.token,
    hfirst.sink.trans (hsecond.sink.mono fun _ hitem => hitem.of_leadsTo hfirst.token)⟩

end State.LeadsTo

/-! ## Applying comments -/

/-- The result of a step that stays where it is and sets nothing but what the items say. -/
structure State.Stays (Items : String × Option String → Prop) (s : State)
    (result : Except Stop α × State) : Prop where
  fuel : result.1 ≠ .error .outOfFuel
  lookahead : result.2.lookahead = s.lookahead
  consumed : result.2.consumed = s.consumed
  size : result.2.size = s.size
  depth : result.2.depth = s.depth
  maxDepth : result.2.options.maxDepth = s.options.maxDepth
  sink : s.session.sink.Changes Items result.2.session.sink

/-- A step that applies the items of a comment where it is, or does less. -/
class Applies (Items : String × Option String → Prop) (step : Reading α) : Prop where
  stepwise : Stepwise step
  ignores : IgnoresIn step
  stays (s : State) : s.Stays Items (step.run.run s)

namespace Applies

instance (a : α) : Applies Items (Pure.pure a : Reading α) :=
  ⟨.pure a, .pure a, fun _ => ⟨nofun, rfl, rfl, rfl, rfl, rfl, .refl _⟩⟩

protected theorem bind {first : Reading α} {next : α → Reading β} (hfirst : Applies Items first)
    (hnext : ∀ a, Applies Items (next a)) : Applies Items (first >>= next) where
  stepwise := .bind hfirst.stepwise fun a => (hnext a).stepwise
  ignores := .bind hfirst.ignores fun a => (hnext a).ignores
  stays s := by
    have hmiddle := hfirst.stays s
    rw [run_bind]
    generalize first.run.run s = result at hmiddle
    rcases result with ⟨stop | a, s'⟩
    · refine ⟨fun heq => hmiddle.fuel ?_, hmiddle.lookahead, hmiddle.consumed, hmiddle.size,
        hmiddle.depth, hmiddle.maxDepth, hmiddle.sink⟩
      rw [Except.error.inj heq]
    · have hrest := (hnext a).stays s'
      exact ⟨hrest.fuel, hrest.lookahead.trans hmiddle.lookahead,
        hrest.consumed.trans hmiddle.consumed, hrest.size.trans hmiddle.size,
        hrest.depth.trans hmiddle.depth, hrest.maxDepth.trans hmiddle.maxDepth,
        hmiddle.sink.trans hrest.sink⟩

instance {first : Reading α} {next : α → Reading β} [hfirst : Applies Items first]
    [hnext : ∀ a, Applies Items (next a)] : Applies Items (first >>= next) := .bind hfirst hnext

instance {c : Prop} [Decidable c] {first second : Reading α} [hfirst : Applies Items first]
    [hsecond : Applies Items second] : Applies Items (if c then first else second) := by
  split <;> infer_instance

theorem forM {items : List α} {step : α → Reading PUnit}
    (hstep : ∀ a ∈ items, Applies Items (step a)) : Applies Items (items.forM step) := by
  induction items with
  | nil => exact inferInstanceAs (Applies Items (Pure.pure _))
  | cons a rest ih =>
      exact .bind (hstep a List.mem_cons_self) fun _ =>
        ih fun a hmem => hstep a (List.mem_cons_of_mem _ hmem)

protected theorem observe {next : State → Reading α} (hblind : ∀ s h, next (s.hide h) = next s)
    (hnext : ∀ s, Applies Items (next s))
    (hsame : ∀ s excluded, next (s.restrict excluded) = next s := by intros; rfl) :
    Applies Items (get >>= next) :=
  ⟨.observe hblind fun s => (hnext s).stepwise, .observe (fun s => (hnext s).ignores) hsame,
    fun s => (hnext s).stays s⟩

/-- The options are looked at for what is not hidden in them. -/
protected theorem options {next : Options → Reading α}
    (hblind : ∀ o maxErrors disabled, next (o.hide maxErrors disabled) = next o)
    (hnext : ∀ o, Applies Items (next o)) : Applies Items (Reading.options >>= next) := by
  -- Looking at the options is looking at the state, and then at no more of it.
  change Applies Items (get >>= fun s : State => next s.options)
  exact .observe (fun s _ => hblind s.options _ _) fun s => hnext s.options

/-- A change that sees nothing of what is hidden and leaves the tokens where they are, and no less
the depth. -/
protected theorem change {change : State → State}
    (hblind : ∀ s h, ∃ maxErrors, change (s.hide h) = (change s).hide { h with maxErrors })
    (hlookahead : ∀ s, (change s).lookahead = s.lookahead)
    (hsize : ∀ s, (change s).size = s.size)
    (hconsumed : ∀ s, (change s).consumed = s.consumed := by intros; rfl)
    (hdepth : ∀ s, (change s).depth = s.depth := by intros; rfl)
    (hmaxDepth : ∀ s, (change s).options.maxDepth = s.options.maxDepth := by intros; rfl)
    (hrestrict : ∀ s excluded,
      change (s.restrict excluded) = (change s).restrict excluded := by intros; rfl) :
    Applies Items (modify change) where
  stepwise := .adjust hblind
  ignores := .change hrestrict
  stays s := by
    have hsink : (change s).session.sink = s.session.sink := State.sink_of_blind hblind s
    refine ⟨nofun, hlookahead s, hconsumed s, hsize s, hdepth s, hmaxDepth s, ?_⟩
    change s.session.sink.Changes Items (change s).session.sink
    rw [hsink]
    exact .refl _

instance (change : Scope.Tracker → Scope.Tracker) : Applies Items (track change) :=
  .change (fun _ h => ⟨h.maxErrors, rfl⟩) (fun _ => rfl) fun _ => rfl

instance {change : Options → Options} [hchange : Options.Visible change] :
    Applies Items (adjustOptions change) := by
  refine .change (fun s h => ⟨h.maxErrors, ?_⟩) (fun _ => rfl) (fun _ => rfl) (fun _ => rfl)
    (fun _ => rfl) fun s => hchange.maxDepth s.options
  exact congrArg (fun o => { s with options := o, session.sink := h.sink }) (hchange.hide _ _ _)

theorem filter {change : Sink → Sink} [hchange : Sink.Filter change]
    (hitems : ∀ a : Sink, a.Changes Items (change a)) : Applies Items (adjustSink change) :=
  ⟨.filter hchange, .change, fun s => ⟨nofun, rfl, rfl, rfl, rfl, rfl, hitems s.session.sink⟩⟩

instance {action : Scope.Action α} [haction : action.Stepwise] :
    Applies Items (inScopes action) where
  stepwise := .scopes haction
  ignores := .inScopes action
  stays s := by
    have hsink : s.session.sink.Changes Items (action.run.run s.session).2.sink :=
      haction.relates .refl .trans .report s.session
    rw [run_inScopes]
    refine ⟨?_, rfl, rfl, rfl, rfl, rfl, hsink⟩
    rcases (action.run.run s.session).1 with _ | _ <;> exact nofun

instance (code : String) (position : Position) (arguments : List String)
    (hcode : Halt.IsRegular code) : Applies Items (report code position arguments hcode) :=
  .observe (fun _ _ => rfl) fun _ => inferInstance

/-! ## Directives -/

instance (name : String) (position : Position) : Applies Items (badOption name position) := by
  unfold badOption
  infer_instance

instance {rule : Type} (name : String) (position : Position) (found : Except OptionError rule)
    (change : rule → Options → Options) [∀ rule, Options.Visible (change rule)] :
    Applies Items (applyRule name position found change) := by
  unfold applyRule
  split <;> infer_instance

instance (name value : String) (position : Position) :
    Applies Items (applyFlag name value position) := by
  unfold applyFlag
  dsimp only
  split <;> infer_instance

theorem applyLimit {value : String} (hitem : Items ("maxerr", some value)) (position : Position) :
    Applies Items (applyLimit value position) := by
  unfold Reading.applyLimit
  split
  next limit _ =>
    refine .bind ?_ fun _ => .filter fun a => .setLimit hitem a limit
    exact .change (fun _ _ => ⟨limit, rfl⟩) (fun _ => rfl) fun _ => rfl
  next => infer_instance

theorem applyIgnore {value : String} (hitem : Items ("ignore", some value)) (position : Position) :
    Applies Items (applyIgnore value position) := by
  unfold Reading.applyIgnore
  split
  · exact .filter fun a => .beginIgnore a _
  · exact .filter fun a => .endIgnore a _
  · exact .filter fun a => .ignoreLine hitem a _
  · infer_instance

theorem applyValue {name value : String} (hitem : Items (name, some value)) (position : Position) :
    Applies Items (applyValue name value position) := by
  unfold Reading.applyValue
  dsimp only
  split
  case h_1 => exact applyIgnore hitem position
  case h_2 => split <;> infer_instance
  case h_6 => exact applyLimit hitem position
  all_goals infer_instance

theorem applyItem {item : String × Option String} (hitem : Items item) (position : Position) :
    Applies Items (applyItem position item) := by
  obtain ⟨name, value?⟩ := item
  unfold Reading.applyItem
  dsimp only
  split
  next code enabled hcode => exact .filter fun a => .toggle hitem hcode a _
  next =>
    split
    next value => exact applyValue hitem position
    next => infer_instance

instance (item : String × Option String) : Applies Items (applyGlobal item) := by
  unfold applyGlobal
  split <;> infer_instance

theorem applyDirective {d : Directive} (hitems : ∀ item ∈ d.options, Items item) :
    Applies Items (applyDirective d) := by
  have hoptions (h : d.options = d.items) : Applies Items (do
      d.items.forM (Reading.applyItem d.position)
      let rules := Scope.Rules.ofOptions (← options)
      track (·.setRules rules)) := by
    refine .bind (.forM fun item hmem => applyItem (hitems item (h ▸ hmem)) d.position) fun _ => ?_
    exact .options (fun _ _ _ => rfl) fun _ => inferInstance
  unfold Reading.applyDirective
  split
  next hkind => exact hoptions (by rw [Directive.options, hkind])
  next hkind => exact hoptions (by rw [Directive.options, hkind])
  · exact .forM fun _ _ => inferInstance
  · exact .forM fun _ _ => inferInstance
  · infer_instance

end Applies

end Reading

end ScriptLint

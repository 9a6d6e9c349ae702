import ScriptLint.Proofs.Lexing.Place
import ScriptLint.Proofs.Reading.Comment

/-! # Steady steps

Reading never goes back, and it does not run out of fuel. How deeply productions may nest depends
on how much of the source is left, so a step is steady up to a bound: from any state it leads to a
token that is no earlier, if to any, and with less left than the bound its fuel is enough. What
follows a step that consumes a token has less left, so it need only be steady up to the next lower
bound; that is how productions of lower depth are enough for it. On the way it is kept that the
restriction of `in` matters only where that word comes.
-/

namespace ScriptLint.Reading

variable {α β σ : Type}

namespace State

/-- The number of bytes from the next token on. -/
def left (s : State) : Nat := s.size - s.lookahead.position.offset

/-- The next token is one of the source. -/
def Ready (s : State) : Prop := s.lookahead.Within s.size

/-- The second state is ready, in the same source and not before the first, and as deep under the
same bound. -/
structure Reaches (s s' : State) : Prop where
  ready : s'.Ready
  size : s'.size = s.size
  left : s'.left ≤ s.left
  depth : s'.depth = s.depth
  maxDepth : s'.options.maxDepth = s.options.maxDepth

namespace Reaches

variable {s s' s'' : State}

theorem refl (hs : s.Ready) : s.Reaches s := ⟨hs, rfl, Nat.le_refl _, rfl, rfl⟩

theorem trans (hfirst : s.Reaches s') (hsecond : s'.Reaches s'') : s.Reaches s'' :=
  ⟨hsecond.ready, hsecond.size.trans hfirst.size, Nat.le_trans hsecond.left hfirst.left,
    hsecond.depth.trans hfirst.depth, hsecond.maxDepth.trans hfirst.maxDepth⟩

theorem bound {n : Nat} {sure : Prop} (h : s.Reaches s') (hn : sure → s.left < n) (hsure : sure) :
    s'.left < n := Nat.lt_of_le_of_lt h.left (hn hsure)

theorem of_same (hs : s.Ready) (hlookahead : s'.lookahead = s.lookahead)
    (hsize : s'.size = s.size) (hdepth : s'.depth = s.depth)
    (hmaxDepth : s'.options.maxDepth = s.options.maxDepth) : s.Reaches s' := by
  refine ⟨?_, hsize, ?_, hdepth, hmaxDepth⟩
  · unfold Ready
    rw [hlookahead, hsize]
    exact hs
  · unfold State.left
    rw [hlookahead, hsize]

/-- Where the next token begins elsewhere, something has been taken. -/
theorem left_lt (h : s.Reaches s') (hs : s.Ready)
    (hne : s'.lookahead.position.offset ≠ s.lookahead.position.offset) : s'.left < s.left := by
  have hle := h.left
  have hsize := h.size
  have hbefore := hs.start.offset_le
  have hafter := h.ready.start.offset_le
  unfold State.left Token.position at *
  omega

theorem offset_le (h : s.Reaches s') (hs : s.Ready) :
    s.lookahead.position.offset ≤ s'.lookahead.position.offset := by
  have hle := h.left
  have hsize := h.size
  have hbefore := hs.start.offset_le
  unfold State.left Token.position at *
  have hafter := h.ready.start.offset_le
  omega

/-- With less left, the next token is a later one. -/
theorem offset_lt (h : s.Reaches s') (hlt : s'.left < s.left) :
    s.lookahead.position.offset < s'.lookahead.position.offset := by
  have hsize := h.size
  unfold State.left at hlt
  omega

end Reaches

/-- At the end of the input, and only there, nothing is left. -/
theorem Ready.isEnd_iff {s : State} (hs : s.Ready) : s.lookahead.isEnd = true ↔ s.left = 0 := by
  have hle := hs.start.offset_le
  rw [Token.Within.isEnd_iff hs]
  unfold left Token.position at *
  omega

theorem Ready.left_pos {s : State} (hs : s.Ready) (hend : s.lookahead.isEnd = false) :
    0 < s.left := by
  refine Nat.pos_of_ne_zero fun hzero => ?_
  simp [hs.isEnd_iff.mpr hzero] at hend

end State

/-! ## What a step leads to -/

/-- A step goes on from a state and gives what is wanted, if it gives anything, and whether `in` is
an operator makes a difference for it only where the word comes. Where that is `sure`, it does not
run out of fuel. -/
structure Meets (sure : Prop) (step : Reading α) (s : State) (Wanted : α → State → Prop) : Prop
    where
  leads : s.LeadsTo (step.run.run s).2
  minds : MindsIn step s
  outcome :
    match step.run.run s with
    | (.ok a, s') => Wanted a s'
    | (.error stop, _) => sure → stop ≠ .outOfFuel

namespace Meets

variable {sure : Prop} {s : State} {Wanted Wanted' : α → State → Prop} {Finally : β → State → Prop}

theorem pure {a : α} (h : Wanted a s) : Meets sure (Pure.pure a) s Wanted :=
  ⟨.refl s, .of_ignores (.pure a) s, h⟩

theorem bind {first : Reading α} {next : α → Reading β} (hfirst : Meets sure first s Wanted)
    (hnext : ∀ a s', Wanted a s' → Meets sure (next a) s' Finally) :
    Meets sure (first >>= next) s Finally := by
  obtain ⟨hleads, hminds, houtcome⟩ := hfirst
  refine ⟨?_, hminds.bind hleads.token fun a s' hrun => ?_, ?_⟩
  case refine_2 =>
    rw [hrun] at houtcome
    exact ⟨(hnext a s' houtcome).minds, (hnext a s' houtcome).leads.token⟩
  all_goals
    rw [run_bind]
    generalize first.run.run s = result at hleads houtcome
    rcases result with ⟨stop | a, s'⟩
  · exact hleads
  · exact hleads.trans (hnext a s' houtcome).leads
  · exact houtcome
  · exact (hnext a s' houtcome).outcome

theorem mono {step : Reading α} (hstep : Meets sure step s Wanted)
    (h : ∀ a s', Wanted a s' → Wanted' a s') : Meets sure step s Wanted' := by
  obtain ⟨hleads, hminds, houtcome⟩ := hstep
  refine ⟨hleads, hminds, ?_⟩
  split at houtcome
  · exact h _ _ houtcome
  · exact houtcome

theorem imp {sure' : Prop} {step : Reading α} (hstep : Meets sure' step s Wanted)
    (h : sure → sure') : Meets sure step s Wanted := by
  obtain ⟨hleads, hminds, houtcome⟩ := hstep
  refine ⟨hleads, hminds, ?_⟩
  split at houtcome
  · exact houtcome
  · exact fun hsure => houtcome (h hsure)

/-- A step that stays where it is. -/
theorem of_applies {Items : String × Option String → Prop} {step : Reading α}
    (hstep : Applies Items step) (hitems : ∀ item, Items item → s.lookahead.Announces item)
    (h : ∀ a s', s'.lookahead = s.lookahead → s'.size = s.size → s'.depth = s.depth →
      s'.options.maxDepth = s.options.maxDepth → Wanted a s') :
    Meets sure step s Wanted := by
  obtain ⟨hfuel, hlookahead, -, hsize, hdepth, hmaxDepth, hsink⟩ := hstep.stays s
  refine ⟨⟨hlookahead ▸ .refl, hsink.mono hitems⟩, .of_ignores hstep.ignores s, ?_⟩
  split
  next heq =>
    rw [heq] at hlookahead hsize hdepth hmaxDepth
    exact h _ _ hlookahead hsize hdepth hmaxDepth
  next heq =>
    rw [heq] at hfuel
    exact fun _ hstop => hfuel (congrArg _ hstop)

/-- A change of the state that goes on. -/
theorem change {change : State → State} {Wanted : Unit → State → Prop}
    (hleads : s.LeadsTo (change s)) (h : Wanted () (change s)) (hrestrict : ∀ s excluded,
      change (s.restrict excluded) = (change s).restrict excluded := by intros; rfl) :
    Meets sure (modify change) s Wanted := ⟨hleads, .of_ignores (.change hrestrict) s, h⟩

theorem track {change : Scope.Tracker → Scope.Tracker} {next : Unit → Reading β}
    (h : Meets sure (next ()) { s with session.tracker := change s.session.tracker } Finally) :
    Meets sure (Reading.track change >>= next) s Finally := by
  have htrack : Meets sure (Reading.track change) s fun _ s' =>
      s' = { s with session.tracker := change s.session.tracker } := .change ⟨.refl, .refl _⟩ rfl
  refine htrack.bind ?_
  rintro _ _ rfl
  exact h

theorem halt {reason : Halt} {position : Position} : Meets sure (halt reason position) s Wanted :=
  ⟨⟨.refl, .terminate _ _ _ _⟩, .of_ignores (.halt reason position) s, fun _ => nofun⟩

/-- A step that only looks. -/
theorem look {step : Reading α} (hstep : IgnoresIn step) {a : α}
    (hrun : step.run.run s = (.ok a, s)) (h : Wanted a s) : Meets sure step s Wanted := by
  refine ⟨?_, .of_ignores hstep s, ?_⟩ <;> rw [hrun]
  · exact .refl s
  · exact h

/-- Looking at the state leaves everything as it is. -/
theorem observe {next : State → Reading β} (h : Meets sure (next s) s Finally)
    (hsame : ∀ excluded, next (s.restrict excluded) = next s := by intros; rfl) :
    Meets sure (get >>= next) s Finally := ⟨h.leads, .observe h.minds hsame, h.outcome⟩

/-- A step under a restriction of its own goes on like one without. -/
theorem of_runUnder {step whole : Reading α} {before after : Bool}
    (hrun : whole.run.run s = runUnder step before after s) (hminds : MindsIn whole s)
    (h : Meets sure step (s.restrict before) fun a s' => Wanted a (s'.restrict after)) :
    Meets sure whole s Wanted := by
  obtain ⟨hleads, -, houtcome⟩ := h
  refine ⟨?_, hminds, ?_⟩
  all_goals
    rw [hrun, runUnder]
    generalize step.run.run (s.restrict before) = result at hleads houtcome
    rcases result with ⟨stop | a, s'⟩
  · exact ⟨hleads.token, hleads.sink⟩
  · exact ⟨hleads.token, hleads.sink⟩
  · exact houtcome
  · exact houtcome

theorem token {next : Token → Reading β} (h : Meets sure (next s.lookahead) s Finally) :
    Meets sure (Reading.token >>= next) s Finally := .observe h

theorem peek {next : Token → Reading β}
    (h : Meets sure (next (Token.next s.lookahead.stop)) s Finally) :
    Meets sure (Reading.peek >>= next) s Finally := .observe h

theorem options {next : Options → Reading β} (h : Meets sure (next s.options) s Finally) :
    Meets sure (Reading.options >>= next) s Finally := .observe h

theorem atPunctuator {p : String} {next : Bool → Reading β}
    (h : Meets sure (next (s.lookahead.isPunctuator p)) s Finally) :
    Meets sure (Reading.atPunctuator p >>= next) s Finally := .observe h

theorem inScopes {action : Scope.Action α} [haction : action.Stepwise]
    (h : ∀ a session, Wanted a { s with session }) :
    Meets sure (Reading.inScopes action) s Wanted := by
  have hsink : s.session.sink.Changes s.lookahead.Announces (action.run.run s.session).2.sink :=
    haction.relates .refl .trans .report s.session
  refine ⟨?_, .of_ignores (.inScopes action) s, ?_⟩ <;> rw [run_inScopes]
  · exact ⟨.refl, hsink⟩
  · rcases action.run.run s.session with ⟨_ | a, session⟩
    · exact fun _ => nofun
    · exact h a session

theorem report {code : String} {position : Position} {arguments : List String}
    {hcode : Halt.IsRegular code} {Wanted : Unit → State → Prop}
    (h : ∀ session, Wanted () { s with session }) :
    Meets sure (Reading.report code position arguments hcode) s Wanted :=
  .observe (.inScopes fun _ => h)

/-- Only the scopes and the sink can tell that a feature has been asked for. -/
theorem requireEdition {feature : String} {since : Edition} {position : Position}
    {next : Unit → Reading β} (h : ∀ session, Meets sure (next ()) { s with session } Finally) :
    Meets sure (Reading.requireEdition feature since position >>= next) s Finally := by
  have hreport : Meets sure (Reading.requireEdition feature since position) s
      fun _ s' => ∃ session, s' = { s with session } := by
    let asked (s : State) : Reading Unit :=
      if decide (s.options.edition < since) then reportIssue (.gated feature since position)
      else Pure.pure ()
    have hasked : Meets sure (asked s) s fun _ s' => ∃ session, s' = { s with session } := by
      dsimp only [asked]
      split
      · exact .report fun session => ⟨session, rfl⟩
      · exact .pure ⟨s.session, rfl⟩
    exact .observe hasked
  refine hreport.bind ?_
  rintro _ _ ⟨session, rfl⟩
  exact h session

end Meets

/-! ## Bounds -/

/-- What is needed up to the bound `n` once a token has been consumed: the bound below, except that
the end of the input is never passed. -/
class Reach (n : Nat) (m : outParam Nat) : Prop where
  le : n ≤ m ∨ (n = m + 1 ∧ 0 < m)

instance (n : Nat) : Reach n n := ⟨.inl (Nat.le_refl n)⟩

/-- A step of reading that never goes back, and that does not run out of fuel if less than `n` is
left. -/
class Steady (n : Nat) (step : Reading α) : Prop where
  stepwise : Stepwise step
  meets {s : State} {sure : Prop} : s.Ready → (sure → s.left < n) →
    Meets sure step s fun _ s' => s.Reaches s'

/-- The second state is reached by consuming a token, unless the end of the input came next. -/
structure State.Passes (s s' : State) : Prop where
  reaches : s.Reaches s'
  taken : s.left = 0 ∨ s'.left < s.left

/-- A steady step that consumes a token, unless the end of the input comes next. -/
class Consumes (n : Nat) (step : Reading α) : Prop where
  stepwise : Stepwise step
  meets {s : State} {sure : Prop} : s.Ready → (sure → s.left < n) →
    Meets sure step s fun _ s' => s.Passes s'

/-- Behind a consumed token the lower bound is kept. -/
theorem State.Passes.bound {n m : Nat} {s s' : State} {sure : Prop} (h : s.Passes s')
    (hreach : Reach n m) (hn : sure → s.left < n) (hsure : sure) : s'.left < m := by
  have hlt := hn hsure
  have hle := h.reaches.left
  have htaken := h.taken
  obtain hreach | ⟨heq, hpos⟩ := hreach.le
  · omega
  · omega

/-- The answers of a round with which a loop goes on. -/
class GoesOn (α : Type) where
  goesOn : α → Bool

export GoesOn (goesOn)

instance : GoesOn Bool := ⟨id⟩

instance : GoesOn (Round σ α) where
  goesOn
    | .again _ => true
    | .done _ => false

/-- The second state is reached with an answer that lets a loop go on only if less is left. -/
structure State.Moves [GoesOn α] (s : State) (a : α) (s' : State) : Prop where
  reaches : s.Reaches s'
  left_lt : goesOn a = true → s'.left < s.left

/-- A steady round of a loop that consumes a token whenever the loop goes on. -/
class Advances [GoesOn α] (n : Nat) (round : Reading α) : Prop where
  stepwise : Stepwise round
  meets {s : State} {sure : Prop} : s.Ready → (sure → s.left < n) → Meets sure round s s.Moves

variable {n m : Nat}

theorem Consumes.steady {step : Reading α} (hstep : Consumes n step) : Steady n step :=
  ⟨hstep.stepwise, fun hs hn => (hstep.meets hs hn).mono fun _ _ h => h.reaches⟩

theorem Advances.steady [GoesOn α] {round : Reading α} (hround : Advances n round) :
    Steady n round :=
  ⟨hround.stepwise, fun hs hn => (hround.meets hs hn).mono fun _ _ h => h.reaches⟩

theorem Steady.mono {step : Reading α} (hstep : Steady n step) (hle : m ≤ n) : Steady m step :=
  ⟨hstep.stepwise, fun hs hm => hstep.meets hs fun hsure => Nat.lt_of_lt_of_le (hm hsure) hle⟩

theorem Stepwise.of_steady {step : Reading α} (hstep : Steady n step) : Stepwise step :=
  hstep.stepwise

/-- Going on from a steady step. -/
theorem Meets.then {s : State} {sure : Prop} {first : Reading α} {next : α → Reading β}
    {Finally : β → State → Prop} (hfirst : Steady n first) (hs : s.Ready) (hn : sure → s.left < n)
    (hnext : ∀ a s', s.Reaches s' → (sure → s'.left < n) → Meets sure (next a) s' Finally) :
    Meets sure (first >>= next) s Finally :=
  (hfirst.meets hs hn).bind fun a s' h => hnext a s' h (h.bound hn)

/-! ## Sequences and choices -/

namespace Steady

protected theorem pure (a : α) : Steady n (Pure.pure a : Reading α) :=
  ⟨.pure a, fun hs _ => .pure (.refl hs)⟩

protected theorem bind {first : Reading α} {next : α → Reading β} (hfirst : Steady n first)
    (hnext : ∀ a, Steady n (next a)) : Steady n (first >>= next) where
  stepwise := .bind hfirst.stepwise fun a => (hnext a).stepwise
  meets hs hn := .then hfirst hs hn fun a _ h hn' =>
    ((hnext a).meets h.ready hn').mono fun _ _ h' => h.trans h'

instance (a : α) : Steady n (Pure.pure a : Reading α) := .pure a

instance {first : Reading α} {next : α → Reading β} [hfirst : Steady n first]
    [hnext : ∀ a, Steady n (next a)] : Steady n (first >>= next) := .bind hfirst hnext

end Steady

namespace Consumes

/-- After a consumed token a lower bound is enough. -/
theorem bind {first : Reading α} {next : α → Reading β} (hfirst : Consumes n first)
    (hreach : Reach n m) (hnext : ∀ a, Steady m (next a)) : Consumes n (first >>= next) where
  stepwise := .bind hfirst.stepwise fun a => (hnext a).stepwise
  meets hs hn := (hfirst.meets hs hn).bind fun a _ h => by
    have hrest := (hnext a).meets h.reaches.ready (h.bound hreach hn)
    refine hrest.mono fun _ _ h' => ⟨h.reaches.trans h', ?_⟩
    exact h.taken.imp_right (Nat.lt_of_le_of_lt h'.left)

theorem after {first : Reading α} {next : α → Reading β} (hfirst : Steady n first)
    (hnext : ∀ a, Consumes n (next a)) : Consumes n (first >>= next) where
  stepwise := .bind hfirst.stepwise fun a => (hnext a).stepwise
  meets hs hn := .then hfirst hs hn fun a _ h hn' => by
    refine ((hnext a).meets h.ready hn').mono fun _ _ h' => ⟨h.trans h'.reaches, ?_⟩
    have hfirst := h.left
    have hsecond := h'.reaches.left
    have htaken := h'.taken
    omega

instance {first : Reading α} {next : α → Reading β} [hfirst : Consumes n first]
    [hreach : Reach n m] [hnext : ∀ a, Steady m (next a)] : Consumes n (first >>= next) :=
  .bind hfirst hreach hnext

instance {first : Reading α} {next : α → Reading β} [hfirst : Steady n first]
    [hnext : ∀ a, Consumes n (next a)] : Consumes n (first >>= next) := .after hfirst hnext

instance {c : Prop} [Decidable c] {first second : Reading α} [hfirst : Consumes n first]
    [hsecond : Consumes n second] : Consumes n (if c then first else second) := by
  split <;> infer_instance

end Consumes

namespace Steady

instance (priority := high) {first : Reading α} {next : α → Reading β}
    [hfirst : Consumes n first] [hreach : Reach n m] [hnext : ∀ a, Steady m (next a)] :
    Steady n (first >>= next) := (hfirst.bind hreach hnext).steady

instance ite {c : Prop} [Decidable c] {first second : Reading α} [hfirst : Steady n first]
    [hsecond : Steady n second] : Steady n (if c then first else second) := by
  split <;> infer_instance

instance {items : List α} {step : α → Reading PUnit} [hstep : ∀ a, Steady n (step a)] :
    Steady n (items.forM step) := by
  induction items with
  | nil => exact .pure ()
  | cons a rest ih => exact .bind (hstep a) fun _ => ih

instance {item? : Option α} {step : α → Reading PUnit} [hstep : ∀ a, Steady n (step a)] :
    Steady n (item?.forM step) := by
  cases item? with
  | none => exact .pure ()
  | some a => exact hstep a

/-! ## What is known -/

protected theorem observe {next : State → Reading α} (hblind : ∀ s h, next (s.hide h) = next s)
    (hnext : ∀ s, Steady n (next s))
    (hsame : ∀ s excluded, next (s.restrict excluded) = next s := by intros; rfl) :
    Steady n (get >>= next) where
  stepwise := .observe hblind fun s => (hnext s).stepwise
  meets hs hn := .observe ((hnext _).meets hs hn) (hsame _)

instance : Steady n token := .observe (fun _ _ => rfl) fun _ => inferInstance

instance : Steady n previous := .observe (fun _ _ => rfl) fun _ => inferInstance

/-- The options are looked at for what is not hidden in them. -/
protected theorem options {next : Options → Reading α}
    (hblind : ∀ o maxErrors disabled, next (o.hide maxErrors disabled) = next o)
    (hnext : ∀ o, Steady n (next o)) : Steady n (Reading.options >>= next) := by
  -- Looking at the options is looking at the state, and then at no more of it.
  change Steady n (get >>= fun s : State => next s.options)
  exact .observe (fun s _ => hblind s.options _ _) fun s => hnext s.options

instance {next : Options → Reading α} [hnext : ∀ o, Steady n (next o)]
    [hblind : ∀ o maxErrors disabled, Same (next (o.hide maxErrors disabled)) (next o)] :
    Steady n (Reading.options >>= next) :=
  .options (fun o maxErrors disabled => (hblind o maxErrors disabled).eq) hnext

instance : Steady n tracker := .observe (fun _ _ => rfl) fun _ => inferInstance

instance : Steady n isStrict := by
  unfold isStrict
  infer_instance

instance (edition : Edition) : Steady n (isBefore edition) := by
  unfold isBefore
  infer_instance

instance (p : String) : Steady n (atPunctuator p) := by
  unfold atPunctuator
  infer_instance

instance (word : String) : Steady n (atKeyword word) := by
  unfold atKeyword
  infer_instance

instance (word : String) : Steady n (atWord word) := by
  unfold atWord
  infer_instance

/-! ## Changes and reports -/

/-- Where there is nothing to apply, a step that stays where it is is steady. -/
theorem of_applies {step : Reading α} (hstep : Applies (fun _ => False) step) : Steady n step :=
  ⟨hstep.stepwise, fun hs _ => .of_applies hstep (fun _ => False.elim) fun _ _ => .of_same hs⟩

instance (change : Scope.Tracker → Scope.Tracker) : Steady n (track change) :=
  .of_applies inferInstance

/-- A change that sees nothing of what is hidden and leaves the tokens where they are, and no less
the depth. -/
protected theorem change {change : State → State}
    (hblind : ∀ s h, ∃ maxErrors, change (s.hide h) = (change s).hide { h with maxErrors })
    (hlookahead : ∀ s, (change s).lookahead = s.lookahead)
    (hsize : ∀ s, (change s).size = s.size)
    (hconsumed : ∀ s, (change s).consumed = s.consumed := by intros; rfl)
    (hdepth : ∀ s, (change s).depth = s.depth := by intros; rfl)
    (hmaxDepth : ∀ s, (change s).options.maxDepth = s.options.maxDepth := by intros; rfl)
    (hrestrict : ∀ s excluded,
      change (s.restrict excluded) = (change s).restrict excluded := by intros; rfl) :
    Steady n (modify change) :=
  .of_applies (.change hblind hlookahead hsize hconsumed hdepth hmaxDepth hrestrict)

instance {action : Scope.Action α} [action.Stepwise] : Steady n (inScopes action) :=
  .of_applies inferInstance

instance (reason : Halt) (position : Position) : Steady n (halt reason position : Reading α) :=
  ⟨.halt reason position, fun _ _ => .halt⟩

instance (code : String) (position : Position) (arguments : List String)
    (hcode : Halt.IsRegular code) : Steady n (report code position arguments hcode) :=
  .of_applies inferInstance

instance (issue : LexicalIssue) : Steady n (reportIssue issue) := by
  unfold reportIssue
  infer_instance

instance (feature : String) (since : Edition) (position : Position) :
    Steady n (requireEdition feature since position) := by
  unfold requireEdition
  infer_instance

instance (feature : String) (position : Position) : Steady n (requireModern feature position) := by
  unfold requireModern
  infer_instance

/-! ## Bounds and loops -/

/-- The level that a step is taken deeper is taken back after it. -/
protected theorem nested {step : Reading α} (hstep : Steady n step) : Steady n (nested step) where
  stepwise := by
    refine .bind (.adjust fun _ h => ⟨h.maxErrors, rfl⟩) fun _ => ?_
    -- The state is looked at for the depth, its bound and the place, none of which is hidden.
    refine .observe (fun _ _ => rfl) fun s => ?_
    split
    · exact .halt .tooDeep s.lookahead.position
    · exact .bind hstep.stepwise fun a =>
        .bind (.adjust fun _ h => ⟨h.maxErrors, rfl⟩) fun _ => .pure a
  meets {s sure} hs hn := by
    let deeper : State := { s with depth := s.depth + 1 }
    have hready : deeper.Ready := hs
    have hdeeper : Meets sure (modify fun s' : State => { s' with depth := s'.depth + 1 }) s
        fun _ s' => s' = deeper := .change ⟨.refl, .refl _⟩ rfl
    refine hdeeper.bind ?_
    rintro _ _ rfl
    refine .observe ?_
    split
    · exact .halt
    · refine (hstep.meets hready hn).bind fun a s' h => ?_
      have hback : Meets sure (modify fun s : State => { s with depth := s.depth - 1 }) s'
          fun _ s'' => s'' = { s' with depth := s'.depth - 1 } := .change ⟨.refl, .refl _⟩ rfl
      refine hback.bind ?_
      rintro _ _ rfl
      have hdepth : s'.depth - 1 = s.depth := by rw [h.depth, Nat.add_sub_cancel]
      exact .pure ⟨h.ready, h.size, h.left, hdepth, h.maxDepth⟩

instance {step : Reading α} [hstep : Steady n step] : Steady n (Reading.nested step) :=
  .nested hstep

theorem setInExcluded_stepwise (excluded : Bool) : Stepwise (setInExcluded excluded) :=
  .adjust fun _ h => ⟨h.maxErrors, rfl⟩

/-- A step under a restriction of its own is steady if it is without. -/
theorem of_runUnder {step whole : Reading α} (hstep : Steady n step) (hwhole : Stepwise whole)
    (hminds : ∀ s, MindsIn whole s)
    (hrun : ∀ s, ∃ before after, whole.run.run s = runUnder step before after s) :
    Steady n whole where
  stepwise := hwhole
  meets {s _} hs hn := by
    obtain ⟨before, after, hrun⟩ := hrun s
    have hunder : (s.restrict before).Ready := hs
    refine .of_runUnder hrun (hminds s) ((hstep.meets hunder hn).mono fun _ _ h => ?_)
    exact ⟨h.ready, h.size, h.left, h.depth, h.maxDepth⟩

instance {step : Reading α} [hstep : Steady n step] : Steady n (allowingIn step) := by
  refine .of_runUnder hstep ?_ (.allowingIn step) fun s => ⟨_, _, run_allowingIn step s⟩
  exact .observe (fun _ _ => rfl) fun s =>
    .bind (setInExcluded_stepwise false) fun _ => .bind hstep.stepwise fun a =>
      .bind (setInExcluded_stepwise s.inExcluded) fun _ => .pure a

end Steady

/-! ## Rounds of loops -/

/-- Where the input has not ended, what consumes a token lets a loop go on. -/
theorem Consumes.moves [GoesOn α] {step : Reading α} (hstep : Consumes n step) {s s' : State}
    {sure : Prop} (h : s.Reaches s') (hn : sure → s'.left < n) (hpos : 0 < s.left) :
    Meets sure step s' s.Moves := by
  refine (hstep.meets h.ready hn).mono fun _ _ h' => ⟨h.trans h'.reaches, fun _ => ?_⟩
  have hfirst := h.left
  have hsecond := h'.reaches.left
  have htaken := h'.taken
  omega

/-- With an answer that ends a loop, nothing needs to be consumed. -/
theorem Meets.ends [GoesOn α] {s s' : State} {sure : Prop} {a : α} (h : s.Reaches s')
    (ha : goesOn a = false := by rfl) : Meets sure (Pure.pure a) s' s.Moves :=
  .pure ⟨h, fun hgoes => by simp [ha] at hgoes⟩

namespace Advances

section

variable [GoesOn α]

theorem ends {a : α} (ha : goesOn a = false := by rfl) : Advances n (Pure.pure a : Reading α) :=
  ⟨.pure a, fun hs _ => .ends (.refl hs) ha⟩

theorem after {first : Reading σ} {next : σ → Reading α} (hfirst : Steady n first)
    (hnext : ∀ a, Advances n (next a)) : Advances n (first >>= next) where
  stepwise := .bind hfirst.stepwise fun a => (hnext a).stepwise
  meets hs hn := .then hfirst hs hn fun a _ h hn' =>
    ((hnext a).meets h.ready hn').mono fun _ _ h' =>
      ⟨h.trans h'.reaches, fun hgoes => Nat.lt_of_lt_of_le (h'.left_lt hgoes) h.left⟩

/-- Where the answer of a round tells how to go on, only one side may let the loop go on. -/
theorem test {first : Reading Bool} {yes no : Reading α} (hfirst : Advances n first)
    (hyes : Steady n yes) (hno : Advances n no) :
    Advances n (do if ← first then yes else no) where
  stepwise := .bind hfirst.stepwise fun b => by
    split
    · exact hyes.stepwise
    · exact hno.stepwise
  meets hs hn := by
    refine (hfirst.meets hs hn).bind fun b _ h => ?_
    have hn' := h.reaches.bound hn
    split
    next hb =>
      refine (hyes.meets h.reaches.ready hn').mono fun _ _ h' => ?_
      exact ⟨h.reaches.trans h', fun _ => Nat.lt_of_le_of_lt h'.left (h.left_lt hb)⟩
    next =>
      refine (hno.meets h.reaches.ready hn').mono fun _ _ h' => ?_
      refine ⟨h.reaches.trans h'.reaches, fun hgoes => ?_⟩
      exact Nat.lt_of_lt_of_le (h'.left_lt hgoes) h.reaches.left

end

/-- A loop ends in time, because the rounds that go on use up what is left. -/
theorem iterate {round : σ → Reading (Round σ α)} (hround : ∀ state, Advances n (round state))
    {fuel : Nat} {state : σ} {s : State} {sure : Prop} (hs : s.Ready) (hn : sure → s.left < n)
    (hfuel : s.left < fuel) : Meets sure (iterate round fuel state) s fun _ s' => s.Reaches s' := by
  induction fuel generalizing state s with
  | zero => omega
  | succ fuel ih =>
      unfold Reading.iterate
      refine ((hround state).meets hs hn).bind fun r s' h => ?_
      cases r with
      | done answer => exact .pure h.reaches
      | again state =>
          have hlt := h.left_lt rfl
          refine (ih h.reaches.ready (h.reaches.bound hn) ?_).mono fun _ _ h' => ?_
          · omega
          · exact h.reaches.trans h'

end Advances

theorem Stepwise.iterate {round : σ → Reading (Round σ α)}
    (hround : ∀ state, Stepwise (round state)) (fuel : Nat) (state : σ) :
    Stepwise (iterate round fuel state) := by
  induction fuel generalizing state with
  | zero => exact .outOfFuel
  | succ fuel ih =>
      unfold Reading.iterate
      refine .bind (hround state) fun r => ?_
      cases r with
      | again state => exact ih state
      | done answer => exact .pure answer

namespace Steady

protected theorem repeatFrom {state : σ} {round : σ → Reading (Round σ α)}
    (hround : ∀ state, Advances n (round state)) : Steady n (repeatFrom state round) where
  stepwise := .observe (fun _ _ => rfl) fun _ => .iterate (fun state => (hround state).stepwise) _ _
  meets {s _} hs hn := by
    have hfuel : s.left < s.size - s.lookahead.position.offset + 4 := by
      unfold State.left
      omega
    exact .observe (Advances.iterate hround hs hn hfuel)

instance {state : σ} {round : σ → Reading (Round σ α)}
    [hround : ∀ state, Advances n (round state)] :
    Steady n (Reading.repeatFrom state round) := .repeatFrom hround

instance {round : Reading Bool} [hround : Advances n round] : Steady n (repeatWhile round) :=
  .repeatFrom fun _ => .test hround (.pure _) .ends

end Steady

end ScriptLint.Reading

import Mathlib.Logic.Basic
import ScriptLint.Proofs.Reading.Declarator
import ScriptLint.Proofs.Reading.Silence
import ScriptLint.Proofs.Reading.Statement
import ScriptLint.Proofs.Nesting.Walk
import ScriptLint.Proofs.Scope.Level

/-! # Nesting

Reading that reports nothing takes brackets and templates as they nest. What a step does to the
groups that are open and to the scopes that are open is put together from what its parts do; the
search for instances does so along the definition of the step, and keeps in mind which token is
known to come next.
-/

set_option synthInstance.maxSize 4096

namespace ScriptLint.Reading

variable {α β σ : Type}

/-! ## Steps that stay where they are -/

/-- Between the states nothing was consumed and no scope was opened or closed, and if something was
reported, it is heard in the end. -/
structure State.Keeps (s s' : State) : Prop where
  size : s'.size = s.size
  lookahead : s'.lookahead = s.lookahead
  consumed : s'.consumed = s.consumed
  quiet : s'.session.sink.Quiet → s.session.sink.Quiet
  level : s.session.tracker.Level s'.session.tracker

namespace State.Keeps

variable {s s' s'' : State}

theorem refl (s : State) : s.Keeps s := ⟨rfl, rfl, rfl, id, .refl _⟩

theorem trans (hfirst : s.Keeps s') (hsecond : s'.Keeps s'') : s.Keeps s'' :=
  ⟨hsecond.size.trans hfirst.size, hsecond.lookahead.trans hfirst.lookahead,
    hsecond.consumed.trans hfirst.consumed, hfirst.quiet ∘ hsecond.quiet,
    hfirst.level.trans hsecond.level⟩

end State.Keeps

/-- A step that consumes nothing and opens and closes no scope. -/
class Keeps (step : Reading α) : Prop where
  leads (s : State) : Leads step s fun _ s' => s.Keeps s'

namespace Keeps

instance (a : α) : Keeps (Pure.pure a : Reading α) := ⟨fun s => .pure (.refl s)⟩

protected theorem bind {first : Reading α} {next : α → Reading β} (hfirst : Keeps first)
    (hnext : ∀ a, Keeps (next a)) : Keeps (first >>= next) :=
  ⟨fun s => .bind fun a s' hrun b s'' hrun' =>
    (hfirst.leads s a s' hrun).trans ((hnext a).leads s' b s'' hrun')⟩

instance {first : Reading α} {next : α → Reading β} [hfirst : Keeps first]
    [hnext : ∀ a, Keeps (next a)] : Keeps (first >>= next) := .bind hfirst hnext

instance {c : Prop} [Decidable c] {first second : Reading α} [hfirst : Keeps first]
    [hsecond : Keeps second] : Keeps (if c then first else second) := by
  split <;> infer_instance

instance {items : List α} {step : α → Reading PUnit} [hstep : ∀ a, Keeps (step a)] :
    Keeps (items.forM step) := by
  induction items with
  | nil => exact inferInstanceAs (Keeps (Pure.pure _))
  | cons a rest ih => exact .bind (hstep a) fun _ => ih

instance {item? : Option α} {step : α → Reading PUnit} [hstep : ∀ a, Keeps (step a)] :
    Keeps (item?.forM step) := by
  cases item? with
  | none => exact inferInstanceAs (Keeps (Pure.pure _))
  | some a => exact hstep a

/-- A step that only looks. -/
theorem look {step : Reading α} (hstep : ∀ s, (step.run.run s).2 = s) : Keeps step where
  leads s a s' hrun := by
    obtain rfl : s = s' := by rw [← hstep s, hrun]
    exact .refl s

/-- A step that gives no answer. -/
theorem of_fails {step : Reading α} (hstep : ∀ s a s', step.run.run s ≠ (.ok a, s')) :
    Keeps step := ⟨fun s a s' hrun => absurd hrun (hstep s a s')⟩

instance : Keeps (get : Reading State) := look fun _ => rfl

instance : Keeps token := look fun _ => rfl

instance : Keeps previous := look fun _ => rfl

instance : Keeps options := look fun _ => rfl

instance : Keeps tracker := look fun _ => rfl

instance : Keeps isStrict := look fun _ => rfl

instance (edition : Edition) : Keeps (isBefore edition) := look fun _ => rfl

instance (p : String) : Keeps (atPunctuator p) := look fun _ => rfl

instance : Keeps peek := look fun _ => rfl

instance : Keeps peekSecond := look fun _ => rfl

instance (c : Cursor) : Keeps (tokenAfterGroupFrom c) := by
  unfold tokenAfterGroupFrom
  refine .bind inferInstance fun _ => ?_
  dsimp only
  split
  · infer_instance
  · exact of_fails fun _ _ _ => nofun

instance : Keeps tokenAfterGroup := .bind inferInstance fun _ => inferInstance

instance : Keeps tokenAfterNextGroup := .bind inferInstance fun _ => inferInstance

theorem change {change : State → State} (hchange : ∀ s : State, s.Keeps (change s)) :
    Keeps (modify change) where
  leads s := by
    rintro _ _ ⟨⟩
    exact hchange s

instance (excluded : Bool) : Keeps (setInExcluded excluded) :=
  change fun _ => ⟨rfl, rfl, rfl, id, .refl _⟩

instance {change : Scope.Tracker → Scope.Tracker} [hchange : Scope.Tracker.KeepsLevel change] :
    Keeps (track change) := ⟨fun _ => .track ⟨rfl, rfl, rfl, id, hchange.level _⟩⟩

instance {change : Options → Options} : Keeps (adjustOptions change) where
  leads _ := by
    rintro _ _ ⟨⟩
    exact ⟨rfl, rfl, rfl, id, .refl _⟩

theorem filter {change : Sink → Sink} (hchange : Sink.Filter change) : Keeps (adjustSink change) where
  leads _ := by
    rintro _ _ ⟨⟩
    exact ⟨rfl, rfl, rfl, .of_filter hchange, .refl _⟩

instance {action : Scope.Action α} [haction : action.Stepwise]
    [hlevel : Scope.Action.KeepsLevel action] : Keeps (inScopes action) where
  leads s a s' hrun := by
    have hafter := Leads.inScopes (hlevel.ensures s.session.tracker) a s' hrun
    have hquiet := (Stepwise.scopes haction).quiet (s := s)
    rw [hrun] at hquiet
    rw [run_inScopes] at hrun
    obtain ⟨-, rfl⟩ := Prod.mk.inj hrun
    exact ⟨rfl, rfl, rfl, hquiet, hafter⟩

instance (reason : Halt) (position : Position) : Keeps (halt reason position : Reading α) :=
  of_fails fun _ _ _ hrun => nomatch hrun

instance (code : String) (position : Position) (arguments : List String)
    (hcode : Halt.IsRegular code) : Keeps (report code position arguments hcode) := by
  unfold report
  infer_instance

instance (issue : LexicalIssue) : Keeps (reportIssue issue) := by
  unfold reportIssue
  infer_instance

instance (feature : String) (since : Edition) (position : Position) :
    Keeps (requireEdition feature since position) := by
  unfold requireEdition
  infer_instance

instance (feature : String) (position : Position) : Keeps (requireModern feature position) := by
  unfold requireModern
  infer_instance

instance (name : String) (position : Position) : Keeps (badOption name position) := by
  unfold badOption
  infer_instance

instance {rule : Type} (name : String) (position : Position) (found : Except OptionError rule)
    (change : rule → Options → Options) : Keeps (applyRule name position found change) := by
  unfold applyRule
  split <;> infer_instance

instance (name value : String) (position : Position) : Keeps (applyFlag name value position) := by
  unfold applyFlag
  dsimp only
  split <;> infer_instance

instance (value : String) (position : Position) : Keeps (applyLimit value position) := by
  unfold applyLimit
  split
  · exact .bind inferInstance fun _ => filter (.setLimit _)
  · infer_instance

instance (value : String) (position : Position) : Keeps (applyIgnore value position) := by
  unfold applyIgnore
  split
  · exact filter (.beginIgnore _)
  · exact filter (.endIgnore _)
  · exact filter (.ignoreLine _)
  · infer_instance

instance (name value : String) (position : Position) : Keeps (applyValue name value position) := by
  unfold applyValue
  dsimp only
  split
  case h_2 => split <;> infer_instance
  all_goals infer_instance

instance (position : Position) (item : String × Option String) : Keeps (applyItem position item) := by
  unfold applyItem
  split
  next name value? =>
    split
    · exact filter (.toggle _ _ _)
    · split <;> infer_instance

instance (item : String × Option String) : Keeps (applyGlobal item) := by
  unfold applyGlobal
  split <;> infer_instance

instance (d : Directive) : Keeps (applyDirective d) := by
  unfold applyDirective
  split <;> infer_instance

instance (issues : List LexicalIssue) : Keeps (reportIssues issues) := by
  unfold reportIssues
  infer_instance

instance : Keeps checkFatal := by
  unfold checkFatal
  refine .bind inferInstance fun t => ?_
  split <;> infer_instance

instance : Keeps acceptLookahead := by
  unfold acceptLookahead
  infer_instance

end Keeps

/-- The state behind the next token. -/
def State.behind (s : State) : State :=
  { s with consumed := s.lookahead :: s.consumed, lookahead := Token.next s.lookahead.stop }

/-- Consuming a token leads behind it, and what comes with the token changes little. -/
theorem advance_leads (s : State) : Leads advance s fun _ s' => s.behind.Keeps s' := by
  refine .bind ?_
  rintro _ _ ⟨⟩
  refine .bind ?_
  rintro _ _ ⟨⟩
  have hrest : Keeps (do reportIssues s.lookahead.issues; acceptLookahead) := inferInstance
  exact hrest.leads s.behind

/-- A loop ends with what its last round leads to, if every other round leads to the next. -/
theorem repeatWhile_leads {round : Reading Bool} {GoesOn Ended : State → Prop}
    (hround : ∀ s, GoesOn s → Leads round s fun goesOn s' =>
      (goesOn = true → GoesOn s') ∧ (goesOn = false → Ended s'))
    {s : State} (hs : GoesOn s) : Leads (repeatWhile round) s fun _ s' => Ended s' := by
  let once (_ : Unit) : Reading (Round Unit Unit) := do
    if ← round then pure (.again ()) else pure (.done ())
  have hiterate (fuel : Nat) {s : State} (hs : GoesOn s) :
      Leads (iterate once fuel ()) s fun _ s' => Ended s' := by
    induction fuel generalizing s with
    | zero =>
        intro _ _ hrun
        cases hrun
    | succ fuel ih =>
        refine .bind (.bind fun goesOn s' hrun => ?_)
        obtain ⟨hagain, hdone⟩ := hround s hs goesOn s' hrun
        cases goesOn with
        | true => exact .pure (ih (hagain rfl))
        | false => exact .pure (.pure (hdone rfl))
  refine .bind ?_
  rintro _ _ ⟨⟩
  exact hiterate _ hs

/-! ## Steps that walk on -/

/-- Where reading has come to since it took the token `start` after those `before`: in `n` more
scopes than there, with the groups given open. -/
structure State.Since (before : List Token) (start : Token) (n : Nat) (g : List Closer)
    (s : State) : Prop where
  ready : s.Ready
  inside : s.session.tracker.Inside n
  walk : ∃ ts, s.consumed = ts ++ before ∧ Walk start ts s.lookahead g

/-- What is known of the tokens that come next. -/
inductive Ahead where
  | unknown
  /-- The next token. -/
  | seen (t : Token)
  /-- The next token and what it does. -/
  | turns (t : Token) (k : Turn)
  /-- The next token, what it does, and what the one after it does. -/
  | both (t : Token) (k k' : Turn)

def Ahead.Holds (s : State) : Ahead → Prop
  | unknown => True
  | seen t => s.lookahead = t
  | turns t k => s.lookahead = t ∧ t.turn = k
  | both t k k' => s.lookahead = t ∧ t.turn = k ∧ (Token.next t.stop).turn = k'

theorem Ahead.Holds.keeps {s s' : State} {ahead : Ahead} (h : ahead.Holds s) (hkeeps : s.Keeps s') :
    ahead.Holds s' := by
  cases ahead <;> simp_all only [Holds, hkeeps.lookahead, and_self]

variable {before : List Token} {start t : Token} {k k' : Turn} {n n' n'' : Nat} {g g' g'' : List Closer}
  {ahead : Ahead} {s s' : State}

theorem State.Since.legible (h : s.Since before start n g) : s.lookahead.Legible := by
  obtain ⟨ts, -, hwalk⟩ := h.walk
  exact hwalk.legible

theorem State.Since.keeps (h : s.Since before start n g) (hkeeps : s.Keeps s') :
    s'.Since before start n g := by
  obtain ⟨ts, hconsumed, hwalk⟩ := h.walk
  refine ⟨?_, h.inside.level hkeeps.level, ts, ?_, ?_⟩
  · rw [State.Ready, hkeeps.lookahead, hkeeps.size]
    exact h.ready
  · rw [hkeeps.consumed, hconsumed]
  · rw [hkeeps.lookahead]
    exact hwalk

theorem State.Since.behind (h : s.Since before start n g) (hturn : s.lookahead.turn.Leads g g') :
    s.behind.Since before start n g' := by
  obtain ⟨ts, hconsumed, hwalk⟩ := h.walk
  exact ⟨.next h.ready.stop, h.inside, s.lookahead :: ts, congrArg _ hconsumed, hwalk.take hturn⟩

/-- As long as nothing is reported, the step leads from one number of scopes and some open groups to
others, where `ahead` is what is known of the tokens that come next. -/
class Shifts (n : Nat) (g : List Closer) (ahead : Ahead) (step : Reading α)
    (n' : outParam Nat) (g' : outParam (List Closer)) : Prop where
  leads {before : List Token} {start : Token} {s : State}
    (hs : s.session.sink.Quiet → s.Since before start n g)
    (hahead : ahead.Holds s) :
    Leads step s fun _ s' => s'.session.sink.Quiet → s'.Since before start n' g'

/-- A step that does not go through without a report. -/
class Speaks (step : Reading α) : Prop where
  stepwise : Stepwise step
  loud (s : State) : Leads step s fun _ s' => ¬ s'.session.sink.Quiet

namespace Speaks

instance (code : String) (position : Position) (arguments : List String)
    (hcode : Halt.IsRegular code) : Speaks (report code position arguments hcode) where
  stepwise := (inferInstance : Steady 0 _).stepwise
  loud s a s' hrun := by
    let scope := s.session.tracker.functionName
    change (inScopes (Scope.Action.report code position arguments scope hcode)).run.run s = _ at hrun
    rw [run_inScopes, Scope.Action.run_report] at hrun
    obtain ⟨-, rfl⟩ := Prod.mk.inj hrun
    exact Sink.not_quiet_report _ _ _ _ _

instance (issue : LexicalIssue) : Speaks (reportIssue issue) := by
  unfold reportIssue
  infer_instance

instance (reason : Halt) (position : Position) : Speaks (halt reason position : Reading α) :=
  ⟨.halt reason position, fun _ _ _ => nofun⟩

theorem bind {first : Reading α} {next : α → Reading β} (hfirst : Speaks first)
    (hnext : ∀ a, Stepwise (next a)) : Speaks (first >>= next) where
  stepwise := .bind hfirst.stepwise hnext
  loud s := .bind fun a s' hrun b s'' hrun' hquiet => by
    have hquiet' : ((next a).run.run s').2.session.sink.Quiet := by rwa [hrun']
    exact hfirst.loud s a s' hrun ((hnext a).quiet hquiet')

theorem after {first : Reading α} {next : α → Reading β} (hfirst : Stepwise first)
    (hnext : ∀ a, Speaks (next a)) : Speaks (first >>= next) where
  stepwise := .bind hfirst fun a => (hnext a).stepwise
  loud _ := .bind fun a s' _ => (hnext a).loud s'

instance {first : Reading α} {next : α → Reading β} [hfirst : Speaks first]
    [hnext : ∀ a, Steady 0 (next a)] : Speaks (first >>= next) :=
  .bind hfirst fun a => (hnext a).stepwise

instance {next : Token → Reading β} [hnext : ∀ a, Speaks (next a)] : Speaks (token >>= next) :=
  .after (inferInstance : Steady 0 token).stepwise hnext

instance {c : Prop} [Decidable c] {first second : Reading α} [hfirst : Speaks first]
    [hsecond : Speaks second] : Speaks (if c then first else second) := by
  split <;> infer_instance

instance : Speaks (earlyEnd : Reading α) := by
  unfold earlyEnd
  infer_instance

instance (shown : String) (position : Position) : Speaks (reportUnexpected shown position) := by
  unfold reportUnexpected
  infer_instance

instance (wanted : String) (t : Token) : Speaks (reportInstead wanted t) := by
  unfold reportInstead
  infer_instance

instance (t : Token) : Speaks (reportNoName t) := by
  unfold reportNoName
  infer_instance

instance (wanted : String) : Speaks (unexpectedInstead wanted) := by
  unfold unexpectedInstead
  infer_instance

end Speaks

/-! ## What tokens do -/

/-- What a punctuator of fixed spelling does. -/
class Spells (p : String) (k : outParam Turn) : Prop where
  eq : Turn.ofSpelling p = k

namespace Spells

instance : Spells "(" .opens := ⟨by decide⟩

instance : Spells "[" .opens := ⟨by decide⟩

instance : Spells "\x7b" .opens := ⟨by decide⟩

instance : Spells ")" .closes := ⟨by decide⟩

instance : Spells "]" .closes := ⟨by decide⟩

instance : Spells "\x7d" .closes := ⟨by decide⟩

instance : Spells "," .flat := ⟨by decide⟩

instance : Spells ";" .flat := ⟨by decide⟩

instance : Spells ":" .flat := ⟨by decide⟩

instance : Spells "." .flat := ⟨by decide⟩

instance : Spells "..." .flat := ⟨by decide⟩

instance : Spells "*" .flat := ⟨by decide⟩

instance : Spells "=" .flat := ⟨by decide⟩

instance : Spells "=>" .flat := ⟨by decide⟩

end Spells

/-- A condition that tells what a token does. -/
class Tells (c : Prop) (t : outParam Token) (k : outParam Turn) : Prop where
  turn : c → t.turn = k

namespace Tells

instance {p : String} [hk : Spells p k] : Tells (t.isPunctuator p = true) t k :=
  ⟨fun hp => (Token.turn_of_isPunctuator hp).trans hk.eq⟩

instance (word : String) : Tells (t.isKeyword word = true) t .flat := ⟨Token.turn_of_isKeyword⟩

instance (name : String) : Tells (t.isName name = true) t .flat := ⟨Token.turn_of_isName⟩

instance : Tells (t.isIdentifier = true) t .flat :=
  ⟨fun h => Token.turn_of_isPropertyName (Token.isPropertyName_of_isIdentifier h)⟩

instance : Tells (t.isPropertyName = true) t .flat := ⟨Token.turn_of_isPropertyName⟩

instance {a b : Bool} [ha : Tells (a = true) t k] : Tells ((a && b) = true) t k :=
  ⟨fun h => ha.turn (Bool.and_eq_true_iff.mp h).1⟩

instance {a b : Bool} [ha : Tells (a = true) t k] [hb : Tells (b = true) t k] :
    Tells ((a || b) = true) t k := ⟨fun h => (Bool.or_eq_true_iff.mp h).elim ha.turn hb.turn⟩

end Tells

/-! ## The rules -/

namespace Shifts

theorem of_speaks {step : Reading α} (hstep : Speaks step) : Shifts n g ahead step n' g' :=
  ⟨fun {_ _ s} _ _ a s' hrun hquiet => absurd hquiet (hstep.loud s a s' hrun)⟩

theorem of_keeps {step : Reading α} (hstep : Keeps step) : Shifts n g ahead step n g where
  leads {_ _ s} hs _ a s' hrun hquiet := by
    have hkeeps := hstep.leads s a s' hrun
    exact (hs (hkeeps.quiet hquiet)).keeps hkeeps

instance (priority := low) {step : Reading α} [hstep : Keeps step] : Shifts n g ahead step n g :=
  of_keeps hstep

/-- A step that keeps what it is found with leaves it to the rest. -/
theorem keeping {first : Reading α} {next : α → Reading β}
    (hfirst : Keeps first) (hnext : ∀ a, Shifts n g ahead (next a) n' g') :
    Shifts n g ahead (first >>= next) n' g' where
  leads {_ _ s} hs hahead := .bind fun a s' hrun => by
    have hkeeps := hfirst.leads s a s' hrun
    exact (hnext a).leads (fun hquiet => (hs (hkeeps.quiet hquiet)).keeps hkeeps)
      (hahead.keeps hkeeps)

instance (priority := high) {first : Reading α} {next : α → Reading β}
    [hfirst : Keeps first] [hnext : ∀ a, Shifts n g ahead (next a) n' g'] :
    Shifts n g ahead (first >>= next) n' g' := keeping hfirst hnext

protected theorem bind {first : Reading α} {next : α → Reading β}
    (hfirst : Shifts n g ahead first n' g') (hnext : ∀ a, Shifts n' g' .unknown (next a) n'' g'') :
    Shifts n g ahead (first >>= next) n'' g'' :=
  ⟨fun hs hahead => .bind fun a _ hrun =>
    (hnext a).leads (hfirst.leads hs hahead a _ hrun) trivial⟩

instance (priority := low) {first : Reading α} {next : α → Reading β}
    [hfirst : Shifts n g ahead first n' g'] [hnext : ∀ a, Shifts n' g' .unknown (next a) n'' g''] :
    Shifts n g ahead (first >>= next) n'' g'' := .bind hfirst hnext

instance (priority := 10010) {a : α} {next : α → Reading β}
    [hnext : Shifts n g ahead (next a) n' g'] :
    Shifts n g ahead ((Pure.pure a : Reading α) >>= next) n' g' := by rwa [pure_bind]

/-- What is known need not be used. -/
theorem forget {step : Reading α} (hstep : Shifts n g .unknown step n' g') :
    Shifts n g ahead step n' g' := ⟨fun hs _ => hstep.leads hs trivial⟩

theorem of_seen {step : Reading α} (hstep : ∀ t, Shifts n g (.seen t) step n' g') :
    Shifts n g .unknown step n' g' := ⟨fun hs _ => (hstep _).leads hs rfl⟩

theorem of_turn {step : Reading α} (hturn : t.turn = k)
    (hstep : Shifts n g (.turns t k) step n' g') : Shifts n g (.seen t) step n' g' :=
  ⟨fun hs hahead => hstep.leads hs ⟨hahead, hturn⟩⟩

/-- A token that comes next is legible, so this may be used. -/
theorem of_legible {step : Reading α} (hsteady : Steady 0 step)
    (hstep : t.Legible → Shifts n g (.seen t) step n' g') :
    Shifts n g (.seen t) step n' g' where
  leads {_ _ s} hs hahead a s' hrun hquiet := by
    have hquiet' : s.session.sink.Quiet := by
      refine hsteady.stepwise.quiet ?_
      rwa [hrun]
    have hlegible := (hs hquiet').legible
    rw [show s.lookahead = t from hahead] at hlegible
    exact (hstep hlegible).leads hs hahead a s' hrun hquiet

/-- What is known of what the next token does may be set aside. -/
theorem of_turns {step : Reading α} (hstep : t.turn = k → Shifts n g (.seen t) step n' g') :
    Shifts n g (.turns t k) step n' g' :=
  ⟨fun hs hahead => (hstep hahead.2).leads hs hahead.1⟩

/-- A step that keeps what it is found with may tell something of the next token. -/
theorem telling {first : Reading α} {next : α → Reading β} {P : α → Token → Prop}
    (hfirst : Keeps first) (htold : ∀ s : State, Leads first s fun a _ => P a s.lookahead)
    (hnext : ∀ a, P a t → Shifts n g (.seen t) (next a) n' g') :
    Shifts n g (.seen t) (first >>= next) n' g' where
  leads {_ _ s} hs hahead := .bind fun a s' hrun => by
    have hkeeps := hfirst.leads s a s' hrun
    have htold := htold s a s' hrun
    rw [show s.lookahead = t from hahead] at htold
    exact (hnext a htold).leads (fun hquiet => (hs (hkeeps.quiet hquiet)).keeps hkeeps)
      (hahead.keeps hkeeps)

theorem of_turn_next {step : Reading α} (hturn : (Token.next t.stop).turn = k')
    (hstep : Shifts n g (.both t k k') step n' g') : Shifts n g (.turns t k) step n' g' :=
  ⟨fun hs hahead => hstep.leads hs ⟨hahead.1, hahead.2, hturn⟩⟩

/-! ### Looking at tokens -/

/-- A step whose answer is about the next token alone. -/
class Looks {γ : Type} (step : Reading γ) (answer : outParam (Token → γ)) : Prop where
  run (s : State) : step.run.run s = (.ok (answer s.lookahead), s)

instance : Looks token fun t => t := ⟨fun _ => rfl⟩

instance (p : String) : Looks (atPunctuator p) fun t => t.isPunctuator p := ⟨fun _ => rfl⟩

instance (word : String) : Looks (atKeyword word) fun t => t.isKeyword word := ⟨fun _ => rfl⟩

instance (word : String) : Looks (atWord word) fun t => t.isName word := ⟨fun _ => rfl⟩

instance : Looks peek fun t => Token.next t.stop := ⟨fun _ => rfl⟩

section Looks

variable {γ : Type} {first : Reading γ} {answer : Token → γ} [hfirst : Looks first answer]
  {next : γ → Reading β}

theorem look (hnext : ∀ s : State, ahead.Holds s →
    Shifts n g ahead (next (answer s.lookahead)) n' g') :
    Shifts n g ahead (first >>= next) n' g' where
  leads {_ _ s} hs hahead := .bind fun a s' hrun => by
    obtain ⟨⟨⟩, rfl⟩ := Prod.mk.inj ((hfirst.run s).symm.trans hrun)
    exact (hnext s hahead).leads hs hahead

instance (priority := 10010) [hnext : ∀ t, Shifts n g (.seen t) (next (answer t)) n' g'] :
    Shifts n g .unknown (first >>= next) n' g' :=
  of_seen fun _ => look fun s hs => by rw [← hs]; exact hnext _

theorem looking (hnext : Shifts n g (.seen t) (next (answer t)) n' g') :
    Shifts n g (.seen t) (first >>= next) n' g' := look fun _ hs => by rwa [hs]

instance (priority := 10010) [hnext : Shifts n g (.seen t) (next (answer t)) n' g'] :
    Shifts n g (.seen t) (first >>= next) n' g' := looking hnext

theorem looking_turns (hnext : Shifts n g (.turns t k) (next (answer t)) n' g') :
    Shifts n g (.turns t k) (first >>= next) n' g' := look fun _ hs => by rwa [hs.1]

instance (priority := 10010) [hnext : Shifts n g (.turns t k) (next (answer t)) n' g'] :
    Shifts n g (.turns t k) (first >>= next) n' g' := looking_turns hnext

instance (priority := 10010) [hnext : Shifts n g (.both t k k') (next (answer t)) n' g'] :
    Shifts n g (.both t k k') (first >>= next) n' g' := look fun _ hs => by rwa [hs.1]

end Looks

/-! ### Choices -/

instance (priority := low) {c : Prop} [Decidable c] {first second : Reading α}
    [hfirst : Shifts n g ahead first n' g'] [hsecond : Shifts n g ahead second n' g'] :
    Shifts n g ahead (if c then first else second) n' g' := by
  split <;> infer_instance

/-- What a condition tells of the tokens that come next. -/
class Learns (ahead : Ahead) (c : Prop) (ahead' : outParam Ahead) : Prop where
  holds {s : State} : ahead.Holds s → c → ahead'.Holds s

instance {c : Prop} [hc : Tells c t k] : Learns (.seen t) c (.turns t k) :=
  ⟨fun hs h => ⟨hs, hc.turn h⟩⟩

instance {c : Prop} [hc : Tells c (Token.next t.stop) k'] : Learns (.turns t k) c (.both t k k') :=
  ⟨fun hs h => ⟨hs.1, hs.2, hc.turn h⟩⟩

section Learns

variable {c : Prop} [Decidable c] {ahead' : Ahead} [hc : Learns ahead c ahead']
  {first second : Reading α}

instance [hfirst : Shifts n g ahead' first n' g'] [hsecond : Shifts n g ahead second n' g'] :
    Shifts n g ahead (if c then first else second) n' g' := by
  split
  next h => exact ⟨fun hs hahead => hfirst.leads hs (hc.holds hahead h)⟩
  next => exact hsecond

instance (priority := high) [hfirst : Shifts n g ahead' first n' g'] [hsecond : Speaks second] :
    Shifts n g ahead (if c then first else second) n' g' := by
  split
  next h => exact ⟨fun hs hahead => hfirst.leads hs (hc.holds hahead h)⟩
  next => exact .of_speaks hsecond

end Learns

/-- Where a condition fails that fails for a reason, this is known. -/
instance {b : Bool} {ahead' : Ahead} [hb : Learns ahead (b = true) ahead']
    {first second : Reading α} [hfirst : Shifts n g ahead first n' g']
    [hsecond : Shifts n g ahead' second n' g'] :
    Shifts n g ahead (if (!b) = true then first else second) n' g' := by
  cases b with
  | false => exact hfirst
  | true => exact ⟨fun hs hahead => hsecond.leads hs (hb.holds hahead rfl)⟩

instance (priority := 10005) {b : Bool} {ahead' : Ahead} [hb : Learns ahead (b = true) ahead']
    {first second : Reading α} [hfirst : Speaks first] [hsecond : Shifts n g ahead' second n' g'] :
    Shifts n g ahead (if (!b) = true then first else second) n' g' := by
  have hloud : Shifts n g ahead first n' g' := .of_speaks hfirst
  infer_instance

instance (priority := high) {c : Prop} [Decidable c] {first second : Reading α}
    [hfirst : Speaks first] [hsecond : Shifts n g ahead second n' g'] :
    Shifts n g ahead (if c then first else second) n' g' := by
  split
  next => exact .of_speaks hfirst
  next => exact hsecond

/-- A report changes nothing that it is found with. -/
instance (priority := 10010) {c : Prop} [Decidable c] {first : Reading β}
    {rest : β → Reading α} {b : β} [hfirst : Keeps first]
    [hrest : ∀ b, Shifts n g ahead (rest b) n' g'] :
    Shifts n g ahead (if c then first >>= rest else rest b) n' g' := by
  split
  · infer_instance
  · exact hrest b

instance (priority := 10020) {first second : Reading α}
    [hfirst : Shifts n g ahead first n' g'] :
    Shifts n g ahead (if true = true then first else second) n' g' := hfirst

instance (priority := 10020) {first second : Reading α}
    [hsecond : Shifts n g ahead second n' g'] :
    Shifts n g ahead (if false = true then first else second) n' g' := hsecond

/-! ### Consuming tokens -/

/-- Behind a token that does what it may do here, the next one is known. -/
theorem advance_since {u : Unit} (hs : s.session.sink.Quiet → s.Since before start n g)
    (hturn : s.lookahead.turn.Leads g g') (hrun : advance.run.run s = (.ok u, s')) :
    (s'.session.sink.Quiet → s'.Since before start n g') ∧
      s'.lookahead = Token.next s.lookahead.stop := by
  have hkeeps := advance_leads s u s' hrun
  exact ⟨fun hquiet => ((hs (hkeeps.quiet hquiet)).behind hturn).keeps hkeeps, hkeeps.lookahead⟩

section Advance

variable {next : Unit → Reading β} [hk : k.Leads g g']

theorem advancing (hnext : ∀ u, Shifts n g' (.seen (Token.next t.stop)) (next u) n'' g'') :
    Shifts n g (.turns t k) (advance >>= next) n'' g'' where
  leads {_ _ s} hs hahead := .bind fun u s' hrun => by
    obtain ⟨rfl, rfl⟩ := hahead
    obtain ⟨hsince, hlookahead⟩ := advance_since hs hk hrun
    exact (hnext u).leads hsince hlookahead

instance (priority := 10010)
    [hnext : ∀ u, Shifts n g' (.seen (Token.next t.stop)) (next u) n'' g''] :
    Shifts n g (.turns t k) (advance >>= next) n'' g'' := advancing hnext

instance (priority := 10010)
    [hnext : ∀ u, Shifts n g' (.turns (Token.next t.stop) k') (next u) n'' g''] :
    Shifts n g (.both t k k') (advance >>= next) n'' g'' where
  leads {_ _ s} hs hahead := .bind fun u s' hrun => by
    obtain ⟨rfl, rfl, hturn⟩ := hahead
    obtain ⟨hsince, hlookahead⟩ := advance_since hs hk hrun
    exact (hnext u).leads hsince ⟨hlookahead, hturn⟩

instance : Shifts n g (.turns t k) advance n g' := by
  have hpure : Shifts n g (.turns t k) (do advance; pure ()) n g' := inferInstance
  rwa [bind_pure] at hpure

end Advance

/-! ### Expected tokens -/

instance {p : String} [hp : Spells p k] [hk : k.Leads g g'] :
    Shifts n g ahead (expectPunctuator p) n g' := .forget <| by
  unfold expectPunctuator
  infer_instance

instance (word : String) : Shifts n g ahead (expectKeyword word) n g := .forget <| by
  unfold expectKeyword
  infer_instance

instance (word : String) : Shifts n g ahead (expectWord word) n g := .forget <| by
  unfold expectWord
  infer_instance

/-- Where another token is known to come, that is reported. -/
theorem of_missing {p : String} {rest : Unit → Reading β} [hrest : ∀ a, Steady 0 (rest a)]
    (hp : ¬ t.isPunctuator p = true) :
    Shifts n g (.seen t) (expectPunctuator p >>= rest) n' g' := by
  unfold expectPunctuator
  rw [bind_assoc]
  refine looking ?_
  rw [if_neg hp]
  exact .of_speaks inferInstance

theorem acceptPunctuator_leads (p : String) (s : State) :
    Leads (acceptPunctuator p) s fun accepted s' =>
      (accepted = true ∧ s.lookahead.isPunctuator p = true ∧ s.behind.Keeps s') ∨
        (accepted = false ∧ s' = s) := by
  refine .bind ?_
  rintro _ _ ⟨⟩
  refine .ite (fun hp => .bind fun u s' hrun => .pure (.inl ⟨rfl, hp, advance_leads s u s' hrun⟩)) ?_
  exact fun _ => .pure (.inr ⟨rfl, rfl⟩)

/-- What follows a punctuator that may be missing goes on behind it if it does come. -/
instance (priority := 10010) {p : String} {next : Bool → Reading β}
    [hp : Spells p k] [hk : k.Leads g g'] [hyes : Shifts n g' .unknown (next true) n'' g'']
    [hno : Shifts n g ahead (next false) n'' g''] :
    Shifts n g ahead (acceptPunctuator p >>= next) n'' g'' where
  leads {_ _ s} hs hahead := .bind fun accepted s' hrun => by
    rcases acceptPunctuator_leads p s accepted s' hrun with ⟨rfl, hat, hkeeps⟩ | ⟨rfl, rfl⟩
    · have hturn : s.lookahead.turn.Leads g g' := by
        rw [Token.turn_of_isPunctuator hat, hp.eq]
        exact hk
      refine hyes.leads (fun hquiet => ?_) trivial
      exact ((hs (hkeeps.quiet hquiet)).behind hturn).keeps hkeeps
    · exact hno.leads hs hahead

instance (afterDo : Bool) : Shifts n g ahead (endStatement afterDo) n g := .forget <| by
  unfold endStatement
  infer_instance

instance : Shifts n g ahead semicolon n g := .forget <| by
  unfold semicolon
  infer_instance

/-! ### Bounds and loops -/

instance {step : Reading α} [hstep : Shifts n g ahead step n' g'] :
    Shifts n g ahead (Reading.nested step) n' g' := by
  have hdeeper : Keeps (modify fun s : State => { s with depth := s.depth + 1 }) :=
    .change fun _ => ⟨rfl, rfl, rfl, id, .refl _⟩
  have hback : Keeps (modify fun s : State => { s with depth := s.depth - 1 }) :=
    .change fun _ => ⟨rfl, rfl, rfl, id, .refl _⟩
  unfold Reading.nested
  infer_instance

instance {step : Reading α} [hstep : Shifts n g ahead step n' g'] :
    Shifts n g ahead (allowingIn step) n' g' := by
  unfold allowingIn
  infer_instance

instance {step : Reading α} [hstep : Shifts n g ahead step n' g'] :
    Shifts n g ahead (excludingIn step) n' g' := by
  unfold excludingIn
  infer_instance

theorem iterate {σ : Type} {round : σ → Reading (Round σ α)}
    (hround : ∀ state, Shifts n g .unknown (round state) n g) (fuel : Nat) (state : σ) :
    Shifts n g .unknown (iterate round fuel state) n g := by
  induction fuel generalizing state with
  | zero => exact .of_speaks ⟨.outOfFuel, fun _ _ _ => nofun⟩
  | succ fuel ih =>
      unfold Reading.iterate
      refine .bind (hround state) fun r => ?_
      cases r with
      | again state => exact ih state
      | done answer => infer_instance

instance {σ : Type} {state : σ} {round : σ → Reading (Round σ α)}
    [hround : ∀ state, Shifts n g .unknown (round state) n g] :
    Shifts n g ahead (repeatFrom state round) n g := .forget <| by
  have hiterate := iterate (fun state => hround state)
  unfold repeatFrom
  infer_instance

instance {round : Reading Bool} [hround : Shifts n g .unknown round n g] :
    Shifts n g ahead (repeatWhile round) n g := .forget <| by
  unfold repeatWhile
  infer_instance

instance {σ : Type} {closer : String} {item : σ → Reading (Round σ σ)}
    {afterComma : σ → Position → Reading Unit} {state : σ}
    [hitem : ∀ state, Shifts n g .unknown (item state) n g]
    [hcomma : ∀ state comma, Keeps (afterComma state comma)] :
    Shifts n g .unknown (commaRound closer item afterComma state) n g := by
  unfold commaRound
  refine keeping inferInstance fun _ => ?_
  split
  · infer_instance
  · refine .bind (hitem state) fun r => ?_
    cases r <;> infer_instance

instance {σ : Type} {closer : String} {state : σ} {item : σ → Reading (Round σ σ)}
    {afterComma : σ → Position → Reading Unit}
    [hitem : ∀ state, Shifts n g .unknown (item state) n g]
    [hcomma : ∀ state comma, Keeps (afterComma state comma)] :
    Shifts n g ahead (commaList closer state item afterComma) n g := by
  unfold commaList
  infer_instance

/-! ### Scopes -/

/-- Behind the opening of a scope, the next token is the same, one scope further in. -/
instance (priority := 10010) {change : Scope.Tracker → Scope.Tracker}
    [hchange : Scope.Tracker.Enters change] {next : Unit → Reading β}
    [hnext : ∀ u, Shifts (n + 1) g ahead (next u) n' g'] :
    Shifts n g ahead (track change >>= next) n' g' where
  leads hs hahead := .bind <| .track <| (hnext ()).leads (fun hquiet =>
    have hbefore := hs hquiet
    ⟨hbefore.ready, hchange.inside hbefore.inside, hbefore.walk⟩) (by cases ahead <;> exact hahead)

instance : Shifts (n + 1) g ahead (inScopes Scope.Action.exitScope) n g where
  leads {_ _ s} hs _ a s' hrun hquiet := by
    have hinside (h : s.session.tracker.Inside (n + 1)) :=
      Leads.inScopes (Scope.Action.exitScope_inside h) a s' hrun
    have hquiet' : s.session.sink.Quiet := by
      have hstep : Steady 0 (inScopes Scope.Action.exitScope) := inferInstance
      have := hstep.stepwise.quiet (s := s)
      rw [hrun] at this
      exact this hquiet
    rw [run_inScopes] at hrun
    obtain ⟨-, rfl⟩ := Prod.mk.inj hrun
    have hbefore := hs hquiet'
    exact ⟨hbefore.ready, hinside hbefore.inside, hbefore.walk⟩

end Shifts

end ScriptLint.Reading

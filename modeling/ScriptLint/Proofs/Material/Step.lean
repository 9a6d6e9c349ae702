import ScriptLint.Proofs.Lexing.Place
import ScriptLint.Proofs.Material.Scope

/-! # Steps of reading and texts

The steps below the productions: from one token to the next, with the comments on the way, and how
steps go together. Reports show what comes from tokens and from the analysis itself.
-/

set_option synthInstance.maxSize 65536

namespace ScriptLint

open Reading (State Round isSlash)

/-- The tokens that are at hand, and what was said and kept so far. -/
instance : HasTexts State :=
  ⟨fun m s => HasTexts.Made m s.lookahead ∧ HasTexts.Made m s.consumed ∧ HasTexts.Made m s.session⟩

instance {α β : Type} [HasTexts α] [HasTexts β] : HasTexts (Round α β) where
  Made m
    | .again state => HasTexts.Made m state
    | .done answer => HasTexts.Made m answer

namespace Material

variable {α β : Type} [HasTexts α] [HasTexts β] {m : Material}

instance (state : α) [h : Made m state] : Made m (Round.again state : Round α β) := ⟨h.made⟩

instance (answer : β) [h : Made m answer] : Made m (Round.done answer : Round α β) := ⟨h.made⟩

instance (a : α) (b : β) [ha : Made m a] [hb : Made m b] : Made m (a, b) := ⟨ha.made, hb.made⟩

section

variable (s : State) [hs : Made m s]

instance : Made m s.lookahead := ⟨hs.made.1⟩

instance : Made m s.previous := by
  unfold State.previous
  cases hconsumed : s.consumed with
  | nil => exact ⟨hs.made.1⟩
  | cons t rest => exact ⟨hs.made.2.1 t (hconsumed ▸ List.mem_cons_self)⟩

instance : Made m s.session.tracker := ⟨hs.made.2.2.1⟩

end

section

variable (issue : LexicalIssue) [hissue : Made m issue]

instance : Made m issue.arguments := ⟨hissue.made.2.1⟩

end

instance (t : Token) [ht : Made m t] [hm : m.Lawful] : Made m t.fatalIssue? :=
  ⟨fun issue hissue => hm.issues ht.made issue (List.mem_of_find?_eq_some hissue)⟩

instance (d : Directive) [hd : Made m d] : Made m d.items := ⟨hd.made⟩

instance [hm : m.Lawful] (feature : String) (since : Edition) (position : Position)
    [hfeature : Named m feature] : Made m (LexicalIssue.gated feature since position) :=
  ⟨(.pairing (by decide) : Message.Takes "W119" _),
    (inferInstance : Made m [feature, toString since.number]).made,
    (inferInstance : Led m "W119" [feature, toString since.number]).leads⟩

instance (shown : String) (position : Position) [hshown : Made m shown] :
    Made m (LexicalIssue.unexpected shown position) :=
  ⟨(.naming (by decide) : Message.Takes "E024" _), (inferInstance : Made m [shown]).made,
    (inferInstance : Led m "E024" [shown]).leads⟩

instance (position : Position) : Made m (LexicalIssue.invalidRegexp position) :=
  ⟨(.bare (by decide) : Message.Takes "E016" _), nofun, nofun⟩

namespace Keeps

open Reading

/-! ## What is known -/

instance : Keeps m Reading.token := by
  unfold Reading.token
  infer_instance

instance : Keeps m previous := by
  unfold previous
  infer_instance

instance : Keeps m options := by
  unfold options
  infer_instance

instance : Keeps m tracker := by
  unfold tracker
  infer_instance

instance : Keeps m isStrict := by
  unfold isStrict
  infer_instance

instance (edition : Edition) : Keeps m (isBefore edition) := by
  unfold isBefore
  infer_instance

instance (p : String) : Keeps m (atPunctuator p) := by
  unfold atPunctuator
  infer_instance

instance (word : String) : Keeps m (atKeyword word) := by
  unfold atKeyword
  infer_instance

instance (word : String) : Keeps m (atWord word) := by
  unfold atWord
  infer_instance

/-! ## Scopes, reports and early ends -/

instance inScopes {action : Scope.Action α} [haction : Keeps m action] :
    Keeps m (inScopes action) where
  state {s} hs := by
    rw [run_inScopes]
    exact ⟨hs.1, hs.2.1, haction.state hs.2.2⟩
  answer {s a} hs ha := by
    rw [run_inScopes] at ha
    cases houtcome : (action.run.run s.session).1 with
    | error reason =>
        rw [houtcome] at ha
        cases ha
    | ok a' =>
        rw [houtcome] at ha
        cases ha
        exact haction.answer hs.2.2 houtcome

instance (change : Scope.Tracker → Scope.Tracker) [hchange : Names m change] :
    Keeps m (track change) :=
  .change fun hs => ⟨hs.1, hs.2.1, hchange.made hs.2.2.1, hs.2.2.2⟩

instance (change : Sink → Sink) [hchange : Sink.Filter change] : Keeps m (adjustSink change) :=
  .change fun hs => ⟨hs.1, hs.2.1, hs.2.2.1, sink_filter hs.2.2.2 hchange⟩

instance (change : Options → Options) : Keeps m (adjustOptions change) := .change fun hs => hs

instance (code : String) (position : Position) (arguments : List String)
    (hcode : Halt.IsRegular code) [Message.Formed code arguments] [Made m arguments]
    [Led m code arguments] : Keeps m (report code position arguments hcode) := by
  unfold report
  infer_instance

instance (issue : LexicalIssue) [hissue : Made m issue] : Keeps m (reportIssue issue) := by
  have : Message.Formed issue.code issue.arguments := ⟨hissue.made.1⟩
  have : Led m issue.code issue.arguments := ⟨hissue.made.2.2⟩
  unfold reportIssue
  infer_instance

instance (reason : Halt) (position : Position) : Keeps m (halt reason position : Reading α) := by
  have (scope : String) : Keeps m (adjustSink (·.terminate reason.code position scope)) :=
    .change fun hs => ⟨hs.1, hs.2.1, hs.2.2.1, sink_terminate hs.2.2.2 reason position scope⟩
  have : Keeps m (throw (.halted reason) : Reading α) := .stop _
  unfold halt
  infer_instance

section

variable [m.Lawful] (feature : String) [Named m feature] (position : Position)

instance (since : Edition) : Keeps m (requireEdition feature since position) := by
  unfold requireEdition
  infer_instance

instance : Keeps m (requireModern feature position) := by
  unfold requireModern
  infer_instance

end

/-! ## Bounds and loops -/

instance nested {step : Reading α} [hstep : Keeps m step] : Keeps m (nested step) := by
  have (change : Nat → Nat) :
      Keeps m (modify fun s => { s with depth := change s.depth } : Reading Unit) :=
    .change fun hs => hs
  have hdeeper := this (· + 1)
  have hback := this (· - 1)
  unfold Reading.nested
  infer_instance

instance (excluded : Bool) : Keeps m (setInExcluded excluded) := .change fun hs => hs

instance {step : Reading α} [Keeps m step] : Keeps m (allowingIn step) := by
  unfold allowingIn
  infer_instance

instance {step : Reading α} [Keeps m step] : Keeps m (excludingIn step) := by
  unfold excludingIn
  infer_instance

theorem iterate {round : α → Reading (Round α β)}
    (hround : ∀ state : Texts α m, Keeps m (round state.1)) (fuel : Nat) (state : α)
    [hstate : Made m state] : Keeps m (iterate round fuel state) := by
  induction fuel generalizing state with
  | zero => exact .stop _
  | succ fuel ih =>
      unfold Reading.iterate
      refine .bind (hround ⟨state, hstate.made⟩) fun r => ?_
      rcases r with ⟨state | answer, hr⟩
      · have : Made m state := ⟨hr⟩
        exact ih state
      · have : Made m answer := ⟨hr⟩
        dsimp only
        infer_instance

instance {state : α} {round : α → Reading (Round α β)} [Made m state]
    [hround : ∀ state : Texts α m, Keeps m (round state.1)] :
    Keeps m (repeatFrom state round) :=
  .bind inferInstance fun _ => .iterate hround _ state

instance {round : Reading Bool} [Keeps m round] : Keeps m (repeatWhile round) := by
  unfold repeatWhile
  infer_instance

/-! ## Comments -/

variable [hm : m.Lawful]

section

variable (name value : String) (position : Position)

instance [Made m name] : Keeps m (badOption name position) := by
  unfold badOption
  infer_instance

instance {rule : Type} (found : Except OptionError rule) (change : rule → Options → Options)
    [Made m name] : Keeps m (applyRule name position found change) := by
  unfold applyRule
  split <;> infer_instance

instance [Made m name] : Keeps m (applyFlag name value position) := by
  unfold applyFlag
  dsimp only
  split <;> infer_instance

instance [Made m value] : Keeps m (applyLimit value position) := by
  unfold applyLimit
  split <;> infer_instance

instance : Keeps m (applyIgnore value position) := by
  unfold applyIgnore
  split <;> infer_instance

instance [Made m name] [Made m value] : Keeps m (applyValue name value position) := by
  unfold applyValue
  dsimp only
  split
  case h_2 => split <;> infer_instance
  all_goals infer_instance

instance (item : String × Option String) [hitem : Made m item] :
    Keeps m (applyItem position item) := by
  obtain ⟨name, value?⟩ := item
  have : Made m name := ⟨hitem.made.1⟩
  unfold applyItem
  dsimp only
  split
  · infer_instance
  · split
    next value =>
      have : Made m value := ⟨hitem.made.2 value rfl⟩
      infer_instance
    next => infer_instance

end

instance (item : String × Option String) : Keeps m (applyGlobal item) := by
  unfold applyGlobal
  split <;> infer_instance

instance (d : Directive) [Made m d] : Keeps m (applyDirective d) := by
  unfold applyDirective
  split <;> infer_instance

/-! ## Consuming tokens -/

instance (issues : List LexicalIssue) [Made m issues] : Keeps m (reportIssues issues) := by
  unfold reportIssues
  infer_instance

instance : Keeps m checkFatal := by
  unfold checkFatal
  refine .bind inferInstance fun t => ?_
  have hfatal := (inferInstance : Made m t.1.fatalIssue?).made
  split
  · infer_instance
  next issue hissue =>
    have : Made m issue := ⟨hfatal issue hissue⟩
    infer_instance

instance : Keeps m acceptLookahead := by
  unfold acceptLookahead
  infer_instance

instance : Keeps m advance := by
  have (t : Token) [ht : Made m t] : Keeps m (modify fun s : State =>
      { s with consumed := t :: s.consumed, lookahead := Token.next t.stop } : Reading Unit) :=
    .change fun hs => ⟨hm.next ht.made,
      fun t' hmem => (List.mem_cons.mp hmem).elim (fun heq => heq ▸ ht.made) (hs.2.1 t'), hs.2.2⟩
  unfold advance
  infer_instance

instance (t : Token) [ht : Made m t] : Keeps m (replaceLookahead t) :=
  .change fun hs => ⟨ht.made, hs.2⟩

instance : Keeps m rescanRegexp := by
  unfold rescanRegexp
  refine .bind inferInstance fun t => ?_
  split
  next hslash =>
    have : Made m t.1.rescanRegexp := ⟨hm.rescanRegexp t.2 hslash⟩
    infer_instance
  next => infer_instance

/-- Where a brace comes next, it may be read as the end of a substitution. -/
theorem atBrace {next otherwise : Reading α} (hnext : Keeps m next)
    (hotherwise : Keeps m otherwise) :
    Keeps m (atPunctuator "\x7d" >>= fun closes =>
      if closes then rescanTemplate >>= fun _ => next else otherwise) := by
  have hlook : Keeps m (Reading.token >>= fun t => if t.isPunctuator "\x7d" then
      replaceLookahead t.rescanTemplate >>= fun _ => checkFatal >>= fun _ => next
      else otherwise) := by
    refine .bind inferInstance fun t => ?_
    split
    next hbrace =>
      have : Made m t.1.rescanTemplate := ⟨hm.rescanTemplate t.2 hbrace⟩
      infer_instance
    next => exact hotherwise
  refine .congr (fun s => ?_) hlook
  change (if s.lookahead.isPunctuator "\x7d" then _ else _ : Reading α).run.run s =
    (if s.lookahead.isPunctuator "\x7d" then _ else _ : Reading α).run.run s
  split <;> rfl

instance : Keeps m peek := by
  unfold peek
  infer_instance

instance : Keeps m peekSecond := by
  unfold peekSecond
  infer_instance

/-! ### Looking past a group -/

theorem token_of_group {fuel : Nat} {scan : GroupScan} {t : Token}
    (hscan : m.token (Token.next scan.stop)) (hrun : scan.run fuel = some t) : m.token t := by
  induction fuel generalizing scan with
  | zero => cases hrun
  | succ fuel ih =>
      have htaken : m.token scan.taken := by
        rw [GroupScan.taken_eq]
        split
        next hslash => exact hm.rescanRegexp hscan (Bool.and_eq_true_iff.mp hslash).2
        next => exact hscan
      unfold GroupScan.run at hrun
      cases hstep : scan.step with
      | inr t' =>
          rw [hstep] at hrun
          cases hrun
          rcases GroupScan.step_end hstep with rfl | rfl
          · exact htaken
          · exact hm.next htaken
      | inl scan' =>
          rw [hstep] at hrun
          refine ih ?_ hrun
          rcases GroupScan.step_stop hstep with ⟨-, hstop⟩ | ⟨hbrace, hstop⟩ <;> rw [hstop]
          · exact hm.next htaken
          · exact hm.next (hm.rescanTemplate htaken hbrace)

theorem tokenAfterGroupFrom {c : Cursor} (hc : m.token (Token.next c)) :
    Keeps m (tokenAfterGroupFrom c) := by
  unfold Reading.tokenAfterGroupFrom
  refine .bind inferInstance fun s => ?_
  dsimp only
  split
  next t hrun =>
    have : Made m t := ⟨token_of_group hc hrun⟩
    infer_instance
  next => exact .stop _

instance : Keeps m tokenAfterGroup :=
  .bind inferInstance fun t => tokenAfterGroupFrom (hm.next t.2)

instance : Keeps m tokenAfterNextGroup :=
  .bind inferInstance fun t => tokenAfterGroupFrom (hm.next t.2)

end Keeps

end Material

end ScriptLint

import ScriptLint.Proofs.Invariant.Enclosure
import ScriptLint.Proofs.Invariant.Unresolved
import ScriptLint.Proofs.Reading.Completion

/-! # Codes that a step does not report

What comes with tokens is reported with codes of its own, whatever comes of it: the problems that
the lexer found, and what is wrong in comments. So a step of the parser that takes tokens and
reports with other codes, or not at all, says nothing that is left to the rest of the parser.
-/

set_option synthInstance.maxSize 4096

namespace ScriptLint

/-- The second sink has no more diagnostics than the first with one of the codes. -/
def Sink.Without (codes : List String) (a b : Sink) : Prop :=
  ∀ d ∈ b.accepted, d ∈ a.accepted ∨ d.code ∉ codes

namespace Sink.Without

variable {codes : List String} {a b c : Sink}

theorem refl (a : Sink) : a.Without codes a := fun _ => .inl

theorem trans (hab : a.Without codes b) (hbc : b.Without codes c) : a.Without codes c :=
  fun d hmem => (hbc d hmem).elim (hab d) .inr

theorem filter {change : Sink → Sink} (hchange : Filter change) (a : Sink) :
    a.Without codes (change a) := fun _ hmem => .inl ((hchange.keeps a).2 ▸ hmem)

theorem report {code : String} (hcode : code ∉ codes) (a : Sink) (position : Position)
    (arguments : List String) (scope : String) :
    a.Without codes (a.report code position arguments scope).2 := fun _ hmem =>
  (mem_report_accepted hmem).imp_right <| by rintro rfl; exact hcode

theorem terminate (a : Sink) (code : String) (position : Position) (scope : String) :
    a.Without codes (a.terminate code position scope) := by
  cases hopen : a.terminal? with
  | none =>
      rw [terminate_of_open hopen]
      exact refl a
  | some last =>
      rw [terminate_of_isHalted (by simp [isHalted, hopen])]
      exact refl a

end Sink.Without

namespace Reading

variable {α β : Type} {codes : List String}

/-- What reports with some codes says nothing with others. -/
theorem State.Attends.without {others : List String} {s s' : State}
    (hattends : s.Attends codes s') (hcodes : ∀ code ∈ codes, code ∉ others) :
    s.session.sink.Without others s'.session.sink := by
  obtain ⟨operations, hoperations, hrun⟩ := hattends.operations
  have hsingle {operation : Scope.Operation} (hoperation : operation.WithToken codes)
      (t : Scope.Session) :
      operation.perform.Leads t fun _ t' => t.sink.Without others t'.sink := by
    cases hoperation with
    | changeSink hchange =>
        rintro _ _ ⟨⟩
        exact fun d hmem => (hchange t.sink d hmem).imp_right (hcodes d.code)
    | _ =>
        rintro _ _ ⟨⟩
        exact .refl t.sink
  have hall : (Scope.Operation.performAll operations).Leads s.session fun _ t =>
      s.session.sink.Without others t.sink := by
    refine .mono (.forM (fun rest t => (∀ operation ∈ rest, operation.WithToken codes) ∧
      s.session.sink.Without others t.sink) ⟨hoperations, .refl _⟩ ?_) fun _ _ h => h.2
    rintro operation rest t ⟨hrest, ht⟩
    refine .mono (hsingle (hrest operation List.mem_cons_self) t) fun _ t' hstep => ?_
    exact ⟨fun operation hmem => hrest operation (List.mem_cons_of_mem _ hmem), ht.trans hstep⟩
  exact hall () s'.session hrun

/-- A step that goes on to tokens of the lexer, if to any, and whatever comes of it has reported
nothing with the codes. -/
class Avoids (codes : List String) (step : Reading α) : Prop where
  lexed {s : State} : s.Lexed → (s.after step).Lexed
  without {s : State} : s.Lexed → s.session.sink.Without codes (s.after step).session.sink

namespace Avoids

theorem leads {step : Reading α} (hstep : Avoids codes step) {s : State} (hs : s.Lexed) :
    Leads step s fun _ s' => s'.Lexed ∧ s.session.sink.Without codes s'.session.sink := by
  intro _ s' hrun
  have hafter : s.after step = s' := congrArg Prod.snd hrun
  exact hafter ▸ ⟨hstep.lexed hs, hstep.without hs⟩

/-- A step that does nothing but look. -/
theorem look {step : Reading α} (hstep : ∀ s : State, s.after step = s) : Avoids codes step where
  lexed hs := by rwa [hstep]
  without _ := by
    rw [hstep]
    exact .refl _

instance (a : α) : Avoids codes (pure a : Reading α) := look fun _ => rfl

instance : Avoids codes token := look fun _ => rfl

instance : Avoids codes options := look fun _ => rfl

instance : Avoids codes previous := look fun _ => rfl

/-- A step that leaves the next token as it is. -/
theorem stay {step : Reading α} (hlookahead : ∀ s : State, (s.after step).lookahead = s.lookahead)
    (hsink : ∀ s : State, s.session.sink.Without codes (s.after step).session.sink) :
    Avoids codes step where
  lexed {s} hs := by rwa [State.Lexed, hlookahead s]
  without {s} _ := hsink s

instance (change : Options → Options) : Avoids codes (adjustOptions change) :=
  .stay (fun _ => rfl) fun s => .refl s.session.sink

instance (change : Scope.Tracker → Scope.Tracker) : Avoids codes (track change) :=
  .stay (fun _ => rfl) fun s => .refl s.session.sink

theorem sink {change : Sink → Sink} (hchange : Sink.Filter change) :
    Avoids codes (adjustSink change) :=
  .stay (fun _ => rfl) fun s => .filter hchange s.session.sink

instance (reason : Halt) (position : Position) :
    Avoids codes (halt reason position : Reading α) :=
  .stay (fun _ => rfl) fun s => .terminate s.session.sink _ _ _

theorem report {code : String} (hcode : code ∉ codes) (position : Position)
    (arguments : List String) (hregular : Halt.IsRegular code) :
    Avoids codes (report code position arguments hregular) := by
  have hafter (s : State) : s.after (Reading.report code position arguments hregular) =
      s.after (inScopes (Scope.Action.report code position arguments
        s.session.tracker.functionName hregular)) := rfl
  refine .stay (fun s => ?_) fun s => ?_
  all_goals rw [hafter, State.after, run_inScopes, Scope.Action.run_report]
  exact .report hcode s.session.sink position arguments _

protected theorem bind {first : Reading α} {next : α → Reading β} (hfirst : Avoids codes first)
    (hnext : ∀ a, Avoids codes (next a)) : Avoids codes (first >>= next) := by
  have hafter (s : State) : s.after (first >>= next) = s.after first ∨
      ∃ a, s.after (first >>= next) = (s.after first).after (next a) := by
    unfold State.after
    rw [run_bind]
    rcases first.run.run s with ⟨stop | a, s'⟩
    · exact .inl rfl
    · exact .inr ⟨a, rfl⟩
  constructor
  all_goals
    intro s hs
    rcases hafter s with h | ⟨a, h⟩ <;> rw [h]
  · exact hfirst.lexed hs
  · exact (hnext a).lexed (hfirst.lexed hs)
  · exact hfirst.without hs
  · exact (hfirst.without hs).trans ((hnext a).without (hfirst.lexed hs))

instance {first : Reading α} {next : α → Reading β} [hfirst : Avoids codes first]
    [hnext : ∀ a, Avoids codes (next a)] : Avoids codes (first >>= next) := .bind hfirst hnext

instance {c : Prop} [Decidable c] {first second : Reading α} [hfirst : Avoids codes first]
    [hsecond : Avoids codes second] : Avoids codes (if c then first else second) := by
  split <;> infer_instance

theorem forM {items : List α} {step : α → Reading PUnit}
    (hstep : ∀ a ∈ items, Avoids codes (step a)) : Avoids codes (items.forM step) := by
  induction items with
  | nil => exact inferInstanceAs (Avoids codes (pure _))
  | cons a rest ih =>
      exact .bind (hstep a List.mem_cons_self) fun _ =>
        ih fun a hmem => hstep a (List.mem_cons_of_mem _ hmem)

instance nested {step : Reading α} [hstep : Avoids codes step] : Avoids codes (nested step) := by
  have hdepth (change : State → State) (hlookahead : ∀ s, (change s).lookahead = s.lookahead)
      (hsession : ∀ s, (change s).session = s.session) :
      Avoids codes (modify change : Reading Unit) :=
    .stay hlookahead fun s => by
      change s.session.sink.Without codes (change s).session.sink
      rw [hsession]
      exact .refl _
  have hdeeper : Avoids codes
      (modify fun s : State => { s with depth := s.depth + 1 } : Reading Unit) :=
    hdepth _ (fun _ => rfl) fun _ => rfl
  have hback : Avoids codes
      (modify fun s : State => { s with depth := s.depth - 1 } : Reading Unit) :=
    hdepth _ (fun _ => rfl) fun _ => rfl
  have hget : Avoids codes (get : Reading State) := look fun _ => rfl
  unfold Reading.nested
  infer_instance

/-! ## Comments -/

section Comments

variable (hcodes : ∀ code ∈ commentCodes, code ∉ codes)
include hcodes

theorem badOption (name : String) (position : Position) :
    Avoids codes (badOption name position) := .report (hcodes _ (by decide)) _ _ _

theorem applyValue (name value : String) (position : Position) :
    Avoids codes (applyValue name value position) := by
  have hbad (name : String) := badOption hcodes name position
  have hlimit : Avoids codes (applyLimit value position) := by
    unfold applyLimit
    split
    next limit _ => exact .bind inferInstance fun _ => .sink (.setLimit limit)
    next => exact .report (hcodes _ (by decide)) _ _ _
  have hignore : Avoids codes (applyIgnore value position) := by
    unfold applyIgnore
    split
    · exact .sink (.beginIgnore _)
    · exact .sink (.endIgnore _)
    · exact .sink (.ignoreLine _)
    · exact hbad _
  have hrule {rule : Type} (found : Except OptionError rule) (change : rule → Options → Options) :
      Avoids codes (applyRule name position found change) := by
    unfold applyRule
    split <;> infer_instance
  have hflag : Avoids codes (applyFlag name value position) := by
    unfold applyFlag
    dsimp only
    split <;> infer_instance
  unfold Reading.applyValue
  dsimp only
  split
  case h_2 => split <;> infer_instance
  all_goals infer_instance

theorem applyItem (position : Position) (item : String × Option String) :
    Avoids codes (applyItem position item) := by
  obtain ⟨name, value?⟩ := item
  unfold Reading.applyItem
  dsimp only
  split
  · exact .sink (.toggle _ _ _)
  · split
    · exact applyValue hcodes _ _ position
    · exact badOption hcodes name position

theorem applyDirective (d : Directive) : Avoids codes (applyDirective d) := by
  have hitems : Avoids codes (d.items.forM (Reading.applyItem d.position)) :=
    .forM fun item _ => applyItem hcodes d.position item
  have hglobals : Avoids codes (d.items.forM applyGlobal) := .forM fun item _ => by
    unfold applyGlobal
    split <;> infer_instance
  have hexports : Avoids codes (d.items.forM fun item => track (·.markExported item.1)) :=
    .forM fun item _ => inferInstance
  unfold Reading.applyDirective
  split <;> infer_instance

end Comments

/-! ## Tokens -/

/-- A step that begins with a look at the next token, which is one of the lexer. -/
theorem onToken {next : Token → Reading α}
    (hnext : ∀ t, (∀ issue ∈ t.issues, issue.code ∈ tokenCodes) → Avoids codes (next t)) :
    Avoids codes (token >>= next) := by
  have hissues {s : State} (hs : s.Lexed) :
      ∀ issue ∈ s.lookahead.issues, issue.code ∈ tokenCodes := by
    obtain ⟨c, hleads⟩ := hs
    exact fun issue hmem =>
      List.mem_append_right _ (List.mem_map_of_mem (hleads.behind.issues issue hmem).kind)
  have hafter (s : State) : s.after (token >>= next) = s.after (next s.lookahead) := rfl
  constructor
  · intro s hs
    exact hafter s ▸ (hnext _ (hissues hs)).lexed hs
  · intro s hs
    exact hafter s ▸ (hnext _ (hissues hs)).without hs

section Tokens

variable (hcodes : ∀ code ∈ tokenCodes, code ∉ codes)
include hcodes

theorem checkFatal : Avoids codes checkFatal := by
  refine .onToken fun t hissues => ?_
  split
  · infer_instance
  next issue hissue =>
    have : Avoids codes (reportIssue issue) :=
      .report (hcodes _ (hissues issue (List.mem_of_find?_eq_some hissue))) _ _ _
    infer_instance

theorem acceptLookahead : Avoids codes acceptLookahead := by
  have hcomment : ∀ code ∈ commentCodes, code ∉ codes := fun code hmem =>
    hcodes code (List.mem_append_left _ hmem)
  have hfatal := checkFatal hcodes
  exact .bind inferInstance fun _ =>
    .bind (.forM fun d _ => applyDirective hcomment d) fun _ => hfatal

theorem advance : Avoids codes advance := by
  have htake (t : Token) : Avoids codes (modify fun s : State =>
      { s with consumed := t :: s.consumed, lookahead := Token.next t.stop } : Reading Unit) :=
    ⟨fun _ => ⟨t.stop, .refl⟩, fun {s} _ => .refl s.session.sink⟩
  have haccept := acceptLookahead hcodes
  refine .onToken fun t hissues => .bind (htake t) fun _ => .bind (.forM fun issue hmem => ?_)
    fun _ => haccept
  have : Avoids codes (reportIssue issue) := .report (hcodes _ (hissues issue hmem)) _ _ _
  infer_instance

end Tokens

end Avoids

end Reading

end ScriptLint

import ScriptLint.Proofs.Core.Group
import ScriptLint.Proofs.Scope.Unlimited
import ScriptLint.Reading.Loop

/-! # Reading words

What a step of reading does in front of words of the core: it gets past some of them, and neither
ends the analysis nor reports a fault of syntax. Steps that only look, change the scopes or report
something else stay where they are. A step may turn out to be out of fuel, which is a matter of the
whole analysis.
-/

namespace ScriptLint

/-- The codes of faults for which a text would be no program. -/
def faultCodes : List String :=
  ["E006", "E015", "E016", "E021", "E024", "E030", "E031", "E058", "E067"]

/-- No number of diagnostics ends the analysis, nothing has ended it, and none of the diagnostics is
one of a fault of syntax. -/
structure Sink.Clean (sink : Sink) : Prop where
  limit : sink.limit = 0
  terminal : sink.terminal? = none
  codes : ∀ d ∈ sink.accepted, d.code ∉ faultCodes

theorem Sink.Clean.adds {a b : Sink} (ha : a.Clean) (hab : Adds (· ∉ faultCodes) a b) :
    b.Clean where
  limit := hab.limit_eq.trans ha.limit
  terminal := by
    obtain ⟨_, rfl⟩ := hab.frame
    exact ha.terminal
  codes d hmem := (hab.added d hmem).elim (ha.codes d) id

namespace Reading

variable {α β σ : Type}

/-! ## Steps that stay -/

/-- A step that does not stop, touches nothing but scopes and diagnostics, and reports no fault of
syntax. -/
class Harmless (step : Reading α) : Prop where
  run (s : State) : s.session.sink.Clean →
    ∃ a session, step.run.run s = (.ok a, { s with session }) ∧ session.sink.Clean

/-- The codes that such steps report, apart from those of scope analysis. -/
abbrev remarkCodes : List String :=
  ["E007", "E060", "E068", "W017", "W019", "W024", "W027", "W030", "W031", "W046", "W051", "W054",
    "W061", "W066", "W069", "W070", "W075", "W078", "W080", "W082", "W084", "W093", "W104", "W115",
    "W116", "W119", "W120", "W124", "W131", "W138", "W139"]

theorem not_mem_faultCodes_of_remark : ∀ code ∈ remarkCodes, code ∉ faultCodes := by decide

theorem not_mem_faultCodes_of_scope : ∀ code ∈ Scope.Action.scopeCodes, code ∉ faultCodes := by
  decide

namespace Harmless

instance (a : α) : Harmless (Pure.pure a : Reading α) := ⟨fun s hs => ⟨a, s.session, rfl, hs⟩⟩

protected theorem bind {first : Reading α} {next : α → Reading β} (hfirst : Harmless first)
    (hnext : ∀ a, Harmless (next a)) : Harmless (first >>= next) := by
  refine ⟨fun s hs => ?_⟩
  obtain ⟨a, session, hrun, hclean⟩ := hfirst.run s hs
  obtain ⟨b, session', hrun', hclean'⟩ := (hnext a).run { s with session } hclean
  refine ⟨b, session', ?_, hclean'⟩
  rw [run_bind, hrun]
  exact hrun'

instance {first : Reading α} {next : α → Reading β} [hfirst : Harmless first]
    [hnext : ∀ a, Harmless (next a)] : Harmless (first >>= next) := .bind hfirst hnext

instance {c : Prop} [Decidable c] {first second : Reading α} [hfirst : Harmless first]
    [hsecond : Harmless second] : Harmless (if c then first else second) := by
  split <;> infer_instance

instance {items : List α} {step : α → Reading PUnit} [hstep : ∀ a, Harmless (step a)] :
    Harmless (items.forM step) := by
  induction items with
  | nil => exact inferInstanceAs (Harmless (Pure.pure _))
  | cons a rest ih => exact .bind (hstep a) fun _ => ih

instance {item? : Option α} {step : α → Reading PUnit} [hstep : ∀ a, Harmless (step a)] :
    Harmless (item?.forM step) := by
  cases item? with
  | none => exact inferInstanceAs (Harmless (Pure.pure _))
  | some a => exact hstep a

/-- A step that only looks. -/
theorem look {step : Reading α} (hstep : ∀ s, ∃ a, step.run.run s = (.ok a, s)) :
    Harmless step := by
  refine ⟨fun s hs => ?_⟩
  obtain ⟨a, hrun⟩ := hstep s
  exact ⟨a, s.session, hrun, hs⟩

instance : Harmless token := look fun _ => ⟨_, rfl⟩

instance : Harmless previous := look fun _ => ⟨_, rfl⟩

instance : Harmless options := look fun _ => ⟨_, rfl⟩

instance : Harmless tracker := look fun _ => ⟨_, rfl⟩

instance : Harmless isStrict := look fun _ => ⟨_, rfl⟩

instance (edition : Edition) : Harmless (isBefore edition) := look fun _ => ⟨_, rfl⟩

instance : Harmless inGenerator := look fun _ => ⟨_, rfl⟩

instance : Harmless inAsync := look fun _ => ⟨_, rfl⟩

instance (p : String) : Harmless (atPunctuator p) := look fun _ => ⟨_, rfl⟩

instance (name : String) : Harmless (isReserved name) := by
  unfold isReserved
  refine .bind inferInstance fun o => ?_
  split <;> infer_instance

instance (change : Scope.Tracker → Scope.Tracker) : Harmless (track change) :=
  ⟨fun s hs => ⟨(), { s.session with tracker := change s.session.tracker }, rfl, hs⟩⟩

/-- An action that reports nothing but remarks on names. -/
instance {action : Scope.Action α} [haction : action.Stepwise]
    [hreports : Scope.Action.ReportsOnly Scope.Action.scopeCodes action] :
    Harmless (inScopes action) := by
  refine ⟨fun s hs => ?_⟩
  obtain ⟨⟨a, houtcome⟩, hadds⟩ := haction.unlimited hs.limit
  refine ⟨a, (action.run.run s.session).2, ?_, hs.adds ⟨hadds.frame, hadds.kept, fun d hmem => ?_⟩⟩
  · rw [run_inScopes, houtcome]
    rfl
  · exact (hreports.mem s.session d hmem).imp_right (not_mem_faultCodes_of_scope d.code)

theorem report {code : String} (hfault : code ∉ faultCodes) (position : Position)
    (arguments : List String) (hcode : Halt.IsRegular code) :
    Harmless (report code position arguments hcode) := by
  refine ⟨fun s hs => ?_⟩
  let scope := s.session.tracker.functionName
  have hrun : (Reading.report code position arguments hcode).run.run s =
      (inScopes (Scope.Action.report code position arguments scope hcode)).run.run s := rfl
  obtain ⟨houtcome, hadds⟩ := Sink.Adds.report hs.limit code position arguments scope
  refine ⟨(), { s.session with sink := _ }, ?_, hs.adds (hadds.mono fun other h => h ▸ hfault)⟩
  rw [hrun, run_inScopes, Scope.Action.run_report, houtcome]
  rfl

instance (code : String) [hlisted : Scope.Listed code remarkCodes] (position : Position)
    (arguments : List String) (hcode : Halt.IsRegular code) :
    Harmless (Reading.report code position arguments hcode) :=
  .report (not_mem_faultCodes_of_remark code hlisted.mem) position arguments hcode

instance (feature : String) (since : Edition) (position : Position) :
    Harmless (requireEdition feature since position) := by
  have hgated : Harmless (reportIssue (.gated feature since position)) :=
    .report (not_mem_faultCodes_of_remark "W119" (by decide)) position _ _
  unfold requireEdition
  infer_instance

instance (name : String) (position : Position) : Harmless (reportReserved name position) := by
  unfold reportReserved
  infer_instance

instance (position : Position) : Harmless (reportExtraComma position) := by
  unfold reportExtraComma
  infer_instance

instance (kind : Scope.BindingKind) (names : List BoundName) :
    Harmless (declareAll kind names) := by
  unfold declareAll
  infer_instance

instance (name : String) (position : Position) (access : Scope.Access) :
    Harmless (addReference name position access) := by
  unfold addReference
  infer_instance

end Harmless

/-! ## Places in a program -/

/-- What stays the same while words are read. -/
structure Place where
  options : Options
  /-- The length of the source in bytes. -/
  size : Nat
  depth : Nat
  inExcluded : Bool

/-- The place one level deeper. -/
def Place.deeper (p : Place) : Place := { p with depth := p.depth + 1 }

/-- The place with `in` excluded from the operators, or admitted. -/
def Place.excluding (p : Place) (inExcluded : Bool) : Place := { p with inExcluded }

end Reading

/-- The token comes next in front of the words, with which a source of a size ends. -/
def Token.Fronts (t : Token) (size : Nat) (ws : List Core.Word) : Prop :=
  ∃ c : Cursor, c.rest = Core.joined ws ∧ c.Within size ∧ t = Token.next c

namespace Token.Fronts

open ScriptLint.Core (Word joined spaced)

variable {t : Token} {size : Nat} {w : Word} {ws : List Word}

theorem begins (h : t.Fronts size (w :: ws)) : w.Begins t := by
  obtain ⟨c, hc, -, rfl⟩ := h
  exact Core.next_begins hc

theorem next_of_nil {c : Cursor} (hc : c.rest = []) :
    Token.next c = between .endOfInput c c {} [] := by
  have hpeek : c.peek? = none := by rw [Cursor.peek?, hc]; rfl
  rw [Core.next_of_solid (hc ▸ rfl), scan, hpeek]
  rfl

theorem isEnd (h : t.Fronts size []) : t.isEnd := by
  obtain ⟨c, hc, -, rfl⟩ := h
  rw [next_of_nil hc]
  rfl

theorem silent (h : t.Fronts size ws) : t.issues = [] ∧ t.directives = [] := by
  cases ws with
  | nil =>
      obtain ⟨c, hc, -, rfl⟩ := h
      rw [next_of_nil hc]
      exact ⟨rfl, rfl⟩
  | cons w ws => exact ⟨h.begins.issues_eq, h.begins.directives_eq⟩

/-- Where a token stands is told by the words that are left. -/
theorem offset_eq (h : t.Fronts size ws) :
    t.position.offset + byteLength (joined ws) = size := by
  obtain ⟨c, hc, hsize, rfl⟩ := h
  have hstart : (Token.next c).start = c := by
    cases ws with
    | nil => rw [next_of_nil hc]; rfl
    | cons w ws => exact Core.start_next_of_joined hc
  rw [Token.position, hstart, ← hc]
  exact hsize

end Token.Fronts

namespace Reading

open ScriptLint.Core (Word joined spaced Tame Letters Name Mark)

variable {p : Place} {s : State} {w : Word} {ws rest : List Word}

/-- The state is at a place in front of words. -/
structure State.At (s : State) (p : Place) (ws : List Word) : Prop where
  options : s.options = p.options
  size : s.size = p.size
  depth : s.depth = p.depth
  inExcluded : s.inExcluded = p.inExcluded
  clean : s.session.sink.Clean
  fronts : s.lookahead.Fronts p.size ws
  tame : Tame (joined ws)

/-- The state has a token in front of it, behind which words come. -/
structure State.Behind (s : State) (p : Place) (ws : List Word) : Prop where
  options : s.options = p.options
  size : s.size = p.size
  depth : s.depth = p.depth
  inExcluded : s.inExcluded = p.inExcluded
  clean : s.session.sink.Clean
  issues : s.lookahead.issues = []
  rest : s.lookahead.stop.rest = spaced ws
  within : s.lookahead.stop.Within p.size
  tame : Tame (joined ws)

theorem tame_behind (h : Tame (joined (w :: ws))) : Tame (joined ws) := by
  refine h.of_suffix ?_
  cases ws with
  | nil => exact List.nil_suffix
  | cons next ws => exact ⟨w.text.toList ++ [' '], by simp [Core.joined_cons, Core.spaced_cons]⟩

theorem State.At.behind (h : s.At p (w :: ws)) (hw : w.isWhole) : s.Behind p ws := by
  obtain ⟨c, hc, hsize, hnext⟩ := h.fronts
  obtain ⟨stop, htoken, hreads, hrest⟩ := Core.next_whole hw hc
  rw [htoken] at hnext
  exact ⟨h.options, h.size, h.depth, h.inExcluded, h.clean, by rw [hnext]; rfl,
    by rw [hnext]; exact hrest, by rw [hnext]; exact hsize.of_reads hreads, tame_behind h.tame⟩

theorem State.Behind.fronts (h : s.Behind p ws) :
    (Token.next s.lookahead.stop).Fronts p.size ws := by
  obtain ⟨d, hd, ⟨cs, hreads⟩, hnext⟩ := Core.exists_joined_of_spaced h.rest
  exact ⟨d, hd, h.within.of_reads hreads, hnext⟩

theorem State.Behind.advance (h : s.Behind p ws) :
    advance.run.run s = (.ok (), s.shift) ∧ s.shift.At p ws :=
  ⟨run_advance h.issues h.fronts.silent.1 h.fronts.silent.2, h.options, h.size, h.depth,
    h.inExcluded, h.clean, h.fronts, h.tame⟩

/-! ## Reading on -/

/-- There is an answer in front of words for which, together, something holds, or reading is out of
fuel. -/
def Gets (p : Place) (post : α → List Word → Prop) : Except Stop α × State → Prop
  | (.ok a, s) => ∃ rest, post a rest ∧ s.At p rest
  | (.error .outOfFuel, _) => True
  | (.error (.halted _), _) => False

/-- From in front of words the step gets in front of other words at the same place. -/
def Parses (p : Place) (ws : List Word) (step : Reading α) (post : α → List Word → Prop) : Prop :=
  ∀ s : State, s.At p ws → Gets p post (step.run.run s)

/-- The step gets in front of certain words with an answer of a kind. -/
abbrev ParsesTo (p : Place) (ws : List Word) (step : Reading α) (rest : List Word)
    (post : α → Prop := fun _ => True) : Prop :=
  Parses p ws step fun a left => left = rest ∧ post a

/-- A round that goes on keeps something, and the last one gives something. -/
def Round.Keeps (inv : σ → List Word → Prop) (post : α → List Word → Prop) :
    Round σ α → List Word → Prop
  | .again state => inv state
  | .done a => post a

namespace Parses

variable {post : α → List Word → Prop} {step : Reading α}

theorem pure {a : α} (h : post a ws) : Parses p ws (Pure.pure a) post :=
  fun _ hs => ⟨ws, h, hs⟩

theorem mono {post' : α → List Word → Prop} (h : Parses p ws step post)
    (hpost : ∀ a rest, post a rest → post' a rest) : Parses p ws step post' := by
  intro s hs
  have hstep := h s hs
  rcases hrun : step.run.run s with ⟨(reason | _) | a, s'⟩ <;> rw [hrun] at hstep
  · exact hstep
  · trivial
  · obtain ⟨rest, hrest, hs'⟩ := hstep
    exact ⟨rest, hpost a rest hrest, hs'⟩

theorem bind {first : Reading β} {next : β → Reading α} {mid : β → List Word → Prop}
    (hfirst : Parses p ws first mid) (hnext : ∀ b rest, mid b rest → Parses p rest (next b) post) :
    Parses p ws (first >>= next) post := by
  intro s hs
  have hstep := hfirst s hs
  rw [run_bind]
  rcases hrun : first.run.run s with ⟨(reason | _) | b, s'⟩ <;> rw [hrun] at hstep
  · exact hstep
  · trivial
  · obtain ⟨rest, hrest, hs'⟩ := hstep
    exact hnext b rest hrest s' hs'

/-- After a step that gets in front of certain words. -/
theorem after {first : Reading β} {next : β → Reading α} {mid : β → Prop}
    (hfirst : ParsesTo p ws first rest mid) (hnext : ∀ b, mid b → Parses p rest (next b) post) :
    Parses p ws (first >>= next) post := by
  refine hfirst.bind fun b left hleft => ?_
  obtain ⟨rfl, hb⟩ := hleft
  exact hnext b hb

theorem harmless [hstep : Harmless step] (h : ∀ a, post a ws) : Parses p ws step post := by
  intro s hs
  obtain ⟨a, session, hrun, hclean⟩ := hstep.run s hs.clean
  rw [hrun]
  exact ⟨ws, h a, hs.options, hs.size, hs.depth, hs.inExcluded, hclean, hs.fronts, hs.tame⟩

/-- After a step that stays where it is. -/
theorem skip {first : Reading β} {next : β → Reading α} [Harmless first]
    (hnext : ∀ b, Parses p ws (next b) post) : Parses p ws (first >>= next) post := by
  have hfirst : ParsesTo p ws first ws := .harmless fun _ => ⟨rfl, trivial⟩
  exact hfirst.after fun b _ => hnext b

theorem ite {c : Prop} [Decidable c] {first second : Reading α}
    (hfirst : c → Parses p ws first post) (hsecond : ¬ c → Parses p ws second post) :
    Parses p ws (if c then first else second) post := by
  split
  next hc => exact hfirst hc
  next hc => exact hsecond hc

/-- After a remark that is made or not. -/
theorem remark {c : Prop} [Decidable c] {first : Reading PUnit} {next : PUnit → Reading α}
    [Harmless first] (hnext : Parses p ws (next ⟨⟩) post) :
    Parses p ws (if c then first >>= next else next ⟨⟩) post :=
  .ite (fun _ => .skip fun _ => hnext) fun _ => hnext

/-- What is known of the next token. -/
theorem token {next : Token → Reading α}
    (hnext : ∀ t, t.Fronts p.size ws → Parses p ws (next t) post) :
    Parses p ws (Reading.token >>= next) post :=
  fun s hs => hnext s.lookahead hs.fronts s hs

/-- What is known of the state. -/
theorem state {next : State → Reading α} (hnext : ∀ s, s.At p ws → Parses p ws (next s) post) :
    Parses p ws (get >>= next) post :=
  fun s hs => hnext s hs s hs

theorem atPunctuator {mark : String} {next : Bool → Reading α}
    (hnext : Parses p (w :: ws) (next (w.token.isPunctuator mark)) post) :
    Parses p (w :: ws) (Reading.atPunctuator mark >>= next) post := by
  intro s hs
  have hstep := hnext s hs
  rw [← hs.fronts.begins.isPunctuator_eq] at hstep
  exact hstep

theorem atKeyword {word : String} {next : Bool → Reading α}
    (hnext : Parses p (w :: ws) (next (w.token.isKeyword word)) post) :
    Parses p (w :: ws) (Reading.atKeyword word >>= next) post := by
  intro s hs
  have hstep := hnext s hs
  rw [← hs.fronts.begins.isKeyword_eq] at hstep
  exact hstep

theorem peek {next : Token → Reading α} (hw : w.isWhole)
    (hnext : ∀ t, t.Fronts p.size ws → Parses p (w :: ws) (next t) post) :
    Parses p (w :: ws) (Reading.peek >>= next) post :=
  fun s hs => hnext (Token.next s.lookahead.stop) (hs.behind hw).fronts s hs

theorem advance (hw : w.isWhole) : ParsesTo p (w :: ws) Reading.advance ws := by
  intro s hs
  obtain ⟨hrun, hs'⟩ := (hs.behind hw).advance
  rw [hrun]
  exact ⟨ws, ⟨rfl, trivial⟩, hs'⟩

/-! ### Levels and brackets -/

/-- Once a step is over, a change leads back to the place. -/
theorem leave {q : Place} {change : State → State}
    (hchange : ∀ s rest, s.At q rest → (change s).At p rest) {s : State}
    (h : Gets q post (step.run.run s)) :
    Gets p post ((do let a ← step; modify change; Pure.pure a : Reading α).run.run s) := by
  rw [run_bind]
  rcases hrun : step.run.run s with ⟨(reason | _) | a, s'⟩ <;> rw [hrun] at h
  · exact h
  · trivial
  · obtain ⟨rest, hrest, hs'⟩ := h
    exact ⟨rest, hrest, hchange s' rest hs'⟩

theorem nested (hdepth : p.depth < p.options.maxDepth) (h : Parses p.deeper ws step post) :
    Parses p ws (nested step) post := by
  intro s hs
  let s' : State := { s with depth := s.depth + 1 }
  have hs' : s'.At p.deeper ws :=
    ⟨hs.options, hs.size, congrArg (· + 1) hs.depth, hs.inExcluded, hs.clean, hs.fronts, hs.tame⟩
  have hfits : ¬ s'.options.maxDepth < s'.depth := by
    change ¬ s.options.maxDepth < s.depth + 1
    rw [hs.options, hs.depth]
    omega
  have hback : ∀ (s : State) (rest : List Word), s.At p.deeper rest →
      ({ s with depth := s.depth - 1 } : State).At p rest := fun s rest hs =>
    ⟨hs.options, hs.size, congrArg (· - 1) hs.depth, hs.inExcluded, hs.clean, hs.fronts, hs.tame⟩
  have hgo := leave hback (h s' hs')
  have hget : (get : Reading State).run.run s' = (.ok s', s') := rfl
  change Gets p post ((do
    let s ← get
    if s.options.maxDepth < s.depth then halt .tooDeep s.lookahead.position
    else do
      let a ← step
      modify fun s => { s with depth := s.depth - 1 }
      Pure.pure a : Reading α).run.run s')
  rw [run_bind, hget]
  dsimp only
  rwa [if_neg hfits]

theorem excluding (hs : s.At p ws) (inExcluded : Bool) :
    ({ s with inExcluded } : State).At (p.excluding inExcluded) ws :=
  ⟨hs.options, hs.size, hs.depth, rfl, hs.clean, hs.fronts, hs.tame⟩

/-- A step for which `in` is an operator, and behind which it is one or not as before. -/
theorem allowingIn (h : Parses (p.excluding false) ws step post) :
    Parses p ws (allowingIn step) post := by
  intro s hs
  have hback : ∀ (s' : State) (rest : List Word), s'.At (p.excluding false) rest →
      ({ s' with inExcluded := s.inExcluded } : State).At p rest := by
    intro s' rest hs'
    rw [hs.inExcluded]
    exact excluding hs' p.inExcluded
  exact leave hback (h _ (excluding hs false))

/-- A step for which `in` is no operator where it is one. -/
theorem excludingIn (hp : p.inExcluded = false) (h : Parses (p.excluding true) ws step post) :
    Parses p ws (excludingIn step) post := by
  intro s hs
  have hback : ∀ (s' : State) (rest : List Word), s'.At (p.excluding true) rest →
      ({ s' with inExcluded := false } : State).At p rest := by
    intro s' rest hs'
    rw [← hp]
    exact excluding hs' p.inExcluded
  exact leave hback (h _ (excluding hs true))

/-! ### Loops -/

/-- What holds before a round and is kept by rounds that go on leads to what the last one gives. -/
theorem repeatFrom {round : σ → Reading (Round σ α)} {state : σ} (inv : σ → List Word → Prop)
    (hround : ∀ state ws, inv state ws → Parses p ws (round state) (Round.Keeps inv post))
    (hinv : inv state ws) : Parses p ws (repeatFrom state round) post := by
  have hiterate : ∀ fuel state ws, inv state ws → Parses p ws (iterate round fuel state) post := by
    intro fuel
    induction fuel with
    | zero => exact fun _ _ _ s _ => trivial
    | succ fuel ih =>
        intro state ws hinv
        refine (hround state ws hinv).bind fun r rest hr => ?_
        cases r with
        | again state => exact ih state rest hr
        | done a => exact .pure hr
  exact fun s hs => hiterate _ state ws hinv s hs

theorem repeatWhile {round : Reading Bool} (inv done : List Word → Prop)
    (hround : ∀ ws, inv ws → Parses p ws round fun again => if again then inv else done)
    (hinv : inv ws) : Parses p ws (repeatWhile round) fun _ => done := by
  refine repeatFrom (fun _ => inv) (fun _ ws hws => ?_) hinv
  refine (hround ws hws).bind fun again rest hrest => ?_
  cases again with
  | true => exact .pure hrest
  | false => exact .pure hrest

/-! ### Single tokens -/

theorem expectPunctuator {mark : String} (hmark : w.token.isPunctuator mark) (hw : w.isWhole) :
    ParsesTo p (w :: ws) (expectPunctuator mark) ws := by
  refine .atPunctuator ?_
  rw [if_pos hmark]
  exact .advance hw

theorem acceptPunctuator {mark : String} {next : Bool → Reading α} (hw : w.isWhole)
    (htaken : w.token.isPunctuator mark → Parses p ws (next true) post)
    (hleft : w.token.isPunctuator mark = false → Parses p (w :: ws) (next false) post) :
    Parses p (w :: ws) (acceptPunctuator mark >>= next) post := by
  have haccept : Parses p (w :: ws) (Reading.acceptPunctuator mark) fun taken rest =>
      w.token.isPunctuator mark = taken ∧ rest = if taken then ws else w :: ws := by
    refine .atPunctuator (.ite (fun hmark => ?_) fun hmark => ?_)
    · exact (advance hw).after fun _ _ => .pure ⟨hmark, rfl⟩
    · exact .pure ⟨Bool.eq_false_iff.mpr hmark, rfl⟩
  refine haccept.bind fun taken rest htaken' => ?_
  obtain ⟨hmark, rfl⟩ := htaken'
  cases taken with
  | true => exact htaken hmark
  | false => exact hleft hmark

theorem semicolon : ParsesTo p (.mark .semicolon :: ws) semicolon ws := by
  refine .atPunctuator ?_
  exact .advance rfl

/-- Behind an item of a list comes a comma or what closes the list. -/
def EndsItem (closer : Mark) (ws : List Word) : Prop :=
  ∃ m rest, ws = .mark m :: rest ∧ (m = .comma ∨ m = closer)

/-- Items with commas between them, each of which can be read and does not begin with what closes
the list. -/
theorem commaList {closer : Mark} (hcloser : closer ∈ [Mark.closeParen, .closeBrace])
    {item : σ → Reading (Round σ σ)} {afterComma : σ → Position → Reading Unit}
    [∀ state position, Harmless (afterComma state position)] {items : List (List Word)}
    (hitems : ∀ words ∈ items, (∀ w ∈ words.head?, w.token.isPunctuator closer.text = false) ∧
      words ≠ [] ∧ ∀ state rest, EndsItem closer rest →
        Parses p (words ++ rest) (item state) fun r left => left = rest ∧ ∃ next, r = .again next)
    (state : σ) :
    ParsesTo p (Core.commaSeparated items ++ .mark closer :: ws)
      (commaList closer.text state item afterComma) (.mark closer :: ws) := by
  have hcloses : (Word.mark closer).token.isPunctuator closer.text ∧
      (Word.mark closer).token.isPunctuator "," = false := by
    simp only [List.mem_cons, List.not_mem_nil, or_false] at hcloser
    rcases hcloser with rfl | rfl <;> decide
  refine repeatFrom (fun _ left => ∃ items', items' ⊆ items ∧
    left = Core.commaSeparated items' ++ .mark closer :: ws) (fun state left hleft => ?_)
    ⟨items, List.Subset.refl _, rfl⟩
  obtain ⟨items', hsubset, rfl⟩ := hleft
  unfold commaRound
  cases items' with
  | nil =>
      refine .atPunctuator ?_
      rw [if_pos hcloses.1]
      exact .pure ⟨rfl, trivial⟩
  | cons words items' =>
      obtain ⟨hhead, hne, hitem⟩ := hitems words (hsubset List.mem_cons_self)
      let rest := items'.flatMap (.mark .comma :: ·) ++ .mark closer :: ws
      have hwords : Core.commaSeparated (words :: items') ++ .mark closer :: ws = words ++ rest :=
        List.append_assoc _ _ _
      have hends : EndsItem closer rest := by
        cases items' with
        | nil => exact ⟨closer, ws, rfl, .inr rfl⟩
        | cons next items' => exact ⟨.comma, _, rfl, .inl rfl⟩
      obtain ⟨w, words', rfl⟩ := List.exists_cons_of_ne_nil hne
      rw [hwords]
      refine .atPunctuator ?_
      rw [hhead w rfl]
      refine (hitem state rest hends).bind fun r left hleft => ?_
      obtain ⟨rfl, next, rfl⟩ := hleft
      cases items' with
      | nil =>
          refine .atPunctuator ?_
          rw [hcloses.2]
          exact .pure ⟨rfl, trivial⟩
      | cons words' items' =>
          refine .atPunctuator ?_
          refine .skip fun t => (advance rfl).after fun _ _ => .skip fun _ => .pure ?_
          exact ⟨words' :: items', fun _ hmem => hsubset (List.mem_cons_of_mem _ hmem), rfl⟩

/-- What follows the group that the next token opens is neither an assignment nor an arrow. -/
theorem tokenAfterGroup {next : Token → Reading α}
    (hnext : ∀ t, Core.IsNoTarget t → Parses p ws (next t) post) :
    Parses p ws (Reading.tokenAfterGroup >>= next) post := by
  intro s hs
  obtain ⟨c, hc, hsize, hlookahead⟩ := hs.fronts
  have hwithin : s.lookahead.stop.Within s.size := by
    rw [hlookahead, hs.size]
    exact (Token.Within.next hsize).stop
  have hsuffix : s.lookahead.stop.rest <:+ joined ws := by
    have hfollows := Core.suffix_of_follows (Token.next_follows c)
    rw [hlookahead, ← hc]
    exact hfollows.1.trans hfollows.2
  let scan : GroupScan := { groups := [.bracket], stop := s.lookahead.stop }
  obtain ⟨t, ht⟩ := Option.isSome_iff_exists.mp
    (GroupScan.run_isSome (s := scan) hwithin (Nat.lt_add_of_pos_right Nat.two_pos))
  rw [run_bind, run_tokenAfterGroup ht]
  exact hnext t (Tame.run (s := scan) (hs.tame.of_suffix hsuffix) ht) s hs

/-- A brace that is read again takes the rest of its piece of the template. -/
theorem piece {t : Letters} {more : Bool} {next : Token → Reading α}
    (hnext : ∀ u : Token, u.lexeme = .template (Core.piecePart false more) (some t.text) →
      Parses p ws (next u) post) :
    Parses p (.continuing t more :: ws) (do
      rescanTemplate
      let u ← Reading.token
      Reading.advance
      next u) post := by
  intro s hs
  obtain ⟨c, hc, hsize, hlookahead⟩ := hs.fronts
  obtain ⟨brace, stop, -, -, hpiece, hreads, hrest⟩ := Core.next_continuing hc
  let s' : State := { s with lookahead := s.lookahead.rescanTemplate }
  have htoken : s'.lookahead =
      Token.between (.template (Core.piecePart false more) (some t.text)) c stop {} [] := by
    rw [← hpiece, ← hlookahead]
  have hbehind : s'.Behind p ws :=
    ⟨hs.options, hs.size, hs.depth, hs.inExcluded, hs.clean, by rw [htoken]; rfl,
      by rw [htoken]; exact hrest, by rw [htoken]; exact hsize.of_reads hreads, tame_behind hs.tame⟩
  have hrescan : rescanTemplate.run.run s = (.ok (), s') := by
    have hfatal : s'.lookahead.fatalIssue? = none := by rw [Token.fatalIssue?, hbehind.issues]; rfl
    have hcheck : checkFatal.run.run s' = (.ok (), s') := by
      rw [checkFatal, run_bind, run_token]
      dsimp only
      rw [hfatal]
      rfl
    exact hcheck
  obtain ⟨hadvance, hs''⟩ := hbehind.advance
  rw [run_bind, hrescan]
  dsimp only
  rw [run_bind, run_token]
  dsimp only
  rw [run_bind, hadvance]
  exact hnext _ (by rw [htoken]; rfl) _ hs''

end Parses

end Reading

end ScriptLint

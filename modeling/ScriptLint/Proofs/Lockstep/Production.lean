import ScriptLint.Proofs.Lexing.Place
import ScriptLint.Proofs.Lockstep.Step
import ScriptLint.Proofs.Reading.Comment

/-! # Token flow and productions in lockstep

The steps below the productions, from one token to the next, and how they go together.
-/

set_option synthInstance.maxSize 65536

/-! ## Token flow in lockstep

Consuming a token reports its problems and applies the comments in front of the next one. Two runs
take the same tokens, so they come across the same comments, and what these are is known in advance
to be allowed: no comment is forgotten later.
-/

namespace ScriptLint.Reading

variable {α : Type} {p : Pairing} {c : Cursor}

/-! ### Tokens behind a cursor -/

namespace GroupScan

variable {s s' : GroupScan}

theorem behind_taken (hs : c.Reaches s.stop) : s.taken.Behind c := by
  have hnext := (Token.next_behind s.stop).of_reaches hs
  rw [taken_eq]
  split
  · exact hnext.rescanRegexp
  · exact hnext

theorem behind_of_run {fuel : Nat} {t : Token} (hs : c.Reaches s.stop)
    (hrun : s.run fuel = some t) : t.Behind c := by
  induction fuel generalizing s with
  | zero => cases hrun
  | succ fuel ih =>
      have htaken := behind_taken hs
      unfold run at hrun
      cases hstep : s.step with
      | inr t' =>
          rw [hstep] at hrun
          cases hrun
          rcases step_end hstep with rfl | rfl
          · exact htaken
          · exact (Token.next_behind _).of_reaches htaken.stop
      | inl s' =>
          rw [hstep] at hrun
          refine ih ?_ hrun
          rcases step_stop hstep with ⟨-, hstop⟩ | ⟨-, hstop⟩
          · exact hstop ▸ htaken.stop
          · exact hstop ▸ htaken.rescanTemplate.stop

end GroupScan

namespace Lockstep

/-! ### Looking past a group -/

theorem tokenAfterGroupFrom {d : Cursor} (hd : p.start.Reaches d) :
    Lockstep p (tokenAfterGroupFrom d) := by
  refine .observe (fun h => by rw [h.size]) fun s _ => ?_
  dsimp only
  split
  next t hrun =>
    have : Behind p.start t := ⟨GroupScan.behind_of_run hd hrun⟩
    infer_instance
  next => exact .outOfFuel

instance : Lockstep p tokenAfterGroup :=
  .bind inferInstance fun t => tokenAfterGroupFrom t.2.stop

instance : Lockstep p tokenAfterNextGroup :=
  .bind inferInstance fun t => tokenAfterGroupFrom t.2.stop

/-! ### Consuming tokens -/

/-- Another reading of the next token, with the same comments in front of it. -/
theorem relook (change : Token → Token) (hdirectives : ∀ t, (change t).directives = t.directives)
    (hbehind : ∀ t : Token, t.Behind p.start → (change t).Behind p.start) :
    Lockstep p (modify fun s => { s with lookahead := change s.lookahead } : Reading Unit) where
  proceeds {s} hs := by
    refine ⟨fun d hmem => ?_, ⟨hbehind _ hs.lookahead, hs.consumed⟩, fun _ _ => trivial⟩
    change d ∈ (change s.lookahead :: s.consumed).flatMap Token.directives
    rw [List.flatMap_cons, hdirectives]
    exact hmem
  run {s s'} h _ :=
    ⟨rfl, h.options, h.session, ⟨hbehind _ h.within.lookahead, h.within.consumed⟩, h.consumed,
      congrArg change h.lookahead, h.depth, h.inExcluded, h.exports, h.size⟩

/-- Taking the next token, without what comes with it. -/
def takeToken : Reading Token := do
  let t ← Reading.token
  modify fun s => { s with consumed := t :: s.consumed, lookahead := Token.next t.stop }
  pure t

instance : Lockstep p takeToken where
  proceeds {s} hs := by
    refine ⟨fun d hmem => ?_, ⟨?_, fun t hmem => ?_⟩, ?_⟩
    · change d ∈ (_ :: s.lookahead :: s.consumed).flatMap Token.directives
      rw [List.flatMap_cons]
      exact List.mem_append_right _ hmem
    · exact (Token.next_behind _).of_reaches hs.lookahead.stop
    · rcases List.mem_cons.mp hmem with rfl | hmem
      · exact hs.lookahead
      · exact hs.consumed t hmem
    · rintro _ ⟨⟩
      exact hs.lookahead
  run {s s'} h _ := by
    refine ⟨congrArg Except.ok h.lookahead, h.options, h.session, ⟨?_, fun t hmem => ?_⟩, ?_, ?_,
      h.depth, h.inExcluded, h.exports, h.size⟩
    · exact (Token.next_behind _).of_reaches h.within.lookahead.stop
    · rcases List.mem_cons.mp hmem with rfl | hmem
      · exact h.within.lookahead
      · exact h.within.consumed t hmem
    · change s'.lookahead :: s'.consumed = s.lookahead :: s.consumed
      rw [h.lookahead, h.consumed]
    · change Token.next s'.lookahead.stop = Token.next s.lookahead.stop
      rw [h.lookahead]

variable [hp : p.Lawful]

instance : Lockstep p checkFatal := by
  unfold checkFatal
  refine .bind inferInstance fun t => ?_
  split
  next => infer_instance
  next issue hfind =>
    have hfound : issue.Found LexicalIssue.kinds p.start :=
      t.2.issues issue (List.mem_of_find?_eq_some hfind)
    have := listed_of_fatal hfound (List.find?_some hfind)
    have : Behind p.start issue.position := ⟨hfound.position⟩
    infer_instance

/-- The comments in front of the next token are among those that a run comes across, so they are
allowed. -/
instance acceptLookahead : Lockstep p acceptLookahead := by
  have hproceeds {s : State} (hs : s.Within p.start) :
      Proceeds p.start s (Reading.acceptLookahead.run.run s) := by
    have happlies : Applies (fun _ => True) (s.lookahead.directives.forM applyDirective) :=
      .forM fun d _ => .applyDirective fun _ _ => trivial
    have hstays : Proceeds p.start s ((s.lookahead.directives.forM applyDirective).run.run s) :=
      .of_same hs (happlies.stays s).lookahead (happlies.stays s).consumed fun _ _ => trivial
    have hfatal : Lockstep p checkFatal := inferInstance
    exact hstays.bind fun _ => hfatal.proceeds
  refine ⟨hproceeds, fun {s s'} h hallowed => ?_⟩
  have hdirectives (d : Directive) (hmem : d ∈ s.lookahead.directives) : p.allows d :=
    hallowed d ((hproceeds h.within).comments (List.mem_append_left _ hmem))
  have hstep : Lockstep p (s.lookahead.directives.forM applyDirective >>= fun _ => checkFatal) :=
    .bind (.forM_of_mem fun d hmem =>
      hp.directive d (hdirectives d hmem) (h.within.lookahead.directives d hmem)) fun _ => inferInstance
  change p.Agree _ ((s'.lookahead.directives.forM applyDirective >>= fun _ => checkFatal).run.run s')
  rw [h.lookahead]
  exact hstep.run h hallowed

instance : Lockstep p advance := by
  have hissues (t : Places Token p.start) : Lockstep p (Reading.reportIssues t.1.issues) :=
    Lockstep.reportIssues t.2.issues
  have htake : Lockstep p (takeToken >>= fun t =>
      Reading.reportIssues t.issues >>= fun _ => Reading.acceptLookahead) := inferInstance
  exact .congr (fun _ => rfl) htake

/-! ### Other readings of the next token -/

instance : Lockstep p rescanRegexp := by
  refine .congr (fun s => ?_) (relook (fun t => if isSlash t then t.rescanRegexp else t)
    (fun t => ?_) fun t ht => ?_)
  · change (if isSlash s.lookahead then replaceLookahead s.lookahead.rescanRegexp
      else pure ()).run.run s = (.ok (), { s with lookahead := if _ then _ else _ })
    split <;> rfl
  · split <;> rfl
  · split
    · exact ht.rescanRegexp
    · exact ht

instance : Lockstep p rescanTemplate := by
  have hrelook := relook (p := p) Token.rescanTemplate (fun _ => rfl)
    fun _ ht => ht.rescanTemplate
  have hrescan : Lockstep p ((modify fun s => { s with lookahead := s.lookahead.rescanTemplate })
      >>= fun _ => checkFatal) := inferInstance
  exact .congr (fun _ => rfl) hrescan

end Lockstep

end ScriptLint.Reading

/-! ## Places in what reading gives

The summaries of names, patterns, parameters and expressions carry places, for reports that are made
later on.
-/

namespace ScriptLint.Reading

variable {α β : Type} {c : Cursor}

/-! ### General values -/

section

variable [HasPlaces α] [HasPlaces β]

instance {q : Prop} [Decidable q] (a b : α) [ha : Behind c a] [hb : Behind c b] :
    Behind c (if q then a else b) := by
  split
  · exact ha
  · exact hb

instance (as : List α) (f : α → β) [has : Behind c as] [hf : ∀ a : Places α c, Behind c (f a.1)] :
    Behind c (as.map f) where
  behind b hmem := by
    obtain ⟨a, ha, rfl⟩ := List.mem_map.mp hmem
    exact (hf ⟨a, has.behind a ha⟩).behind

instance (a? : Option α) (f : α → β) [ha : Behind c a?] [hf : ∀ a : Places α c, Behind c (f a.1)] :
    Behind c (a?.map f) where
  behind b hmem := by
    obtain ⟨a, ha?, rfl⟩ := Option.map_eq_some_iff.mp hmem
    exact (hf ⟨a, ha.behind a ha?⟩).behind

end

instance (a? : Option α) : @Behind (Option α) (@instHasPlacesOption α noPlaces) c a? :=
  ⟨fun _ _ => trivial⟩

instance (as : List α) : @Behind (List α) (@instHasPlacesList α noPlaces) c as :=
  ⟨fun _ _ => trivial⟩

/-! ### Summaries -/

instance : HasPlaces BoundName := ⟨fun c b => c.Passes b.position⟩

instance (name : String) (position : Position) [h : Behind c position] :
    Behind c (⟨name, position⟩ : BoundName) := ⟨h.behind⟩

instance (b : BoundName) [h : Behind c b] : Behind c b.position := ⟨h.behind⟩

instance : HasPlaces Expression := ⟨fun c e => c.Passes e.position⟩

instance (kind : ExpressionKind) (position : Position) (parenthesized : Bool)
    [h : Behind c position] : Behind c (⟨kind, position, parenthesized⟩ : Expression) := ⟨h.behind⟩

instance (e : Expression) [h : Behind c e] : Behind c e.position := ⟨h.behind⟩

instance : HasPlaces BindingTarget := ⟨fun c target => HasPlaces.Behind c target.names⟩

instance (names : List BoundName) (plain : Bool) [h : Behind c names] :
    Behind c (⟨names, plain⟩ : BindingTarget) := ⟨h.behind⟩

instance (target : BindingTarget) [h : Behind c target] : Behind c target.names := ⟨h.behind⟩

instance : HasPlaces Declarations := ⟨fun c ds => HasPlaces.Behind c ds.names⟩

instance (names : List BoundName) (count : Nat) (initialized : Bool) [h : Behind c names] :
    Behind c (⟨names, count, initialized⟩ : Declarations) := ⟨h.behind⟩

instance (ds : Declarations) [h : Behind c ds] : Behind c ds.names := ⟨h.behind⟩

instance : HasPlaces Parameter := ⟨fun c p => HasPlaces.Behind c p.bound⟩

instance (bound : BoundName) (defaultEnd? : Option Nat) [h : Behind c bound] :
    Behind c (⟨bound, defaultEnd?⟩ : Parameter) := ⟨h.behind⟩

instance (p : Parameter) [h : Behind c p] : Behind c p.bound := ⟨h.behind⟩

instance : HasPlaces Parameters := ⟨fun c ps => HasPlaces.Behind c ps.names⟩

instance (names : List Parameter) (count : Nat) (simple seenDefault afterRest : Bool)
    [h : Behind c names] : Behind c (⟨names, count, simple, seenDefault, afterRest⟩ : Parameters) :=
  ⟨h.behind⟩

instance (ps : Parameters) [h : Behind c ps] : Behind c ps.names := ⟨h.behind⟩

instance : HasPlaces PatternScan := ⟨fun c s => HasPlaces.Behind c s.names⟩

instance (names : List BoundName) (isEmpty afterRest : Bool) [h : Behind c names] :
    Behind c (⟨names, isEmpty, afterRest⟩ : PatternScan) := ⟨h.behind⟩

instance (s : PatternScan) [h : Behind c s] : Behind c s.names := ⟨h.behind⟩

instance : HasPlaces KeyTable := ⟨fun c keys => HasPlaces.Behind c keys.setters⟩

instance (uses : List (String × KeyUse)) (setters : List BoundName) [h : Behind c setters] :
    Behind c (⟨uses, setters⟩ : KeyTable) := ⟨h.behind⟩

instance (keys : KeyTable) (key : String) (use : KeyUse) [h : Behind c keys] :
    Behind c (keys.put key use) := ⟨h.behind⟩

instance (keys : KeyTable) (key : String) (position : Position) [h : Behind c keys]
    [hposition : Behind c position] : Behind c (keys.addSetter key position) where
  behind b hmem := by
    rcases List.mem_cons.mp hmem with rfl | hmem
    · exact hposition.behind
    · exact h.behind b hmem

instance (keys : KeyTable) [h : Behind c keys] : Behind c keys.lonelySetters where
  behind b hmem := h.behind b (List.mem_reverse.mp (List.mem_of_mem_filter hmem))

instance : HasPlaces ExportItem := ⟨fun c item => c.Passes item.position⟩

instance (variableName : String) (position : Position) (exportedName : String)
    [h : Behind c position] : Behind c (⟨variableName, position, exportedName⟩ : ExportItem) :=
  ⟨h.behind⟩

instance (item : ExportItem) [h : Behind c item] : Behind c item.position := ⟨h.behind⟩

instance : HasPlaces LoopHead where
  Behind c
    | .empty => True
    | .declarations _ ds => HasPlaces.Behind c ds
    | .expression e => HasPlaces.Behind c e

instance : Behind c LoopHead.empty := ⟨trivial⟩

instance (kind : Scope.BindingKind) (ds : Declarations) [h : Behind c ds] :
    Behind c (LoopHead.declarations kind ds) := ⟨h.behind⟩

instance (e : Expression) [h : Behind c e] : Behind c (LoopHead.expression e) := ⟨h.behind⟩

end ScriptLint.Reading

/-! ## Expected tokens and lists in lockstep

Steps that want a certain token, and what the constructs that are written over the table of
productions have in common.
-/

namespace ScriptLint.Reading

variable {p : Pairing} [hp : p.Lawful]

namespace Lockstep

/-! ### Expected tokens -/

instance {α : Type} [HasPlaces α] : Lockstep p (earlyEnd : Reading α) := by
  unfold earlyEnd
  infer_instance

instance (shown : String) (position : Position) [Behind p.start position] :
    Lockstep p (reportUnexpected shown position) :=
  .report "E024" position [shown] (by decide)

instance (position : Position) [Behind p.start position] :
    Lockstep p (reportIssue (.invalidRegexp position)) :=
  .report "E016" position [] (by decide)

instance (wanted : String) (t : Token) [Behind p.start t] : Lockstep p (reportInstead wanted t) := by
  unfold reportInstead
  infer_instance

instance (t : Token) [Behind p.start t] : Lockstep p (reportNoName t) := by
  unfold reportNoName
  infer_instance

instance (wanted : String) : Lockstep p (unexpectedInstead wanted) := by
  unfold unexpectedInstead
  infer_instance

instance (q : String) : Lockstep p (expectPunctuator q) := by
  unfold expectPunctuator
  infer_instance

instance (word : String) : Lockstep p (expectKeyword word) := by
  unfold expectKeyword
  infer_instance

instance (word : String) : Lockstep p (expectWord word) := by
  unfold expectWord
  infer_instance

instance (q : String) : Lockstep p (acceptPunctuator q) := by
  unfold acceptPunctuator
  infer_instance

/-- A missing semicolon is a fault or a matter of taste. -/
instance (afterDo : Bool) : Lockstep p (endStatement afterDo) := by
  unfold endStatement
  refine .bind inferInstance fun semicolon => ?_
  split
  · infer_instance
  let fault (s : State) : Notice := ⟨"E058", s.previous.endPosition, [], by decide⟩
  let remark (s : State) : Notice := ⟨"W033", s.previous.endPosition, [], by decide⟩
  let sameLine (s : State) : Bool := !s.lookahead.flags.newlineBefore && !s.lookahead.isEnd
  let blockEnds (s : State) : Bool := s.lookahead.isPunctuator "\x7d"
  let wrong (s : State) (o : Options) : Bool :=
    sameLine s && !blockEnds s && !(afterDo && o.edition.isModern)
  let careless (s : State) (o : Options) : Bool :=
    !o.asi && !(blockEnds s && sameLine s && o.lastsemic)
  refine .note (fun s o => if wrong s o then some (fault s)
    else if careless s o then some (remark s) else none) (fun h => ?_) (fun {s} hs => ?_) fun s => ?_
  · simp only [fault, remark, wrong, careless, sameLine, blockEnds, h.lookahead, h.previous]
  · have hposition : p.start.Passes s.previous.endPosition := hs.previous.stop.passes
    have hcode : "W033" ∈ Flag.asi.codes := by decide
    have hcareless (flag? : Option Flag) (o : Options) : careless s (o.relax flag?) =
        (careless s o && decide ("W033" ∉ Flag.spared flag?)) := by
      change (!(o.relax flag?).get .asi && !(_ && (o.relax flag?).lastsemic)) = _
      rw [Options.not_get_relax flag? o rfl hcode, Options.relax_lastsemic]
      exact Bool.and_right_comm _ _ _
    refine .ite (fun flag? o => ?_) (.const (n := fault s) Scope.Listed.mem hposition)
      (.of_flag (n := remark s) hcode hposition hcareless) (fun _ _ hn => ?_) fun _ _ hn => ?_
    · simp only [wrong, Options.relax_edition]
    · cases hn
      exact (by decide : "E058" ∉ editionCodes)
    · split at hn <;> cases hn
      exact (by decide : "W033" ∉ editionCodes)
  · change (if wrong s s.options then Reading.report "E058" s.previous.endPosition [] _
      else if careless s s.options then Reading.report "W033" s.previous.endPosition [] _
      else pure ()).run.run s = _
    split
    · rfl
    · split <;> rfl

instance : Lockstep p semicolon := by
  unfold semicolon
  infer_instance

/-! ### Names -/

instance : Lockstep p inGenerator := by
  unfold inGenerator
  exact .look (fun h => by rw [h.facts]) fun _ => inferInstance

instance : Lockstep p inAsync := by
  change Lockstep p (get >>= fun s : State => pure (if s.session.tracker.inFunction then
      s.session.tracker.functionFrame.facts.async
    else s.options.module && decide (Edition.es2022 ≤ s.options.edition)))
  refine .observe (fun h => ?_) fun _ _ => inferInstance
  rw [(hp.outline h.session).inFunction, (hp.outline h.session).facts, hp.module h.options]

/-- Whether a name is reserved, as far as the scopes and the options tell. -/
def reservedIn (name : String) (t : Scope.Tracker) (o : Options) : Bool :=
  match reservation name with
  | .always => true
  | .strict => t.isStrict ||
      (name == "yield" && (t.functionFrame.facts.generator && !t.functionFrame.facts.arrow))
  | .es3 => o.edition = .es3
  | .free => name == "await" && o.module

theorem run_isReserved (name : String) (s : State) :
    (isReserved name).run.run s = (.ok (reservedIn name s.session.tracker s.options), s) := by
  unfold isReserved reservedIn
  cases reservation name <;> rfl

/-- The report of a reserved name where another one is wanted. -/
theorem reserved {α : Type} [HasPlaces α] (name : String) (position : Position)
    [hposition : Behind p.start position] (asked : Bool) {next : Unit → Reading α}
    (hnext : ∀ u, Lockstep p (next u)) :
    Lockstep p (isReserved name >>= fun reserved =>
      if asked || reserved then reportReserved name position >>= next else next ()) := by
  refine .askThen ?_ hnext
  refine .underOptions (n := ⟨"W024", position, [name], by decide⟩) Scope.Listed.mem hposition.behind
    (fun s o => asked || reservedIn name s.session.tracker o) (fun {s s'} h => ?_) (fun s flag? o => ?_)
    fun s => ?_
  · have houtline := hp.outline h.session
    simp only [reservedIn, houtline.isStrict, houtline.facts]
  · simp only [reservedIn, Options.relax_edition, Options.relax_module]
  · rw [run_bind, run_isReserved, tell_ite]
    rfl

instance : Lockstep p bindingName := by
  unfold bindingName
  refine .bind inferInstance fun t => ?_
  split
  · exact .reserved t.1.name t.1.position (!t.1.isIdentifier) fun _ => inferInstance
  · infer_instance

instance (kind : Scope.BindingKind) (names : List BoundName) [Behind p.start names] :
    Lockstep p (declareAll kind names) := by
  unfold declareAll
  infer_instance

instance (name : String) (position : Position) (access : Scope.Access)
    [Behind p.start position] : Lockstep p (addReference name position access) := by
  unfold addReference
  refine .look (fun h => by rw [h.references]) fun _ => inferInstance

end Lockstep

/-! ### Productions -/

/-- A table of productions that are in lockstep. -/
class Productions.Lockstep (p : Pairing) (table : Productions) : Prop where
  expression (power : Nat) : Reading.Lockstep p (table.expression power)
  operand : Reading.Lockstep p table.operand
  statement (inList : Bool) : Reading.Lockstep p (table.statement inList)
  bindingTarget : Reading.Lockstep p table.bindingTarget
  assignmentPattern : Reading.Lockstep p table.assignmentPattern

attribute [instance] Productions.Lockstep.expression Productions.Lockstep.operand
  Productions.Lockstep.statement Productions.Lockstep.bindingTarget
  Productions.Lockstep.assignmentPattern

namespace Lockstep

variable (self : Productions) [hself : self.Lockstep p]

instance : Lockstep p self.anyExpression := hself.expression 0

instance : Lockstep p self.element := hself.expression Symbol.commaPower

section

variable {σ : Type} [HasPlaces σ]

instance (closer : String) (item : σ → Reading (Round σ σ)) (afterComma : σ → Position → Reading Unit)
    (state : σ) [Behind p.start state] [hitem : Lockstep p (item state)]
    [hafter : ∀ (state : Places σ p.start) (comma : Places Position p.start),
      Lockstep p (afterComma state.1 comma.1)] :
    Lockstep p (commaRound closer item afterComma state) := by
  unfold commaRound
  refine .bind inferInstance fun closes => ?_
  split
  · infer_instance
  · refine .bind inferInstance fun round => ?_
    rcases round with ⟨state | answer, hround⟩
    · have : Behind p.start state := ⟨hround⟩
      have (comma : Position) [hcomma : Behind p.start comma] : Lockstep p (afterComma state comma) :=
        hafter ⟨state, hround⟩ ⟨comma, hcomma.behind⟩
      dsimp only
      infer_instance
    · have : Behind p.start answer := ⟨hround⟩
      dsimp only
      infer_instance

instance (closer : String) (state : σ) (item : σ → Reading (Round σ σ))
    (afterComma : σ → Position → Reading Unit) [Behind p.start state]
    [∀ state : Places σ p.start, Lockstep p (item state.1)]
    [∀ (state : Places σ p.start) (comma : Places Position p.start),
      Lockstep p (afterComma state.1 comma.1)] :
    Lockstep p (commaList closer state item afterComma) := by
  unfold commaList
  infer_instance

instance (state : σ) (comma : Position) : Lockstep p (noTrailingCheck state comma) := by
  unfold noTrailingCheck
  infer_instance

end

instance (target : Expression) [Behind p.start target] (access : Scope.Access) :
    Lockstep p (assignmentTarget target access) := by
  unfold assignmentTarget
  split <;> infer_instance

end Lockstep

end ScriptLint.Reading

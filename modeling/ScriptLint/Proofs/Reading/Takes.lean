import ScriptLint.Proofs.Lockstep.Production
import ScriptLint.Proofs.Reading.Opening

/-! # Taking tokens

What a step does that takes certain tokens and has nothing but certain remarks to make. Only the
limit on diagnostics can cut it short. Whether a name is reserved stays the same, for no function is
entered or left and no option is changed on the way.
-/

namespace ScriptLint

/-- A report adds nothing but a diagnostic of its code, and it stops only a session with a limit. -/
theorem Sink.report_effect (code : String) (position : Position) (arguments : List String)
    (scope : String) (s : Sink) :
    (∃ s', s.report code position arguments scope = (.ok (), s') ∧ s'.limit = s.limit ∧
      ∀ d ∈ s'.accepted, d ∈ s.accepted ∨ d.code = code) ∨
    ∃ s', s.report code position arguments scope = (.error .tooManyErrors, s') ∧ 0 < s.limit ∧
      ∀ d ∈ s'.accepted, d ∈ s.accepted ∨ d.code = code := by
  have hpush : ∀ d ∈ s.accepted.push { code, arguments, position, scope },
      d ∈ s.accepted ∨ d.code = code := by
    intro d hmem
    rcases Array.mem_push.mp hmem with hmem | rfl
    · exact .inl hmem
    · exact .inr rfl
  unfold Sink.report
  dsimp only
  split
  · exact .inl ⟨s, rfl, rfl, fun _ => .inl⟩
  · split
    next hlimit =>
      refine .inr ⟨_, rfl, hlimit.1, ?_⟩
      unfold Sink.terminate
      split <;> exact hpush
    · exact .inl ⟨_, rfl, rfl, hpush⟩

end ScriptLint

namespace ScriptLint.Reading

variable {α β σ : Type} {codes : List String} {s s' s'' : State} {ts ts' : List Token}
variable {next : Token}

/-- Whether a name is reserved at a place. -/
def State.reserves (s : State) (name : String) : Bool :=
  Lockstep.reservedIn name s.session.tracker s.options

/-- From the first state to the second one the tokens were taken, `next` comes next, and only
diagnostics of the given codes were added. -/
structure State.Takes (codes : List String) (s : State) (ts : List Token) (next : Token)
    (s' : State) : Prop where
  frame : ∃ session, s' =
    { s with consumed := ts.reverse ++ s.consumed, lookahead := next, session }
  added : ∀ d ∈ s'.session.sink.accepted, d ∈ s.session.sink.accepted ∨ d.code ∈ codes
  limit : s'.session.sink.limit = s.session.sink.limit
  strict : s'.session.tracker.isStrict = s.session.tracker.isStrict
  facts : s'.session.tracker.functionFrame.facts = s.session.tracker.functionFrame.facts

namespace State.Takes

theorem lookahead (h : s.Takes codes ts next s') : s'.lookahead = next := by
  obtain ⟨_, rfl⟩ := h.frame
  rfl

theorem options (h : s.Takes codes ts next s') : s'.options = s.options := by
  obtain ⟨_, rfl⟩ := h.frame
  rfl

theorem depth (h : s.Takes codes ts next s') : s'.depth = s.depth := by
  obtain ⟨_, rfl⟩ := h.frame
  rfl

theorem inExcluded (h : s.Takes codes ts next s') : s'.inExcluded = s.inExcluded := by
  obtain ⟨_, rfl⟩ := h.frame
  rfl

theorem size (h : s.Takes codes ts next s') : s'.size = s.size := by
  obtain ⟨_, rfl⟩ := h.frame
  rfl

/-- No name becomes reserved or free. -/
theorem reserves (h : s.Takes codes ts next s') : s'.reserves = s.reserves := by
  funext name
  simp only [State.reserves, Lockstep.reservedIn, h.strict, h.facts, h.options]

theorem refl (s : State) : s.Takes codes [] s.lookahead s :=
  ⟨⟨s.session, rfl⟩, fun _ => .inl, rfl, rfl, rfl⟩

theorem trans {next' : Token} (h : s.Takes codes ts next s') (h' : s'.Takes codes ts' next' s'') :
    s.Takes codes (ts ++ ts') next' s'' where
  frame := by
    obtain ⟨_, rfl⟩ := h.frame
    obtain ⟨session, rfl⟩ := h'.frame
    exact ⟨session, by simp⟩
  added d hmem := (h'.added d hmem).elim (h.added d) .inr
  limit := h'.limit.trans h.limit
  strict := h'.strict.trans h.strict
  facts := h'.facts.trans h.facts

end State.Takes

/-- The step takes the tokens up to `next` and gives an answer of a kind. It stops only if one of
its remarks reaches the limit on diagnostics. -/
def Goes (codes : List String) (s : State) (ts : List Token) (next : Token) (step : Reading α)
    (post : α → Prop) : Prop :=
  match step.run.run s with
  | (.ok a, s') => s.Takes codes ts next s' ∧ post a
  | (.error stop, s') => stop = .halted .tooManyErrors ∧ 0 < s.session.sink.limit ∧
      ∀ d ∈ s'.session.sink.accepted,
        d ∈ s.session.sink.accepted ∨ d.code ∈ codes

namespace Goes

variable {step : Reading α} {post : α → Prop}

theorem of_run {a : α} (hrun : step.run.run s = (.ok a, s')) (htakes : s.Takes codes ts next s')
    (hpost : post a) : Goes codes s ts next step post := by
  rw [Goes, hrun]
  exact ⟨htakes, hpost⟩

theorem pure {a : α} (hpost : post a) : Goes codes s [] s.lookahead (Pure.pure a) post :=
  of_run rfl (.refl s) hpost

theorem mono {post' : α → Prop} (h : Goes codes s ts next step post)
    (himp : ∀ a, post a → post' a) : Goes codes s ts next step post' := by
  unfold Goes at h ⊢
  split at h
  · exact ⟨h.1, himp _ h.2⟩
  · exact h

theorem bind {first : Reading β} {rest : β → Reading α} {mid : β → Prop} {next' : Token}
    (hfirst : Goes codes s ts next first mid)
    (hrest : ∀ b s', s.Takes codes ts next s' → mid b → Goes codes s' ts' next' (rest b) post) :
    Goes codes s (ts ++ ts') next' (first >>= rest) post := by
  unfold Goes at hfirst ⊢
  rw [run_bind]
  rcases hrun : first.run.run s with ⟨stop | b, s'⟩ <;> rw [hrun] at hfirst
  · exact hfirst
  · obtain ⟨htakes, hb⟩ := hfirst
    have hafter := hrest b s' htakes hb
    unfold Goes at hafter
    dsimp only
    rcases hrun' : (rest b).run.run s' with ⟨stop | a, s''⟩ <;> rw [hrun'] at hafter
    · obtain ⟨hstop, hlimit, hadded⟩ := hafter
      exact ⟨hstop, htakes.limit ▸ hlimit, fun d hmem => (hadded d hmem).elim (htakes.added d) .inr⟩
    · exact ⟨htakes.trans hafter.1, hafter.2⟩

/-- A step in front of the others that takes nothing. -/
theorem after {first : Reading β} {rest : β → Reading α} {mid : β → Prop}
    (hfirst : Goes codes s [] s.lookahead first mid)
    (hrest : ∀ b s', s.Takes codes [] s.lookahead s' → mid b →
      Goes codes s' ts' next (rest b) post) :
    Goes codes s ts' next (first >>= rest) post := hfirst.bind hrest

/-- A step behind the others that takes nothing. -/
theorem before {first : Reading β} {rest : β → Reading α} {mid : β → Prop}
    (hfirst : Goes codes s ts next first mid)
    (hrest : ∀ b s', s.Takes codes ts next s' → mid b → Goes codes s' [] next (rest b) post) :
    Goes codes s ts next (first >>= rest) post := by
  simpa using hfirst.bind hrest

/-- A step that only looks. -/
theorem look {first : Reading β} {rest : β → Reading α} {b : β}
    (hrun : first.run.run s = (.ok b, s)) (hrest : Goes codes s ts next (rest b) post) :
    Goes codes s ts next (first >>= rest) post := by
  unfold Goes at hrest ⊢
  rwa [run_bind, hrun]

theorem token {rest : Token → Reading α} (hrest : Goes codes s ts next (rest s.lookahead) post) :
    Goes codes s ts next (Reading.token >>= rest) post := look rfl hrest

/-! ## Remarks -/

theorem report {code : String} (hcode : code ∈ codes) (position : Position)
    (arguments : List String) (hregular : Halt.IsRegular code) :
    Goes codes s [] s.lookahead (report code position arguments hregular) fun _ => True := by
  have hrun : (Reading.report code position arguments hregular).run.run s =
      (inScopes (Scope.Action.report code position arguments s.session.tracker.functionName
        hregular)).run.run s := rfl
  have hlisted (d : Diagnostic) (h : d.code = code) : d.code ∈ codes := h ▸ hcode
  unfold Goes
  rw [hrun, run_inScopes, Scope.Action.run_report]
  rcases s.session.sink.report_effect code position arguments s.session.tracker.functionName with
    ⟨sink, hsink, hlimit, hadded⟩ | ⟨sink, hsink, hlimit, hadded⟩ <;> rw [hsink]
  · exact
      ⟨⟨⟨_, rfl⟩, fun d hmem => (hadded d hmem).imp_right (hlisted d), hlimit, rfl, rfl⟩, trivial⟩
  · exact ⟨rfl, hlimit, fun d hmem => (hadded d hmem).imp_right (hlisted d)⟩

theorem requireEdition (hcode : "W119" ∈ codes) (feature : String) (since : Edition)
    (position : Position) :
    Goes codes s [] s.lookahead (requireEdition feature since position) fun _ => True := by
  refine look rfl ?_
  split
  · exact report hcode position _ _
  · exact pure trivial

/-- A remark that depends on a condition. -/
theorem when {c : Prop} [Decidable c] {remark : Reading Unit}
    (h : c → Goes codes s [] s.lookahead remark fun _ => True) :
    Goes codes s [] s.lookahead (if c then remark else Pure.pure ()) fun _ => True := by
  split
  next hc => exact h hc
  next => exact pure trivial

/-- A remark that depends on a condition, with steps after it. -/
theorem whenThen {c : Prop} [Decidable c] {remark : Reading PUnit} {rest : PUnit → Reading α}
    (h : c → Goes codes s [] s.lookahead remark fun _ => True)
    (hrest : ∀ u s', s.Takes codes [] s.lookahead s' → Goes codes s' ts next (rest u) post) :
    Goes codes s ts next (if c then remark >>= rest else rest ()) post := by
  split
  next hc => exact after (h hc) fun u s' hs' _ => hrest u s' hs'
  next => exact hrest () s (.refl s)

/-! ## Tokens and names -/

theorem reportIssues {issues : List LexicalIssue} (hissues : ∀ issue ∈ issues, issue.code ∈ codes) :
    Goes codes s [] s.lookahead (reportIssues issues) fun _ => True := by
  induction issues generalizing s with
  | nil => exact pure trivial
  | cons issue issues ih =>
      change Goes codes s [] s.lookahead (_ >>= fun _ => Reading.reportIssues issues) _
      refine after (?_ : Goes codes s [] s.lookahead _ fun _ => True) fun _ s' htakes _ => ?_
      · refine look rfl ?_
        split
        · exact report (hissues issue List.mem_cons_self) _ _ _
        · exact pure trivial
      · have hrest := ih (s := s') fun issue hmem => hissues issue (List.mem_cons_of_mem _ hmem)
        rwa [htakes.lookahead] at hrest

/-- The next token is taken where the codes allow for its issues and the token after it lets reading
go on. -/
theorem advance (hissues : ∀ issue ∈ s.lookahead.issues, issue.code ∈ codes)
    (hfatal : (Token.next s.lookahead.stop).fatalIssue? = none)
    (hdirectives : (Token.next s.lookahead.stop).directives = []) :
    Goes codes s [s.lookahead] (Token.next s.lookahead.stop) advance fun _ => True := by
  have hshift : Goes codes s [s.lookahead] s.shift.lookahead
      (modify fun s' => { s' with
        consumed := s.lookahead :: s'.consumed, lookahead := Token.next s.lookahead.stop })
      fun _ => True :=
    of_run rfl ⟨⟨s.session, rfl⟩, fun _ => .inl, rfl, rfl, rfl⟩ trivial
  refine token (hshift.before fun _ s₁ h₁ _ => ?_)
  rw [← h₁.lookahead]
  refine after (reportIssues hissues) fun _ s₂ h₂ _ => ?_
  rw [← h₂.lookahead]
  have hlookahead : s₂.lookahead = Token.next s.lookahead.stop := h₂.lookahead.trans h₁.lookahead
  refine of_run (a := ()) ?_ (.refl s₂) trivial
  rw [acceptLookahead, run_bind, run_token]
  dsimp only
  rw [hlookahead, hdirectives]
  change checkFatal.run.run s₂ = _
  rw [checkFatal, run_bind, run_token]
  dsimp only
  rw [hlookahead, hfatal]
  rfl

theorem addReference (name : String) (position : Position) (access : Scope.Access) :
    Goes codes s [] s.lookahead (addReference name position access) fun _ => True := by
  let t := s.session.tracker
  let r : Scope.Reference := { name, position, access, origin := t.currentId }
  let t' : Scope.Tracker := { t with references := t.references.push r }
  -- The reference waits in the current frame, whose strictness and function stay what they are.
  have houtline : t'.SameOutline (t.addReference name position access) :=
    .modifyFrame t' t.currentId fun _ => rfl
  have hids : t'.functionIds = t.functionIds := Scope.Tracker.upToFunction_congr fun _ _ => rfl
  have hstrict : t'.isStrict = t.isStrict := by
    rw [Scope.Tracker.isStrict, hids]
    rfl
  have hfacts : t'.functionFrame.facts = t.functionFrame.facts := by
    rw [Scope.Tracker.functionFrame, Scope.Tracker.functionId, hids]
    rfl
  exact of_run rfl ⟨⟨_, rfl⟩, fun _ => .inl, rfl, houtline.isStrict.trans hstrict,
    houtline.facts.trans hfacts⟩ trivial

/-! ## Levels and rounds -/

theorem nested (hdepth : s.depth < s.options.maxDepth)
    (h : Goes codes { s with depth := s.depth + 1 } ts next step post) :
    Goes codes s ts next (nested step) post := by
  unfold Goes at h ⊢
  rw [run_nested hdepth, run_bind]
  rcases hstep : step.run.run { s with depth := s.depth + 1 } with ⟨stop | a, s'⟩ <;>
    rw [hstep] at h
  · exact h
  · obtain ⟨⟨hframe, hadded, hlimit, hstrict, hfacts⟩, hpost⟩ := h
    obtain ⟨session, rfl⟩ := hframe
    exact ⟨⟨⟨session, rfl⟩, hadded, hlimit, hstrict, hfacts⟩, hpost⟩

end Goes

end ScriptLint.Reading

import ScriptLint.Proofs.Reading.Opening

/-! # Nesting too deep

Parentheses, array and object literals, substitutions of templates and blocks: where more of them
stand in one another than the options allow, the analysis ends in front of the one that is too much.
That is read off the openings alone. What is inside the innermost one makes no difference, and on
the way to it nothing else can end the analysis, as long as the number of reports has no limit.
-/

namespace ScriptLint.Reading

variable {α β σ : Type} {s : State}

/-! ## Ending too deep -/

/-- The step ends the analysis as too deep from there, unless the fuel runs out before. -/
def EndsTooDeep (step : Reading α) (s : State) : Prop :=
  (step.run.run s).1 = .error (.halted .tooDeep) ∨ (step.run.run s).1 = .error .outOfFuel

namespace EndsTooDeep

theorem bind {first : Reading α} {next : α → Reading β} (hfirst : EndsTooDeep first s) :
    EndsTooDeep (first >>= next) s := by
  unfold EndsTooDeep at *
  rw [run_bind]
  rcases hresult : first.run.run s with ⟨stop | a, s'⟩ <;> rw [hresult] at hfirst
  · exact hfirst.imp (fun h => congrArg _ (Except.error.inj h))
      fun h => congrArg _ (Except.error.inj h)
  · rcases hfirst with h | h <;> cases h

/-- What comes before may go on. -/
theorem after {first : Reading α} {next : α → Reading β} {a : α} {t : State}
    (hrun : first.run.run s = (.ok a, t)) (hnext : EndsTooDeep (next a) t) :
    EndsTooDeep (first >>= next) s := by
  unfold EndsTooDeep at *
  rw [run_bind, hrun]
  exact hnext

theorem nested {step : Reading α} (hstep : s.depth < s.options.maxDepth →
    EndsTooDeep step { s with depth := s.depth + 1 }) : EndsTooDeep (nested step) s := by
  refine .after (t := { s with depth := s.depth + 1 }) (a := ()) rfl (.after rfl ?_)
  dsimp only
  split
  · exact .inl rfl
  next hdepth => exact .bind (hstep (by omega))

theorem allowingIn {step : Reading α} (hstep : EndsTooDeep step (s.restrict false)) :
    EndsTooDeep (allowingIn step) s :=
  .after rfl (.after rfl (.bind hstep))

theorem repeatFrom {state : σ} {round : σ → Reading (Round σ α)}
    (hround : EndsTooDeep (round state) s) : EndsTooDeep (repeatFrom state round) s :=
  .after rfl (.bind hround)

theorem repeatWhile {round : Reading Bool} (hround : EndsTooDeep round s) :
    EndsTooDeep (repeatWhile round) s :=
  .repeatFrom (.bind hround)

end EndsTooDeep

/-- From the second state, which is in front of the text, every expression ends too deep, because it
is as deep as the first state and under the same options. -/
def DeepBehind (self : Productions) (s : State) (rest : List Char) : Prop :=
  ∀ s' : State, s'.Before rest → s'.depth = s.depth → s'.options = s.options →
    ∀ power, EndsTooDeep (self.expression power) s'

section Operands

variable {self : Productions} {rest : List Char}

theorem run_rescanRegexp (hslash : isSlash s.lookahead = false) :
    rescanRegexp.run.run s = (.ok (), s) := by
  rw [rescanRegexp, run_bind, run_token]
  dsimp only
  rw [hslash]
  rfl

theorem parenthesis_endsTooDeep (h : s.Before (Opening.parenthesis.text ++ rest))
    (hgroup : NoTarget rest) (hrest : Silent rest) (hdeep : DeepBehind self s rest) :
    EndsTooDeep (parenthesis self) s := by
  obtain ⟨t, hrun, -, ht⟩ := h.tokenAfterGroup (fun _ hc => Opening.parenthesis.plain hc) hgroup
  obtain ⟨hadvance, hnext⟩ := h.advance (fun _ hc => Opening.parenthesis.plain hc) hrest
  have hinside : EndsTooDeep (self.expression 0) (s.shift.restrict false) :=
    hdeep _ (hnext.restrict false) rfl rfl 0
  refine .after hrun ?_
  rw [ht]
  exact .after hadvance (.bind (.allowingIn hinside))

theorem patternOr_endsTooDeep {opening : Opening} {otherwise : Reading Expression}
    (h : s.Before (opening.text ++ rest)) (hgroup : NoTarget (opening.tail ++ rest))
    (hotherwise : EndsTooDeep otherwise s) : EndsTooDeep (patternOr self otherwise) s := by
  obtain ⟨t, hrun, ht, -⟩ := h.tokenAfterGroup (fun _ hc => opening.plain hc) hgroup
  refine .after hrun ?_
  rw [ht]
  exact hotherwise

theorem arrayElement_endsTooDeep {opening : Opening} (h : opening.Begins s.lookahead)
    (hinside : EndsTooDeep self.element s) : EndsTooDeep (arrayElement self) s := by
  have hspread : spread.run.run s = (.ok (), s) := by
    rw [spread, run_bind, run_token]
    dsimp only
    rw [h.isPunctuator_eq_false (by decide)]
    rfl
  refine .after (a := s.lookahead) rfl ?_
  rw [h.isPunctuator_eq_false (by decide), h.isPunctuator_eq_false (by decide)]
  exact .after hspread (.bind hinside)

theorem arrayLiteral_endsTooDeep {opening : Opening}
    (h : s.Before (Opening.array.text ++ (opening.text ++ rest)))
    (hdeep : DeepBehind self s (opening.text ++ rest)) : EndsTooDeep (arrayLiteral self) s := by
  obtain ⟨hadvance, hnext⟩ := h.advance (fun _ hc => Opening.array.plain hc) (opening.silent rest)
  have hinside : EndsTooDeep self.element (s.shift.restrict false) :=
    hdeep _ (hnext.restrict false) rfl rfl _
  refine .after rfl (.after hadvance (.bind (.allowingIn (.repeatWhile ?_))))
  exact arrayElement_endsTooDeep hnext.begins hinside

/-- The key of a property is no modifier of another one. -/
theorem run_modifiers {name : String} (hname : s.lookahead.lexeme = .identifier name)
    (hplain : ["get", "set", "async"].contains name = false) :
    modifiers.run.run s = (.ok {}, s) := by
  have hmodifier : modifierOf? s.lookahead = none := by
    simp_all [modifierOf?, Token.isName]
  have hword : modifierWord.run.run s = (.ok {}, s) := by
    rw [modifierWord, run_bind, run_token]
    dsimp only
    rw [hmodifier]
    rfl
  rw [modifiers, run_bind, hword]
  dsimp only
  rw [run_bind, run_token]
  dsimp only
  rw [show s.lookahead.isPunctuator "*" = false by simp [Token.isPunctuator, hname]]
  rfl

/-- A colon is accepted, and the value of the property comes next. -/
theorem propertyValue_endsTooDeep {opening : Opening} (h : s.Before (':' :: (opening.text ++ rest)))
    (hdeep : DeepBehind self s (opening.text ++ rest)) (first : Token) (key? : Option String) :
    EndsTooDeep (propertyValue self first {} key?) s := by
  have hcolon (c : Cursor) (hc : c.rest = ':' :: (opening.text ++ rest)) :=
    Token.plain_delimiter (by decide) hc
  obtain ⟨hlexeme, hraw⟩ := h.spelled hcolon
  obtain ⟨hadvance, hnext⟩ := h.advance hcolon (opening.silent rest)
  have haccept : (acceptPunctuator ":").run.run s = (.ok true, s.shift) := by
    have hat : (atPunctuator ":").run.run s = (.ok true, s) := by
      change (Except.ok (s.lookahead.isPunctuator ":"), s) = _
      rw [Token.isPunctuator, hlexeme, hraw]
      rfl
    rw [acceptPunctuator, run_bind, hat]
    dsimp only
    rw [if_pos rfl, run_bind, hadvance]
    rfl
  have hparenthesis : s.lookahead.isPunctuator "(" = false :=
    isPunctuator_eq_false_of_raw (by rw [hraw]; decide)
  refine .after (a := s.lookahead.isPunctuator "(") rfl ?_
  rw [hparenthesis]
  exact .after haccept (.bind (hdeep _ hnext rfl rfl _))

theorem objectProperty_endsTooDeep {opening : Opening}
    (h : s.Before ('a' :: ':' :: (opening.text ++ rest)))
    (hdeep : DeepBehind self s (opening.text ++ rest)) (keys : KeyTable) :
    EndsTooDeep (objectProperty self keys) s := by
  obtain ⟨hlexeme, hraw⟩ := h.spelled fun _ => Token.plain_key
  obtain ⟨hadvance, hnext⟩ := h.advance (fun _ => Token.plain_key)
    fun _ hc => ⟨_, _, _, Token.plain_delimiter (by decide) hc⟩
  have hkey : (propertyKey self).run.run s = (.ok (some s.lookahead.display), s.shift) := by
    rw [propertyKey, run_bind, run_token]
    dsimp only
    rw [hlexeme]
    dsimp only
    rw [run_bind, hadvance]
    rfl
  have hend : s.lookahead.isEnd = false := by simp [Token.isEnd, hlexeme]
  have hdots : s.lookahead.isPunctuator "..." = false :=
    isPunctuator_eq_false_of_raw (by rw [hraw]; decide)
  refine .after (a := s.lookahead) rfl ?_
  rw [hend, hdots]
  refine .after (run_modifiers hlexeme (by decide)) (.after hkey (.bind ?_))
  exact propertyValue_endsTooDeep hnext hdeep _ _

theorem objectLiteral_endsTooDeep {opening : Opening}
    (h : s.Before (Opening.object.text ++ (opening.text ++ rest)))
    (hdeep : DeepBehind self s (opening.text ++ rest)) : EndsTooDeep (objectLiteral self) s := by
  obtain ⟨hadvance, hnext⟩ := h.advance (fun _ hc => Opening.object.plain hc)
    fun _ hc => ⟨_, _, _, Token.plain_key hc⟩
  obtain ⟨-, hraw⟩ := hnext.spelled fun _ => Token.plain_key
  have hproperty : EndsTooDeep (objectProperty self {}) (s.shift.restrict false) :=
    objectProperty_endsTooDeep (hnext.restrict false) hdeep {}
  have hbrace : s.shift.lookahead.isPunctuator "\x7d" = false :=
    isPunctuator_eq_false_of_raw (by rw [hraw]; decide)
  refine .after rfl (.after hadvance (.bind (.allowingIn (.repeatFrom ?_))))
  refine .after (a := s.shift.lookahead.isPunctuator "\x7d") rfl ?_
  rw [hbrace]
  exact .bind hproperty

theorem substitution_endsTooDeep (hinside : EndsTooDeep (self.expression 0) (s.restrict false)) :
    EndsTooDeep (substitution self) s := .bind (.allowingIn hinside)

theorem templateLiteral_endsTooDeep (h : s.Before (Opening.template.text ++ rest))
    (hrest : Silent rest) (hdeep : DeepBehind self s rest) :
    EndsTooDeep (templateLiteral self) s := by
  obtain ⟨session, hrun, hlimit⟩ := run_requireEdition_of_unlimited h.unlimited
    "template literal syntax" .es2015 s.lookahead.position
  have hasked : State.Before { s with session } (Opening.template.text ++ rest) :=
    h.of_same rfl rfl (hlimit.trans h.unlimited.symm)
  obtain ⟨hadvance, hnext⟩ := hasked.advance (fun _ hc => Opening.template.plain hc) hrest
  have hinside : EndsTooDeep (self.expression 0)
      (State.restrict (State.shift { s with session }) false) :=
    hdeep _ (hnext.restrict false) rfl rfl 0
  refine .after (a := s.lookahead) rfl (.after hrun (.after hadvance ?_))
  rw [h.begins.lexeme_eq]
  exact .bind (.repeatWhile (substitution_endsTooDeep hinside))

/-- An operand in front of which two openings come. -/
theorem readOperand_endsTooDeep {opening opening' : Opening}
    (h : s.Before (opening.text ++ (opening'.text ++ rest)))
    (hgroup : opening.Expresses (opening'.text ++ rest))
    (hdeep : DeepBehind self s (opening'.text ++ rest)) : EndsTooDeep (readOperand self) s := by
  refine .after (run_rescanRegexp h.begins.isSlash_eq_false) (.after (a := s.lookahead) rfl ?_)
  rw [h.begins.operand?_eq]
  cases opening with
  | parenthesis => exact parenthesis_endsTooDeep h hgroup (opening'.silent rest) hdeep
  | array => exact patternOr_endsTooDeep h hgroup (arrayLiteral_endsTooDeep h hdeep)
  | object => exact patternOr_endsTooDeep h hgroup (objectLiteral_endsTooDeep h hdeep)
  | template => exact templateLiteral_endsTooDeep h (opening'.silent rest) hdeep

end Operands

/-- An expression that begins with too many openings ends too deep. -/
theorem expression_endsTooDeep {fuel : Nat} {openings : List Opening} {rest : List Char}
    (h : s.Before (Opening.before openings rest)) (hgroups : Opening.AllExpress openings rest)
    (hdepth : s.options.maxDepth < s.depth + openings.length) (power : Nat) :
    EndsTooDeep ((productions fuel).expression power) s := by
  induction openings generalizing fuel s power with
  | nil =>
      cases fuel with
      | zero => exact .inr rfl
      | succ fuel =>
          rw [productions_expression]
          exact .nested fun hless => absurd hdepth (Nat.not_lt_of_le (Nat.le_of_lt hless))
  | cons opening openings ih =>
      cases fuel with
      | zero => exact .inr rfl
      | succ fuel =>
          rw [productions_expression]
          refine .nested fun hless => .bind ?_
          -- Where one level is left there is one more opening behind this one.
          have hmore : openings ≠ [] := by
            rintro rfl
            simp only [List.length_cons, List.length_nil] at hdepth
            omega
          obtain ⟨opening', openings, rfl⟩ := List.exists_cons_of_ne_nil hmore
          refine readOperand_endsTooDeep (h.of_same rfl rfl rfl) hgroups.1 ?_
          intro s' h' hdepth' hoptions power
          refine ih h' hgroups.2 ?_ power
          rw [hdepth', hoptions]
          simp only [List.length_cons] at hdepth ⊢
          omega

/-! ## Statements -/

/-- The text of open blocks with openings of expressions in them. -/
def nesting (blocks : Nat) (openings : List Opening) (rest : List Char) : List Char :=
  List.replicate blocks '\x7b' ++ Opening.before openings rest

section Statements

variable {blocks : Nat} {openings : List Opening} {rest : List Char}

/-- The token of an opening begins the text, for that of an object is the brace of a block too. -/
theorem nesting_plain (rest : List Char) (hsome : 0 < blocks + openings.length) :
    ∃ (opening : Opening) (after : List Char), ∀ c : Cursor, c.rest = nesting blocks openings rest →
      Token.Plain c opening.lexeme opening.raw after := by
  cases blocks with
  | succ blocks => exact ⟨.object, _, fun _ hc => Token.plain_delimiter (by decide) hc⟩
  | zero =>
      cases openings with
      | nil => exact absurd hsome (Nat.lt_irrefl 0)
      | cons opening openings => exact ⟨opening, _, fun _ hc => opening.plain hc⟩

theorem nesting_silent (hsome : 0 < blocks + openings.length) :
    Silent (nesting blocks openings rest) := fun c hc =>
  have ⟨_, _, hplain⟩ := nesting_plain rest hsome
  ⟨_, _, _, hplain c hc⟩

theorem nesting_begins (h : s.Before (nesting blocks openings rest))
    (hsome : 0 < blocks + openings.length) : ∃ opening : Opening, opening.Begins s.lookahead :=
  have ⟨opening, _, hplain⟩ := nesting_plain rest hsome
  have hspelled := h.spelled hplain
  ⟨opening, hspelled.1, hspelled.2⟩

/-- Where no name comes next, the operator table tells what statement begins. -/
theorem run_statementStart (hname : ∀ name, s.lookahead.lexeme ≠ .identifier name) :
    statementStart.run.run s = (.ok (match (Symbol.ofToken s.lookahead).statement? with
      | some form => .form form
      | none => .expression), s) := by
  have hidentifier : s.lookahead.isIdentifier = false := by
    unfold Token.isIdentifier
    split
    next name heq => exact absurd heq (hname name)
    · rfl
  have hword (word : String) : s.lookahead.isName word = false := by
    unfold Token.isName
    split
    next name heq => exact absurd heq (hname name)
    · rfl
  have hpeek : peek.run.run s = (.ok (Token.next s.lookahead.stop), s) := rfl
  rw [statementStart, run_bind, run_token]
  dsimp only
  rw [run_bind, hpeek]
  dsimp only
  simp only [hidentifier, hword, Bool.false_and, Bool.false_eq_true, if_false]
  cases (Symbol.ofToken s.lookahead).statement? <;> rfl

/-- A list of statements ends too deep if its first one does. -/
theorem statementList_endsTooDeep {self : Productions} (h : s.Before (nesting blocks openings rest))
    (hsome : 0 < blocks + openings.length) (hstatement : EndsTooDeep (self.statement true) s)
    (top : Bool) : EndsTooDeep (statementList self top) s := by
  obtain ⟨opening, hbegins⟩ := nesting_begins h hsome
  refine .bind (.repeatFrom (.after (a := s.lookahead) rfl ?_))
  rw [hbegins.isEnd_eq_false, hbegins.isPunctuator_eq_false (by decide)]
  exact .bind hstatement

/-- An opening other than the brace begins an expression as a statement. -/
theorem readStatement_endsTooDeep_of_opening {self : Productions} {opening : Opening}
    (inList : Bool) (h : opening.Begins s.lookahead) (hopening : opening ≠ .object)
    (hexpression : s.depth < s.options.maxDepth →
      EndsTooDeep (self.expression 0) { s with depth := s.depth + 1 }) :
    EndsTooDeep (readStatement self inList) s := by
  refine .nested fun hless => ?_
  have hname (name : String) : s.lookahead.lexeme ≠ .identifier name := by
    rw [h.lexeme_eq]
    cases opening <;> exact nofun
  have hstatement : (Symbol.ofToken s.lookahead).statement? = none := by
    obtain ⟨hlexeme, hraw⟩ := h
    cases opening <;> simp only [Symbol.ofToken, hlexeme, hraw, Opening.lexeme] <;>
      first | decide | exact absurd rfl hopening
  refine .after (run_statementStart hname) ?_
  rw [hstatement]
  exact .after rfl (.bind (hexpression hless))

theorem readStatement_endsTooDeep_of_block {self : Productions} (inList : Bool)
    (h : s.Before (nesting (blocks + 1) openings rest))
    (hsome : s.depth < s.options.maxDepth → 0 < blocks + openings.length)
    (hstatement : ∀ s' : State, s'.Before (nesting blocks openings rest) →
      s'.depth = s.depth + 1 → s'.options = s.options → EndsTooDeep (self.statement true) s') :
    EndsTooDeep (readStatement self inList) s := by
  refine .nested fun hless => ?_
  let inside : State := { s with depth := s.depth + 1 }
  have hinside : inside.Before (nesting (blocks + 1) openings rest) := h.of_same rfl rfl rfl
  have hplain (c : Cursor) (hc : c.rest = nesting (blocks + 1) openings rest) :
      Token.Plain c .punctuator ['\x7b'] (nesting blocks openings rest) :=
    Token.plain_delimiter (by decide) hc
  obtain ⟨hlexeme, hraw⟩ := hinside.spelled hplain
  obtain ⟨hadvance, hnext⟩ := hinside.advance hplain (nesting_silent (hsome hless))
  let entered : State :=
    let position := inside.lookahead.position
    { inside.shift with
      session.tracker := inside.shift.session.tracker.enterScope .block position }
  have hentered : entered.Before (nesting blocks openings rest) := hnext.of_same rfl rfl rfl
  have hname (name : String) : inside.lookahead.lexeme ≠ .identifier name := by
    rw [hlexeme]
    exact nofun
  have hform : (Symbol.ofToken inside.lookahead).statement? = some .block := by
    simp only [Symbol.ofToken, hlexeme, hraw]
    decide
  have hbrace : inside.lookahead.isPunctuator "\x7b" = true := by
    rw [Token.isPunctuator, hlexeme, hraw]
    rfl
  refine .after (run_statementStart hname) ?_
  rw [hform]
  refine .after (a := inside.lookahead) rfl ?_
  rw [hbrace]
  refine .after hadvance (.after (t := entered) rfl (.bind ?_))
  exact statementList_endsTooDeep hentered (hsome hless) (hstatement _ hentered rfl rfl) false

/-- A statement that begins with too many blocks and openings ends too deep. -/
theorem statement_endsTooDeep {fuel : Nat} (h : s.Before (nesting blocks openings rest))
    (hfirst : openings.head? ≠ some .object) (hgroups : Opening.AllExpress openings rest)
    (hdepth : s.options.maxDepth < s.depth + (blocks + openings.length)) (inList : Bool) :
    EndsTooDeep ((productions fuel).statement inList) s := by
  induction blocks generalizing fuel s inList with
  | zero =>
      cases fuel with
      | zero => exact .inr rfl
      | succ fuel =>
          rw [productions_statement]
          cases openings with
          | nil => exact .nested fun hless => by simp only [List.length_nil] at hdepth; omega
          | cons opening openings =>
              have hinside : State.Before { s with depth := s.depth + 1 }
                  (Opening.before (opening :: openings) rest) := h.of_same rfl rfl rfl
              have hopening : opening ≠ .object := by
                rintro rfl
                exact hfirst rfl
              refine readStatement_endsTooDeep_of_opening inList (State.Before.begins h) hopening ?_
              exact fun _ => expression_endsTooDeep hinside hgroups (by dsimp only; omega) 0
  | succ blocks ih =>
      cases fuel with
      | zero => exact .inr rfl
      | succ fuel =>
          rw [productions_statement]
          refine readStatement_endsTooDeep_of_block inList h (fun hless => by omega) ?_
          intro s' h' hdepth' hoptions
          exact ih h' (by rw [hdepth', hoptions]; omega) true

end Statements

/-! ## Programs -/

/-- A program that begins with too many blocks and openings ends too deep. -/
theorem program_endsTooDeep {fuel blocks : Nat} {openings : List Opening} {rest : List Char}
    (h : s.Before (nesting blocks openings rest)) (hfirst : openings.head? ≠ some .object)
    (hgroups : Opening.AllExpress openings rest)
    (hdepth : s.options.maxDepth < s.depth + (blocks + openings.length))
    (hsome : 0 < blocks + openings.length) : EndsTooDeep (program (productions fuel)) s := by
  obtain ⟨opening, after, hplain⟩ := nesting_plain rest hsome
  obtain ⟨c, hc, hlookahead⟩ := h.next
  have hnext : s.lookahead.lexeme = opening.lexeme := hlookahead ▸ (hplain c hc).lexeme_eq
  have haccept : acceptLookahead.run.run s = (.ok (), s) :=
    run_acceptLookahead (hlookahead ▸ (hplain c hc).issues_eq)
      (hlookahead ▸ (hplain c hc).directives_eq)
  have hdirective : (directiveRound none).run.run s = (.ok false, s) := by
    rw [directiveRound, run_bind, run_token]
    dsimp only
    rw [hnext]
    cases opening <;> rfl
  have hdirectives : (directives none).run.run s = (.ok (), s) :=
    run_repeatWhile_of_false hdirective
  refine .after haccept (.after hdirectives (.bind ?_))
  exact statementList_endsTooDeep h hsome (statement_endsTooDeep h hfirst hgroups hdepth true) true

end ScriptLint.Reading

import ScriptLint.Proofs.Lexing.Place
import ScriptLint.Proofs.Reading.Program

/-! # Openings

What opens an expression inside an expression: parentheses, brackets, braces and templates. Where one
of them comes next in a text that is known, reading goes on in a known way, and in silence: none of
the tokens has a problem, and no comment stands between them.
-/

namespace ScriptLint.Reading

variable {s : State}

/-! ## Going on without a report -/

theorem run_token (s : State) : token.run.run s = (.ok s.lookahead, s) := rfl

/-- A construct that is not too deep is read one level deeper. -/
theorem run_nested {α : Type} {step : Reading α} (hdepth : s.depth < s.options.maxDepth) :
    (nested step).run.run s = (step >>= fun a => do
      modify fun s : State => { s with depth := s.depth - 1 }
      pure a).run.run { s with depth := s.depth + 1 } := by
  let deeper : State := { s with depth := s.depth + 1 }
  have hget : (get : Reading State).run.run deeper = (.ok deeper, deeper) := rfl
  unfold nested
  rw [run_bind]
  change (get >>= _ : Reading α).run.run deeper = _
  rw [run_bind, hget]
  dsimp only
  rw [if_neg (Nat.not_lt.mpr hdepth)]

/-- The token after a group is the one that the scan of the text behind it finds. -/
theorem run_tokenAfterGroup {t : Token}
    (hscan : GroupScan.run (s.size - s.lookahead.stop.position.offset + 2)
      { groups := [.bracket], stop := s.lookahead.stop } = some t) :
    tokenAfterGroup.run.run s = (.ok t, s) := by
  have hget : (get : Reading State).run.run s = (.ok s, s) := rfl
  rw [tokenAfterGroup, run_bind, run_token]
  dsimp only
  rw [tokenAfterGroupFrom, run_bind, hget]
  dsimp only
  rw [hscan]
  rfl

/-- The state once its next token is consumed and nothing is said about that. -/
def State.shift (s : State) : State :=
  { s with consumed := s.lookahead :: s.consumed, lookahead := Token.next s.lookahead.stop }

theorem run_acceptLookahead (hissues : s.lookahead.issues = [])
    (hdirectives : s.lookahead.directives = []) : acceptLookahead.run.run s = (.ok (), s) := by
  have hfatal : s.lookahead.fatalIssue? = none := by rw [Token.fatalIssue?, hissues]; rfl
  have hcheck : checkFatal.run.run s = (.ok (), s) := by
    rw [checkFatal, run_bind, run_token]
    dsimp only
    rw [hfatal]
    rfl
  rw [acceptLookahead, run_bind, run_token]
  dsimp only
  rw [hdirectives]
  exact hcheck

/-- A token without issues is consumed in silence if the next one comes without any, too. -/
theorem run_advance (hconsumed : s.lookahead.issues = [])
    (hissues : (Token.next s.lookahead.stop).issues = [])
    (hdirectives : (Token.next s.lookahead.stop).directives = []) :
    advance.run.run s = (.ok (), s.shift) := by
  have haccept := run_acceptLookahead (s := s.shift) hissues hdirectives
  rw [advance, run_bind, run_token]
  dsimp only
  rw [hconsumed]
  exact haccept

/-- Without a limit a report goes on. -/
theorem run_report_of_unlimited (hlimit : s.session.sink.limit = 0) (code : String)
    (position : Position) (arguments : List String) (hcode : Halt.IsRegular code) :
    ∃ session, (report code position arguments hcode).run.run s = (.ok (), { s with session }) ∧
      session.sink.limit = 0 := by
  let scope := s.session.tracker.functionName
  have hrun : (report code position arguments hcode).run.run s =
      (inScopes (Scope.Action.report code position arguments scope hcode)).run.run s := rfl
  have hgoes : (s.session.sink.report code position arguments scope).1 = .ok () := by
    unfold Sink.report
    dsimp only
    split
    · rfl
    · rw [if_neg (by omega)]
  obtain ⟨accepted, terminal?, hsink⟩ :=
    s.session.sink.report_frame code position arguments scope
  let sink := (s.session.sink.report code position arguments scope).2
  refine ⟨{ s.session with sink }, ?_, ?_⟩
  · rw [hrun, run_inScopes, Scope.Action.run_report, hgoes]
    rfl
  · change sink.limit = 0
    rw [show sink = _ from hsink]
    exact hlimit

theorem run_requireEdition_of_unlimited (hlimit : s.session.sink.limit = 0) (feature : String)
    (since : Edition) (position : Position) :
    ∃ session, (requireEdition feature since position).run.run s = (.ok (), { s with session }) ∧
      session.sink.limit = 0 := by
  by_cases hbefore : s.options.edition < since
  · have hreport := run_report_of_unlimited hlimit (LexicalIssue.gated feature since position).code
      position (LexicalIssue.gated feature since position).arguments
      (LexicalIssue.gated feature since position).regular
    have hrun : (isBefore since).run.run s = (.ok true, s) := by
      change (Except.ok (decide (s.options.edition < since)), s) = _
      rw [decide_eq_true hbefore]
    rw [requireEdition, run_bind, hrun]
    exact hreport
  · have hrun : (isBefore since).run.run s = (.ok false, s) := by
      change (Except.ok (decide (s.options.edition < since)), s) = _
      rw [decide_eq_false hbefore]
    rw [requireEdition, run_bind, hrun]
    exact ⟨s.session, rfl, hlimit⟩

theorem run_repeatWhile_of_false {round : Reading Bool}
    (hround : round.run.run s = (.ok false, s)) :
    (repeatWhile round).run.run s = (.ok (), s) := by
  have hget : (get : Reading State).run.run s = (.ok s, s) := rfl
  rw [repeatWhile, repeatFrom, run_bind, hget]
  dsimp only
  rw [iterate, run_bind, run_bind, hround]
  rfl

/-! ## Openings -/

/-- A group whose content begins the text is neither assigned to nor the parameters of an arrow
function. -/
def NoTarget (text : List Char) : Prop :=
  ∀ c : Cursor, c.rest = text → ∀ fuel t,
    GroupScan.run fuel { groups := [.bracket], stop := c } = some t →
      t.isPunctuator "=" = false ∧ t.isPunctuator "=>" = false

/-- What opens an expression inside an expression. -/
inductive Opening where
  | parenthesis
  | array
  /-- The first property of an object, up to its value. -/
  | object
  /-- A template up to its first substitution. -/
  | template
deriving Repr, DecidableEq, Inhabited

namespace Opening

/-- How it is spelled. -/
def text : Opening → List Char
  | parenthesis => ['(']
  | array => ['[']
  | object => ['\x7b', 'a', ':']
  | template => [TemplateScan.backtick, '$', '\x7b']

/-- The text that a list of openings begins. -/
def before (openings : List Opening) (rest : List Char) : List Char :=
  openings.foldr (fun opening text => opening.text ++ text) rest

/-- The kind of the token with which it begins. -/
def lexeme : Opening → Lexeme
  | parenthesis | array | object => .punctuator
  | template => .template .head (some "")

/-- The spelling of that token. -/
def raw : Opening → List Char
  | parenthesis => ['(']
  | array => ['[']
  | object => ['\x7b']
  | template => [TemplateScan.backtick, '$', '\x7b']

/-- What follows that token in its text. -/
def tail : Opening → List Char
  | object => ['a', ':']
  | _ => []

/-- In front of this text the opening begins an expression, and no pattern or parameters. -/
def Expresses (opening : Opening) (rest : List Char) : Prop :=
  match opening with
  | template => True
  | parenthesis | array | object => NoTarget (opening.tail ++ rest)

/-- All openings in front of this text begin expressions. -/
def AllExpress : List Opening → List Char → Prop
  | [], _ => True
  | opening :: openings, rest =>
    opening.Expresses (before openings rest) ∧ AllExpress openings rest

theorem plain (opening : Opening) {c : Cursor} {rest : List Char}
    (hrest : c.rest = opening.text ++ rest) :
    Token.Plain c opening.lexeme opening.raw (opening.tail ++ rest) := by
  cases opening with
  | parenthesis | array | object => exact Token.plain_delimiter (by decide) hrest
  | template => exact Token.plain_templateHead hrest

end Opening

/-- A text whose first token stands there at once and comes with nothing to report. -/
def Silent (text : List Char) : Prop :=
  ∀ c : Cursor, c.rest = text → ∃ lexeme raw rest, Token.Plain c lexeme raw rest

/-- The state is in front of a text, and no report ends the analysis. -/
structure State.Before (s : State) (text : List Char) : Prop where
  ready : s.Ready
  next : ∃ c, c.rest = text ∧ s.lookahead = Token.next c
  unlimited : s.session.sink.limit = 0

namespace State.Before

variable {text : List Char}

/-- The place in the source is a matter of the next token and of the sink. -/
theorem of_same {s' : State} (h : s.Before text) (hlookahead : s'.lookahead = s.lookahead)
    (hsize : s'.size = s.size) (hsink : s'.session.sink.limit = s.session.sink.limit) :
    s'.Before text := by
  refine ⟨?_, ?_, hsink.trans h.unlimited⟩
  · unfold State.Ready
    rw [hlookahead, hsize]
    exact h.ready
  · rw [hlookahead]
    exact h.next

theorem restrict (h : s.Before text) (excluded : Bool) : (s.restrict excluded).Before text :=
  h.of_same rfl rfl rfl

/-- Consuming a token leads in front of the text after it. -/
theorem advance {lexeme : Lexeme} {raw rest : List Char} (h : s.Before text)
    (hplain : ∀ c : Cursor, c.rest = text → Token.Plain c lexeme raw rest) (hrest : Silent rest) :
    advance.run.run s = (.ok (), s.shift) ∧ s.shift.Before rest := by
  obtain ⟨c, hc, hlookahead⟩ := h.next
  have htoken := hplain c hc
  have hstop : s.lookahead.stop.rest = rest := hlookahead ▸ htoken.rest_eq
  obtain ⟨lexeme', raw', rest', hnext⟩ := hrest s.lookahead.stop hstop
  refine ⟨?_, ?_, ⟨_, hstop, rfl⟩, h.unlimited⟩
  · exact run_advance (hlookahead ▸ htoken.issues_eq) hnext.issues_eq hnext.directives_eq
  · exact (Steady.passes_next h.ready).reaches.ready

/-- What follows a group is found, and it is neither an assignment nor an arrow. -/
theorem tokenAfterGroup {lexeme : Lexeme} {raw rest : List Char} (h : s.Before text)
    (hplain : ∀ c : Cursor, c.rest = text → Token.Plain c lexeme raw rest) (hrest : NoTarget rest) :
    ∃ t, tokenAfterGroup.run.run s = (.ok t, s) ∧ t.isPunctuator "=" = false ∧
      t.isPunctuator "=>" = false := by
  obtain ⟨c, hc, hlookahead⟩ := h.next
  let scan : GroupScan := { groups := [.bracket], stop := s.lookahead.stop }
  have hstop : scan.stop.Within s.size := h.ready.stop
  have hsome := GroupScan.run_isSome hstop (Nat.lt_add_of_pos_right Nat.two_pos)
  obtain ⟨t, ht⟩ := Option.isSome_iff_exists.mp hsome
  exact ⟨t, run_tokenAfterGroup ht, hrest _ (hlookahead ▸ (hplain c hc).rest_eq) _ t ht⟩

end State.Before

/-- What the next token is, where the text is known. -/
theorem State.Before.spelled {text : List Char} {lexeme : Lexeme} {raw rest : List Char}
    (h : s.Before text) (hplain : ∀ c : Cursor, c.rest = text → Token.Plain c lexeme raw rest) :
    s.lookahead.lexeme = lexeme ∧ s.lookahead.raw = String.ofList raw := by
  obtain ⟨c, hc, hlookahead⟩ := h.next
  rw [hlookahead]
  exact ⟨(hplain c hc).lexeme_eq, (hplain c hc).raw_eq⟩

theorem isPunctuator_eq_false_of_raw {t : Token} {p : String} (hraw : t.raw ≠ p) :
    t.isPunctuator p = false := by
  unfold Token.isPunctuator
  split
  · exact beq_eq_false_iff_ne.mpr hraw
  · rfl

/-- Without the character `=` there is neither an assignment nor an arrow. -/
theorem noTarget_of_not_mem {text : List Char} (htext : '=' ∉ text) : NoTarget text := by
  intro c hc fuel t hrun
  have ht : '=' ∉ t.raw.toList := GroupScan.run_not_mem (hc ▸ htext) hrun
  constructor
  all_goals
    refine isPunctuator_eq_false_of_raw ?_
    rintro hraw
    rw [hraw] at ht
    exact ht (by decide)

/-! ## Openings come next -/

/-- The token with which the opening begins. -/
structure Opening.Begins (opening : Opening) (t : Token) : Prop where
  lexeme_eq : t.lexeme = opening.lexeme
  raw_eq : t.raw = String.ofList opening.raw

namespace Opening

/-- How it is read where an operand is expected. -/
def operand : Opening → OperandForm
  | parenthesis => .parenthesis
  | array => .array
  | object => .object
  | template => .template

theorem silent (opening : Opening) (rest : List Char) : Silent (opening.text ++ rest) :=
  fun _ hc => ⟨_, _, _, opening.plain hc⟩

namespace Begins

variable {opening : Opening} {t : Token}

/-- The tokens which make a difference where an opening comes. -/
theorem isPunctuator_eq_false (h : opening.Begins t) {p : String}
    (hp : p ∈ [")", "]", "\x7d", ",", "...", "/", "/="]) : t.isPunctuator p = false := by
  refine isPunctuator_eq_false_of_raw (h.raw_eq ▸ ?_)
  revert p
  cases opening <;> decide

theorem isSlash_eq_false (h : opening.Begins t) : isSlash t = false := by
  rw [isSlash, h.isPunctuator_eq_false (by decide), h.isPunctuator_eq_false (by decide)]
  rfl

theorem operand?_eq (h : opening.Begins t) :
    (Symbol.ofToken t).operand? = some opening.operand := by
  obtain ⟨hlexeme, hraw⟩ := h
  cases opening <;> simp only [Symbol.ofToken, hlexeme, hraw, Opening.lexeme] <;> decide

theorem isEnd_eq_false (h : opening.Begins t) : t.isEnd = false := by
  cases opening <;> simp [Token.isEnd, h.lexeme_eq, Opening.lexeme]

end Begins

end Opening

theorem State.Before.begins {opening : Opening} {rest : List Char}
    (h : s.Before (opening.text ++ rest)) : opening.Begins s.lookahead :=
  have hspelled := h.spelled fun _ hc => opening.plain hc
  ⟨hspelled.1, hspelled.2⟩

end ScriptLint.Reading

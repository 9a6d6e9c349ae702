import ScriptLint.Reading.Directive

/-! # Token flow

Consuming tokens and looking past the next one. The problems of a token are reported when it is
consumed, and the directives before it apply as soon as it comes next; a problem that makes reading
on senseless ends the analysis as soon as its token comes next. Looking ahead reports nothing.
-/

namespace ScriptLint.Reading

/-- Whether a problem of a token is tolerated. -/
def tolerates (o : Options) (issue : LexicalIssue) : Bool :=
  if issue.code == "W043" then o.multistr
  else if issue.code == "W125" then !o.nonbsp
  else issue.since?.any (· ≤ o.edition)

def reportIssues (issues : List LexicalIssue) : Reading Unit :=
  issues.forM fun issue => do
    if !tolerates (← options) issue then reportIssue issue

/-- End the analysis if the next token makes reading on senseless. -/
def checkFatal : Reading Unit := do
  match (← token).fatalIssue? with
  | none => pure ()
  | some issue =>
    reportIssue issue
    halt .unrecoverable issue.position

/-- Apply what comes with a token that has just become the next one. -/
def acceptLookahead : Reading Unit := do
  (← token).directives.forM applyDirective
  checkFatal

def advance : Reading Unit := do
  let t ← token
  modify fun s => { s with consumed := t :: s.consumed, lookahead := Token.next t.stop }
  reportIssues t.issues
  acceptLookahead

/-- Take another token as the next one, in place of the one that was read there. -/
def replaceLookahead (t : Token) : Reading Unit := modify fun s => { s with lookahead := t }

/-- Whether a token is a slash that may turn out to begin a regular expression. -/
def isSlash (t : Token) : Bool := t.isPunctuator "/" || t.isPunctuator "/="

/-- Read a slash that comes next as the beginning of a regular expression. -/
def rescanRegexp : Reading Unit := do
  let t ← token
  if isSlash t then replaceLookahead t.rescanRegexp

/-- Read a brace that comes next as the end of a substitution. -/
def rescanTemplate : Reading Unit := do
  replaceLookahead (← token).rescanTemplate
  checkFatal

def peek : Reading Token := return Token.next (← token).stop

/-- The token after that. -/
def peekSecond : Reading Token := return Token.next (← peek).stop

/-! ## Looking past a group -/

/-- What closes an open group: a bracket, or the backtick of a template. -/
inductive Closer where
  | bracket
  | backtick
deriving Repr, DecidableEq, Inhabited

/-- Whether a slash after a token begins a regular expression, judged by the token alone. -/
def regexpMayFollow (t : Token) : Bool :=
  match t.lexeme with
  | .punctuator => !([")", "]", "\x7d"].contains t.raw)
  | .strayBackslash => true
  | .keyword _ => !(["this", "super", "true", "false", "null"].any t.isKeyword)
  | _ => false

/-- The state of a search for the end of a group: the groups that are open, innermost first, and
whether a slash would begin a regular expression. -/
structure GroupScan where
  groups : List Closer
  regexpAllowed : Bool := true
  stop : Cursor
deriving Repr, Inhabited

/-- Take the next token of a group. Gives the token after the group once it has ended. Closing
brackets are not matched with the opening ones. -/
def GroupScan.step (s : GroupScan) : GroupScan ⊕ Token :=
  let t := Token.next s.stop
  let t := if s.regexpAllowed && isSlash t then t.rescanRegexp else t
  let goOn (groups : List Closer) : GroupScan ⊕ Token :=
    .inl { groups, regexpAllowed := regexpMayFollow t, stop := t.stop }
  match t.lexeme with
  | .endOfInput => .inr t
  | .template .head _ => goOn (.backtick :: s.groups)
  | .punctuator =>
    if ["(", "[", "\x7b"].contains t.raw then goOn (.bracket :: s.groups)
    -- This brace ends a substitution, and the template goes on behind it.
    else if t.raw == "\x7d" && s.groups.head? == some .backtick then
      let piece := t.rescanTemplate
      let closes := piece.lexeme matches .template .tail _
      .inl { groups := if closes then s.groups.tail else s.groups, regexpAllowed := false,
             stop := piece.stop }
    else if [")", "]", "\x7d"].contains t.raw then
      match s.groups.tail with
      | [] => .inr (Token.next t.stop)
      | groups => goOn groups
    else goOn s.groups
  | _ => goOn s.groups

/-- The token after a group, searched for in a bounded number of steps. -/
def GroupScan.run : Nat → GroupScan → Option Token
  | 0, _ => none
  | fuel + 1, s =>
    match s.step with
    | .inl s => s.run fuel
    | .inr t => some t

/-- The token after the group whose content starts at a cursor. Every token but the last takes at
least one byte of what is left of the source. -/
def tokenAfterGroupFrom (c : Cursor) : Reading Token := do
  let fuel := (← get).size - c.position.offset + 2
  match GroupScan.run fuel { groups := [.bracket], stop := c } with
  | some t => pure t
  | none => throw .outOfFuel

/-- The token after the group that the next token opens. -/
def tokenAfterGroup : Reading Token := do tokenAfterGroupFrom (← token).stop

/-- The token after the group that the token after the next one opens. -/
def tokenAfterNextGroup : Reading Token := do tokenAfterGroupFrom (← peek).stop

end ScriptLint.Reading

import ScriptLint.Reading.Production

/-! # Statement lists

The statements of a block, a function or a program, and the directives in front of those of a
function or a program: string literals that stand alone, one of which makes the code strict.
-/

namespace ScriptLint.Reading

/-- What was read of a statement list so far. -/
structure ListScan where
  /-- The kind of the first statement. -/
  first? : Option StatementKind := none
  /-- Whether control never gets past the last statement. -/
  exits : Bool := false
deriving Repr, Inhabited

/-- The next statement of a list. At the top level of a program a brace that closes nothing is
reported and passed over. A statement that consumes nothing gives up its first token. -/
def listRound (self : Productions) (top : Bool) (s : ListScan) :
    Reading (Round ListScan ListScan) := do
  let t ← token
  if t.isEnd || (t.isPunctuator "\x7d" && !top) then pure (.done s)
  else if t.isPunctuator "\x7d" then
    reportUnexpected "\x7d" t.position
    advance
    pure (.again s)
  else
    let statement ← self.statement true
    let after ← token
    if after.position.offset == t.position.offset && !after.isEnd then advance
    pure (.again { first? := s.first? <|> some statement.kind, exits := statement.exits })

/-- The statements up to a closing brace or the end of the input. -/
def statementList (self : Productions) (top : Bool) : Reading Statement := do
  let s ← repeatFrom {} (listRound self top)
  pure { kind := .block, exits := s.exits, filtered := s.first? == some .conditional }

/-- Whether the spelling of a string is that of the directive for strict mode. Its last character
is taken for a quote, if it may be one. -/
def isStrictDirective (raw : String) : Bool :=
  let text := raw.toList.tail
  text.dropLast == "use strict".toList && text.getLast?.any (·.utf8Size == 1)

/-- Whether a string literal that another token follows is a statement by itself. -/
def standsAlone (next : Token) : Bool :=
  next.isPunctuator ";" || next.isPunctuator "\x7d" || next.isEnd ||
    (next.flags.newlineBefore && (Symbol.ofToken next).operator?.isNone)

/-- Apply the directive for strict mode. `simpleParameters?` is missing for a program and tells of a
function whether its parameters allow the directive. -/
def applyStrictDirective (simpleParameters? : Option Bool) (position : Position) :
    Reading Unit := do
  if ← isStrict then report "W034" position ["use strict"]
  else
    if simpleParameters? = some false then report "E065" position []
    let o ← options
    if simpleParameters?.isNone && !(o.globalstrict || o.strict = .global) then
      report "W097" position []
    track (·.setStrict)

/-- A directive, if one comes next. Tells whether one did. -/
def directiveRound (simpleParameters? : Option Bool) : Reading Bool := do
  let t ← token
  match t.lexeme with
  | .string _ =>
    if standsAlone (← peek) then
      if isStrictDirective t.raw then applyStrictDirective simpleParameters? t.position
      advance
      semicolon
      pure true
    else pure false
  | _ => pure false

/-- The directives at the head of a program or of the body of a function. -/
def directives (simpleParameters? : Option Bool) : Reading Unit :=
  repeatWhile (directiveRound simpleParameters?)

end ScriptLint.Reading

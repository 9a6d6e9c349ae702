import ScriptLint.Reading.Object

/-! # Classes

Class declarations and expressions. The name of a declaration is bound around the class and that of
an expression inside it; either has a dead zone up to the body. Fields and static blocks are
functions of their own as far as scopes are concerned.
-/

namespace ScriptLint.Reading

open Scope (FunctionFacts)

/-- The statements of a static block, after its word. -/
def staticBlock (self : Productions) (position : Position) : Reading Unit := do
  requireEdition "Class static blocks" .es2022 position
  track (·.enterFunction { name := "static", method := true } position)
  advance
  let _ ← statementList self false
  inScopes Scope.Action.exitScope
  expectPunctuator "\x7d"

/-- The initial value of a field, if there is one, and the end of the field. -/
def fieldValue (self : Productions) (key? : Option String) (position : Position) :
    Reading Unit := do
  requireEdition "Class properties" .es2022 position
  if ← acceptPunctuator "=" then
    track (·.enterFunction { name := key?.getD "", method := true } position)
    let _ ← self.element
    inScopes Scope.Action.exitScope
  semicolon

/-- A method or a field, after the word `static` if that comes first. -/
def methodOrField (self : Productions) (isStatic : Bool) (position : Position) : Reading Unit := do
  if (← token).lexeme matches .privateName _ then
    requireEdition "Private class members" .es2022 position
  let m ← modifiers
  let key? ← propertyKey self
  if ← atPunctuator "(" then
    method self key? m (!isStatic && m.accessor?.isNone && key? == some "constructor")
  else fieldValue self key? position

def classMember (self : Productions) : Reading Unit := do
  let t ← token
  if t.isPunctuator ";" then advance
  else if t.isName "static" && !endsKey (← peek) then
    advance
    if ← atPunctuator "\x7b" then staticBlock self t.position
    else methodOrField self true t.position
  else methodOrField self false t.position

/-- The next member of a class. A token that begins none is reported and passed over. -/
def classRound (self : Productions) : Reading Bool := do
  let t ← token
  if t.isPunctuator "\x7d" then pure false
  else if t.isEnd then earlyEnd
  else
    classMember self
    let after ← token
    if after.position.offset == t.position.offset then
      reportUnexpected after.display after.position
      advance
    pure true

/-- The name of a class, which may be missing if `anonymous` says so. -/
def className (anonymous : Bool) : Reading (Option BoundName) := do
  let t ← token
  if t.isPropertyName && !t.isKeyword "extends" then bindingName
  else
    if !anonymous then reportNoName t
    pure none

def declareClass (bound? : Option BoundName) : Reading Unit :=
  declareAll .className bound?.toList

/-- What follows the name of a class, up to its closing brace. The dead zone of the name ends where the
body begins. -/
def classRest (self : Productions) (bound? : Option BoundName) : Reading Unit := do
  if ← atKeyword "extends" then
    advance
    -- The class that is extended is looked up while the name is still in its dead zone.
    let _ ← self.expression Symbol.updatePower
  let body := (← token).position.offset
  bound?.forM fun bound => track (·.markInitialized bound.name body)
  expectPunctuator "\x7b"
  repeatWhile (classRound self)

/-- A class. Gives its name. -/
def readClass (self : Productions) (declaration anonymous : Bool) : Reading (Option String) := do
  let position := (← token).position
  requireEdition "class" .es2015 position
  advance
  let bound? ← className anonymous
  if declaration then declareClass bound?
  track (·.enterScope .classBody position)
  if !declaration then declareClass bound?
  classRest self bound?
  inScopes Scope.Action.exitScope
  expectPunctuator "\x7d"
  pure (bound?.map (·.name))

end ScriptLint.Reading

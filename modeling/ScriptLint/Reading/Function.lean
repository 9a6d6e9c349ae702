import ScriptLint.Reading.Body
import ScriptLint.Reading.Pattern

/-! # Functions

Function declarations and expressions, arrow functions, and what they share: parameters and bodies.
The frame of a function is opened before its parameters and closed after its body, so defaults are
looked up among the parameters.
-/

namespace ScriptLint.Reading

open Scope (FunctionFacts)

/-- A parameter, with the offset at which its default ends. -/
structure Parameter where
  bound : BoundName
  defaultEnd? : Option Nat
deriving Repr, DecidableEq, Inhabited

/-- The parameters of a function. -/
structure Parameters where
  /-- The names that are bound, those of patterns included. -/
  names : List Parameter := []
  /-- The number of parameters as they are written. -/
  count : Nat := 0
  /-- Whether there are neither defaults nor patterns, nor one that takes the rest. -/
  simple : Bool := true
  seenDefault : Bool := false
  afterRest : Bool := false
deriving Repr, Inhabited

/-- The default of a parameter, if there is one. Gives the offset at which it ends. -/
def parameterDefault (self : Productions) (rest : Bool) : Reading (Option Nat) := do
  let t ← token
  if t.isPunctuator "=" then
    if rest then report "E062" t.position []
    requireEdition "default parameters" .es2015 t.position
    advance
    let _ ← allowingIn self.element
    return some (← previous).endPosition.offset
  else return none

/-- The next parameter of a list. -/
def parameter (self : Productions) (ps : Parameters) :
    Reading (Round Parameters Parameters) := do
  let t ← token
  if t.isEnd then earlyEnd
  if ps.afterRest then report "W131" t.position []
  let rest := t.isPunctuator "..."
  if rest then
    requireEdition "rest parameter" .es2015 t.position
    advance
  let target ← self.bindingTarget
  let defaultEnd? ← parameterDefault self rest
  if defaultEnd?.isNone && ps.seenDefault && !rest then report "W138" t.position []
  pure (.again
    { names := ps.names ++ target.names.map (⟨·, defaultEnd?⟩)
      count := ps.count + 1
      simple := ps.simple && !rest && target.plain && defaultEnd?.isNone
      seenDefault := ps.seenDefault || defaultEnd?.isSome
      afterRest := ps.afterRest || rest })

/-- Look at what follows a comma between parameters. -/
def parameterComma (_ : Parameters) (comma : Position) : Reading Unit := do
  if ← atPunctuator ")" then requireEdition "Trailing comma in function parameters" .es2017 comma

def parameters (self : Productions) : Reading Parameters := do
  expectPunctuator "("
  let ps ← commaList ")" {} (parameter self) parameterComma
  expectPunctuator ")"
  pure ps

/-- Declare the parameters of the function just entered. The dead zone of one with a default ends
after the default. -/
def declareParameters (ps : Parameters) (method : Bool) : Reading Unit := do
  let t ← tracker
  let distinct := t.isStrict || !ps.simple || t.functionFrame.facts.arrow || method
  ps.names.forM fun p => do
    inScopes (Scope.Action.declareParameter p.bound.name p.bound.position distinct)
    p.defaultEnd?.forM fun offset => track (·.markInitialized p.bound.name offset)

def functionBody (self : Productions) (simple : Bool) : Reading Unit := do
  let t ← token
  if t.isPunctuator "\x7b" then
    advance
    directives (some simple)
    if (← options).strict = .required && !(← isStrict) then report "E007" t.position []
    let _ ← statementList self false
    expectPunctuator "\x7d"
  else expectPunctuator "\x7b"

/-- The parameters and the body of a function, in a frame of their own. -/
def functionRest (self : Productions) (facts : FunctionFacts) (position : Position)
    (ownName? : Option BoundName) : Reading Parameters := do
  track (·.enterFunction facts position)
  -- The name is bound first, so that parameters and declarations can take it over.
  ownName?.forM fun own => track (·.declareFunctionName own.name own.position)
  let ps ← parameters self
  declareParameters ps facts.method
  functionBody self ps.simple
  if facts.generator && (← tracker).functionFrame.yields == 0 then report "W124" position []
  inScopes Scope.Action.exitScope
  pure ps

def generatorStar : Reading Bool := do
  let t ← token
  if t.isPunctuator "*" then
    requireModern "function*" t.position
    advance
    pure true
  else pure false

/-- The words in front of a function: `function`, with `async` before it in an asynchronous one. -/
def functionWords (async : Bool) (position : Position) : Reading Unit := do
  if async then
    requireEdition "async functions" .es2017 position
    advance
  advance

/-- Report a function that is declared where old engines do not allow it. -/
def reportMisplacedFunction (position : Position) : Reading Unit := report "W082" position []

/-- Declare the name of a function. In a block it is a name of the block from the edition of 2015 on,
and out of place before. -/
def declareFunction (bound : BoundName) (position : Position) : Reading Unit := do
  let kind := (← tracker).current.kind
  let inBlock := kind = .block || kind = .catchClause
  if inBlock && (← options).edition.isModern then
    inScopes (Scope.Action.declareBlockFunction bound.name bound.position)
  else
    if inBlock then reportMisplacedFunction position
    inScopes (Scope.Action.declare bound.name .function bound.position)

/-- A function declaration. A name may be missing if `anonymous` says so. -/
def functionDeclaration (self : Productions) (async anonymous : Bool) :
    Reading (Option String) := do
  let position := (← token).position
  functionWords async position
  let generator ← generatorStar
  let bound? ← if anonymous && (← atPunctuator "(") then pure none else bindingName
  bound?.forM (declareFunction · position)
  let name? := bound?.map (·.name)
  let _ ← functionRest self { name := name?.getD "", generator, async } position none
  pure name?

def functionExpression (self : Productions) (async : Bool) : Reading Expression := do
  let position := (← token).position
  functionWords async position
  let generator ← generatorStar
  let bound? ← if (← token).isPropertyName then bindingName else pure none
  let name := (bound?.map (·.name)).getD ""
  let _ ← functionRest self { name, generator, async } position bound?
  pure { kind := .function, position }

/-- The parameters of an arrow function: a list, or a single name. -/
def arrowParameters (self : Productions) : Reading Parameters := do
  if ← atPunctuator "(" then parameters self
  else
    let bound? ← bindingName
    pure { names := bound?.toList.map (⟨·, none⟩), count := 1 }

def arrowFunction (self : Productions) (async : Bool) : Reading Expression := do
  let position := (← token).position
  requireEdition "arrow function syntax (=>)" .es2015 position
  if async then
    requireEdition "async functions" .es2017 position
    advance
  track (·.enterFunction { arrow := true, async } position)
  let ps ← arrowParameters self
  declareParameters ps false
  expectPunctuator "=>"
  if ← atPunctuator "\x7b" then functionBody self ps.simple
  else
    let _ ← self.element
  inScopes Scope.Action.exitScope
  pure { kind := .arrow, position }

end ScriptLint.Reading

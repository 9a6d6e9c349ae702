import ScriptLint.Reading.Production

/-! # Patterns

Destructuring, in declarations and in assignments. A declared pattern only gathers its names, which
are declared by the construct around it; a pattern that is assigned to records every target as
written. Both may give defaults to their parts.
-/

namespace ScriptLint.Reading

/-- A default after a part of a pattern, if there is one. -/
def patternDefault (self : Productions) : Reading Unit := do
  if ← acceptPunctuator "=" then
    let _ ← allowingIn self.element

def computedKey (self : Productions) : Reading Unit := do
  requireEdition "computed property names" .es2015 (← token).position
  advance
  let _ ← allowingIn self.element
  expectPunctuator "]"

/-- Whether a token names a property without brackets. -/
def isPropertyKey (t : Token) : Bool :=
  match t.lexeme with
  | .identifier _ | .keyword _ | .string _ | .number _ | .bigint _ => true
  | _ => false

/-! ## Declared patterns -/

/-- What was read of a pattern so far. -/
structure PatternScan where
  /-- The names that it binds. -/
  names : List BoundName := []
  isEmpty : Bool := true
  /-- Whether a part that takes the rest has been read. -/
  afterRest : Bool := false
deriving Repr, Inhabited

/-- An element of an array pattern; between two commas there may be none. -/
def arrayBindingElement (self : Productions) (s : PatternScan) :
    Reading (Round PatternScan PatternScan) := do
  if ← atPunctuator "," then pure (.again { s with isEmpty := false })
  else
    if s.afterRest then report "W130" (← token).position []
    let rest ← acceptPunctuator "..."
    let target ← self.bindingTarget
    patternDefault self
    pure (.again
      { names := s.names ++ target.names, isEmpty := false, afterRest := s.afterRest || rest })

def arrayBinding (self : Productions) : Reading (List BoundName) := do
  let position := (← token).position
  requireEdition "destructuring binding" .es2015 position
  advance
  let s ← commaList "]" {} (arrayBindingElement self) noTrailingCheck
  expectPunctuator "]"
  if s.isEmpty then report "W137" position []
  pure s.names

/-- The names that a property of an object pattern binds, without its default. What is no property
gives none. -/
def objectBindingProperty (self : Productions) : Reading (Option (List BoundName)) := do
  let t ← token
  if t.isPunctuator "..." then
    requireEdition "object rest property" .es2018 t.position
    advance
    return some (← bindingName).toList
  else if t.isPunctuator "[" then
    computedKey self
    expectPunctuator ":"
    return some (← self.bindingTarget).names
  else if isPropertyKey t then
    if (← peek).isPunctuator ":" then
      advance
      advance
      return some (← self.bindingTarget).names
    else return some (← bindingName).toList
  else
    reportNoName t
    return none

/-- A property of an object pattern with its default. -/
def objectBindingElement (self : Productions) (s : PatternScan) :
    Reading (Round PatternScan PatternScan) := do
  match ← objectBindingProperty self with
  | none => pure (.done { s with isEmpty := false })
  | some names =>
    patternDefault self
    pure (.again { s with names := s.names ++ names, isEmpty := false })

def objectBinding (self : Productions) : Reading (List BoundName) := do
  let position := (← token).position
  requireEdition "destructuring binding" .es2015 position
  advance
  let s ← commaList "\x7d" {} (objectBindingElement self) noTrailingCheck
  expectPunctuator "\x7d"
  if s.isEmpty then report "W137" position []
  pure s.names

/-- A name or a pattern that is declared. -/
def readBindingTarget (self : Productions) : Reading BindingTarget := do
  if ← atPunctuator "[" then return { names := ← arrayBinding self, plain := false }
  else if ← atPunctuator "\x7b" then return { names := ← objectBinding self, plain := false }
  else return { names := (← bindingName).toList, plain := true }

/-! ## Assigned patterns -/

/-- An element that is assigned to, with its default. What opens a bracket is a pattern if the
bracket is followed by what ends an element. -/
def assignmentElement (self : Productions) : Reading Unit := do
  let opens := (← atPunctuator "[") || (← atPunctuator "\x7b")
  let isPattern ← if opens then
      pure (["=", ",", "]", "\x7d"].contains (← tokenAfterGroup).raw)
    else pure false
  if isPattern then self.assignmentPattern
  else
    let target ← self.expression Symbol.assignPower
    assignmentTarget target .write
  patternDefault self

/-- A property of an object pattern that is assigned to. -/
def assignmentProperty (self : Productions) : Reading Unit := do
  let t ← token
  if t.isPunctuator "[" then
    computedKey self
    expectPunctuator ":"
    assignmentElement self
  else if !isPropertyKey t then reportNoName t
  else if (← peek).isPunctuator ":" then
    advance
    advance
    assignmentElement self
  else if !t.isIdentifier then reportNoName t
  else
    advance
    let _ ← addReference t.name t.position .write
    patternDefault self

/-- A part of a pattern that is assigned to. -/
def assignmentPart (self : Productions) (inArray : Bool) (s : PatternScan) :
    Reading (Round PatternScan PatternScan) := do
  if inArray && (← atPunctuator ",") then pure (.again { s with isEmpty := false })
  else
    if s.afterRest then report "W130" (← token).position []
    let rest ← acceptPunctuator "..."
    if rest || inArray then assignmentElement self else assignmentProperty self
    pure (.again { s with isEmpty := false, afterRest := s.afterRest || rest })

/-- A pattern that is assigned to, from its opening bracket on. -/
def readAssignmentPattern (self : Productions) : Reading Unit := do
  let t ← token
  let inArray := t.isPunctuator "["
  let closer := if inArray then "]" else "\x7d"
  advance
  let s ← commaList closer {} (assignmentPart self inArray) noTrailingCheck
  expectPunctuator closer
  if s.isEmpty then report "W137" t.position []

/-- A destructuring assignment, up to the operator. -/
def assignmentPatternExpression (self : Productions) : Reading Expression := do
  let position := (← token).position
  requireEdition "destructuring assignment" .es2015 position
  self.assignmentPattern
  pure { kind := .pattern, position }

end ScriptLint.Reading

import ScriptLint.Grammar.Vocabulary
import ScriptLint.Reading.Production

/-! # Parts of operands

Literals, what follows an object or a callee, and the words that name or build something.
-/

/-! ## Literals

Numbers, strings and literal words, regular expressions with their flags, and templates with their
substitutions.
-/

namespace ScriptLint.Reading

/-- A number, a string, or one of `true`, `false` and `null`. -/
def literal : Reading Expression := do
  let t ← token
  let strict ← isStrict
  let kind : ExpressionKind :=
    match t.lexeme with
    | .number _ => .number
    | .string value => .string value
    | _ => .literal
  if t.flags.legacyOctal && strict then report "W115" t.position []
  if t.flags.leadingZero then
    if strict then report "E068" t.position [] else report "W046" t.position [t.raw]
  advance
  pure { kind, position := t.position }

/-! ### Regular expressions -/

/-- The flags of a regular expression, each with the feature and the edition that introduced it
unless it has always been there. -/
def regexpFlags : List (Char × Option (String × Edition)) :=
  [('g', none), ('i', none), ('m', none), ('u', some ("Unicode RegExp flag", .es2015)),
    ('y', some ("Sticky RegExp flag", .es2015)), ('s', some ("DotAll RegExp flag", .es2018)),
    ('d', some ("RegExp indices flag", .es2022))]

/-- Report a flag that is unknown, repeated or too new. `seen` are those before. -/
def checkRegexpFlag (position : Position) (seen : List Char) (flag : Char) : Reading Unit :=
  match regexpFlags.lookup flag with
  | none => reportIssue (.invalidRegexp position)
  | some feature? =>
    if seen.contains flag then reportIssue (.invalidRegexp position)
    else feature?.forM fun (feature, since) => requireEdition feature since position

/-- Report the flags that are unknown, repeated or too new. `seen` are those before. -/
def checkRegexpFlags (position : Position) (seen : List Char) : List Char → Reading Unit
  | [] => pure ()
  | flag :: flags => do
    checkRegexpFlag position seen flag
    checkRegexpFlags position (flag :: seen) flags

def regexpLiteral : Reading Expression := do
  let t ← token
  advance
  match t.lexeme with
  | .regexp _ flags => checkRegexpFlags t.position [] flags.toList
  | _ => pure ()
  pure { kind := .regexp, position := t.position }

/-! ### Templates -/

/-- A substitution of a template with the piece of text after it. Tells whether another substitution
follows. -/
def substitution (self : Productions) : Reading Bool := do
  let _ ← allowingIn self.anyExpression
  if ← atPunctuator "\x7d" then
    rescanTemplate
    let piece ← token
    advance
    pure (piece.lexeme matches .template .middle _)
  else
    expectPunctuator "\x7d"
    pure false

def templateLiteral (self : Productions) : Reading Expression := do
  let t ← token
  requireEdition "template literal syntax" .es2015 t.position
  advance
  if t.lexeme matches .template .head _ then repeatWhile (substitution self)
  pure { kind := .template, position := t.position }

/-! ## Access and arguments

What follows an object or a callee: a property after a dot, an index in brackets, arguments in
parentheses.
-/

/-- The name of a property after a dot. -/
def propertyAfterDot : Reading (Option String) := do
  let t ← token
  match t.lexeme with
  | .identifier name | .privateName name =>
    advance
    pure (some name)
  | .keyword name =>
    if (← options).edition = .es3 then reportReserved name t.position
    advance
    pure (some name)
  | _ =>
    reportNoName t
    pure none

/-- Whether a text could be written as a property after a dot, reserved words left aside. -/
def isDotName (text : String) : Bool :=
  match text.toList with
  | [] => false
  | c :: rest =>
    let isStart (c : Char) : Bool := c.isAlpha || c == '_' || c == '$'
    isStart c && rest.all fun c => isStart c || c.isDigit

/-- Report an index that could be written with a dot. -/
def checkIndex (index : Expression) : Reading Unit := do
  match index.kind with
  | .string name =>
    if !(← options).sub && isDotName name && reservation name = .free then
      report "W069" index.position [name]
  | _ => pure ()

/-- An index after its opening bracket. -/
def index (self : Productions) : Reading Unit := do
  let e ← allowingIn self.anyExpression
  checkIndex e
  expectPunctuator "]"

/-- Take the dots in front of a list of elements, if they come next. -/
def spread : Reading Unit := do
  let t ← token
  if t.isPunctuator "..." then
    requireEdition "spread operator" .es2015 t.position
    advance

/-- The next argument of a call. The first one is kept. -/
def argument (self : Productions) (first? : Option Expression) :
    Reading (Round (Option Expression) (Option Expression)) := do
  spread
  let e ← self.element
  pure (.again (first? <|> some e))

/-- Look at what follows a comma between arguments. -/
def argumentComma (_ : Option Expression) (comma : Position) : Reading Unit := do
  if ← atPunctuator ")" then requireEdition "Trailing comma in arguments lists" .es2017 comma

/-- Arguments after their opening parenthesis. Gives the first one. -/
def arguments (self : Productions) : Reading (Option Expression) := do
  let first? ← allowingIn (commaList ")" none (argument self) argumentComma)
  expectPunctuator ")"
  pure first?

/-! ## Meta properties and construction

The words `new`, `import`, `function` and `super` where they begin an operand: with a dot after them
they name a property of the running code, and `new` and `import` also build and load.
-/

/-- The property `new.target`, from the dot on. It belongs to a function. -/
def newTarget (position : Position) : Reading Unit := do
  advance
  expectWord "target"
  requireEdition "new.target" .es2015 position
  if (← tracker).ownerFunction?.isNone then reportUnexpected "new.target" position

/-- An access within the callee of `new`. Tells whether there was one. -/
def calleeAccess (self : Productions) : Reading Bool := do
  match (Symbol.ofToken (← token)).operator? with
  | some .dot =>
    advance
    let _ ← propertyAfterDot
    pure true
  | some .index =>
    advance
    index self
    pure true
  | some .taggedTemplate =>
    let _ ← templateLiteral self
    pure true
  | _ => pure false

/-- Objects that are not meant to be constructed. -/
def unconstructable : List String := ["Number", "String", "Boolean", "Math", "JSON"]

/-- Report the function `Function`, which makes text into code. -/
def reportFunctionFunction (position : Position) : Reading Unit := report "W054" position []

/-- Report the construction of something that should be written otherwise. -/
def checkConstructor (callee : Expression) : Reading Unit := do
  match callee.kind with
  | .identifier name _ =>
    if unconstructable.contains name then report "W053" callee.position [name]
    else if name == "Function" then
      if !(← options).evil then reportFunctionFunction callee.position
    else if name == "Array" then report "W009" callee.position []
    else if name == "Object" then report "W010" callee.position []
  | _ => pure ()

/-- An operand that begins with `new`. -/
def newExpression (self : Productions) : Reading Expression := do
  let position := (← token).position
  advance
  if ← atPunctuator "." then
    newTarget position
    pure { kind := .metaProperty, position }
  else
    let callee ← nested self.operand
    let accessed ← calleeAccess self
    if accessed then repeatWhile (calleeAccess self)
    if ← acceptPunctuator "(" then
      let _ ← arguments self
    else report "W058" (← previous).position []
    if !accessed then checkConstructor callee
    pure { kind := .construction, position }

/-- An operand that begins with `import`: the loading of a module, or `import.meta`. -/
def importExpression (self : Productions) : Reading Expression := do
  let position := (← token).position
  advance
  let t ← token
  if t.isPunctuator "(" then
    requireEdition "dynamic import" .es2020 position
    advance
    let _ ← allowingIn self.element
    expectPunctuator ")"
    pure { kind := .call, position }
  else if t.isPunctuator "." then
    advance
    expectWord "meta"
    if !(← options).module then report "E070" position []
    requireEdition "import.meta" .es2020 position
    pure { kind := .metaProperty, position }
  else
    reportUnexpected t.display position
    pure { kind := .invalid, position }

/-- The property `function.sent`, which only a generator has, and only if it is asked for. -/
def functionSent : Reading Expression := do
  let position := (← token).position
  advance
  advance
  expectWord "sent"
  if !(← options).generatorSent then report "W144" position ["function.sent", "gensent"]
  else if !(← tracker).ownerFunction?.any (·.facts.generator) then report "E071" position []
  pure { kind := .metaProperty, position }

/-- The word `super`, with a call in a constructor or an access in a method after it. -/
def superWord : Reading Expression := do
  let position := (← token).position
  advance
  let owner? := (← tracker).ownerFunction?
  let t ← token
  if t.isPunctuator "(" then
    if !owner?.any (·.facts.constructor) then report "E064" position []
  else if t.isPunctuator "." || t.isPunctuator "[" then
    if !owner?.any (·.facts.method) then report "E063" position []
  else reportUnexpected "super" position
  pure { kind := .superWord, position }

end ScriptLint.Reading

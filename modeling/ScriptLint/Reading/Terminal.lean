import ScriptLint.Reading.Flow

/-! # Expected tokens

Steps that want a certain token to come next. Where another one comes, that is reported and the
token stays; where the input ends, the analysis does too. A missing semicolon is mended where the
language allows it.
-/

namespace ScriptLint.Reading

/-- End the analysis because the program ends too early. -/
def earlyEnd {α : Type} : Reading α := do
  let position := (← token).position
  report "E006" position []
  halt .unrecoverable position

/-- Report something that should not be there. -/
def reportUnexpected (shown : String) (position : Position) : Reading Unit :=
  reportIssue (.unexpected shown position)

/-- Report a token in the place of another one. -/
def reportInstead (wanted : String) (t : Token) : Reading Unit :=
  report "E021" t.position [wanted, t.display]

/-- Report a token in the place of a name. -/
def reportNoName (t : Token) : Reading Unit := report "E030" t.position [t.display]

def reportReserved (name : String) (position : Position) : Reading Unit :=
  report "W024" position [name]

/-- Report a comma that old engines take for one too many. -/
def reportExtraComma (position : Position) : Reading Unit := report "W070" position []

/-- Report that another token comes than the one wanted. -/
def unexpectedInstead (wanted : String) : Reading Unit := do
  let t ← token
  if t.isEnd then earlyEnd else reportInstead wanted t

def expectPunctuator (p : String) : Reading Unit := do
  if ← atPunctuator p then advance else unexpectedInstead p

def expectKeyword (word : String) : Reading Unit := do
  if ← atKeyword word then advance else unexpectedInstead word

/-- Consume the name `word`, which is a keyword in this place only. -/
def expectWord (word : String) : Reading Unit := do
  if ← atWord word then advance else unexpectedInstead word

/-- Consume the punctuator `p` if it comes next. Tells whether it did. -/
def acceptPunctuator (p : String) : Reading Bool := do
  if ← atPunctuator p then
    advance
    pure true
  else pure false

/-- Consume the semicolon that ends a statement, or do without one. It may be missing before a
closing brace, at the end of a line or of the input; after a `do` loop it may be missing on the same
line too, from the edition of 2015 on. -/
def endStatement (afterDo : Bool) : Reading Unit := do
  if ← atPunctuator ";" then advance
  else
    let t ← token
    let o ← options
    let sameLine := !t.flags.newlineBefore && !t.isEnd
    let blockEnds := t.isPunctuator "\x7d"
    let position := (← previous).endPosition
    if sameLine && !blockEnds && !(afterDo && o.edition.isModern) then report "E058" position []
    else if !o.asi && !(blockEnds && sameLine && o.lastsemic) then report "W033" position []

def semicolon : Reading Unit := endStatement false

/-! ## Names -/

/-- A name with its position. -/
structure BoundName where
  name : String
  position : Position
deriving Repr, DecidableEq, Inhabited

/-- Whether the current code is directly in the body of a generator. -/
def inGenerator : Reading Bool := do
  let facts := (← tracker).functionFrame.facts
  pure (facts.generator && !facts.arrow)

/-- Whether `await` is an operator here. -/
def inAsync : Reading Bool := do
  let t ← tracker
  let o ← options
  pure (if t.inFunction then t.functionFrame.facts.async
    else o.module && Edition.es2022 ≤ o.edition)

/-- Whether a word may not be used as a name here. -/
def isReserved (name : String) : Reading Bool := do
  let o ← options
  match reservation name with
  | .always => pure true
  | .strict => pure ((← isStrict) || (name == "yield" && (← inGenerator)))
  | .es3 => pure (o.edition = .es3)
  | .free => pure (name == "await" && o.module)

/-- Consume the name of a binding. A reserved word is reported and serves as one. -/
def bindingName : Reading (Option BoundName) := do
  let t ← token
  if t.isPropertyName then
    if !t.isIdentifier || (← isReserved t.name) then reportReserved t.name t.position
    advance
    pure (some ⟨t.name, t.position⟩)
  else if t.isEnd then earlyEnd
  else
    reportNoName t
    pure none

/-- Declare names of one kind in turn. -/
def declareAll (kind : Scope.BindingKind) (names : List BoundName) : Reading Unit :=
  names.forM fun bound => inScopes (Scope.Action.declare bound.name kind bound.position)

/-- Record a use of a name. Gives the number of the reference. -/
def addReference (name : String) (position : Position) (access : Scope.Access) : Reading Nat := do
  let id := (← tracker).references.size
  track (·.addReference name position access)
  pure id

end ScriptLint.Reading

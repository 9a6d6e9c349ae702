import ScriptLint.Reading.Function

/-! # Properties and object literals

The members of object literals, and what those share with the members of classes.
-/

/-! ## Properties

What object literals and classes share: the words before a property, its key, and methods.
-/

namespace ScriptLint.Reading

open Scope (FunctionFacts)

/-- The two sides of a property that is computed on access. -/
inductive Accessor where
  | getter
  | setter
deriving Repr, DecidableEq, Inhabited

/-- The words before the key of a property. -/
structure Modifiers where
  async : Bool := false
  generator : Bool := false
  accessor? : Option Accessor := none
deriving Repr, DecidableEq, Inhabited

/-- Whether a token after a word such as `get` makes the word the key of a property. -/
def endsKey (t : Token) : Bool := ["(", ",", ":", "\x7d", "=", ";"].any t.isPunctuator

/-- What a word before a key would mean. -/
def modifierOf? (t : Token) : Option Modifiers :=
  if t.flags.escaped then none
  else if t.isName "get" then some { accessor? := some .getter }
  else if t.isName "set" then some { accessor? := some .setter }
  else if t.isName "async" then some { async := true }
  else none

/-- The word before a key, if there is one. -/
def modifierWord : Reading Modifiers := do
  let t ← token
  match modifierOf? t with
  | none => pure {}
  | some m =>
    let next ← peek
    if endsKey next || (m.async && next.flags.newlineBefore) then pure {}
    else
      if m.async then requireEdition "async functions" .es2017 t.position
      else if (← options).edition = .es3 then report "E034" t.position []
      advance
      pure m

/-- All that stands before the key of a property. -/
def modifiers : Reading Modifiers := do
  let m ← modifierWord
  let t ← token
  if t.isPunctuator "*" then
    requireModern "generator methods" t.position
    advance
    pure { m with generator := true }
  else pure m

/-- The key of a property; none if it is computed or missing. -/
def propertyKey (self : Productions) : Reading (Option String) := do
  let t ← token
  match t.lexeme with
  | .identifier _ | .string _ =>
    advance
    pure (some t.display)
  | .keyword name =>
    if (← options).edition = .es3 then reportReserved name t.position
    advance
    pure (some name)
  | .number _ | .bigint _ | .privateName _ =>
    advance
    pure (some t.raw)
  | _ =>
    if t.isPunctuator "[" then computedKey self
    else reportNoName t
    pure none

def method (self : Productions) (key? : Option String) (m : Modifiers) (constructor : Bool) :
    Reading Unit := do
  let position := (← token).position
  let facts : FunctionFacts :=
    { name := key?.getD "", generator := m.generator, async := m.async, method := true, constructor }
  let ps ← functionRest self facts position none
  let shown := key?.getD "(computed)"
  match m.accessor? with
  | some .getter =>
    if ps.count != 0 then
      report "W076" position [(ps.names.head?.map (·.bound.name)).getD "", shown]
  | some .setter => if ps.count != 1 then report "W077" position [shown]
  | none => pure ()

/-! ## Object literals

The properties of an object in braces. A key may be used once, or by one getter and one setter;
a setter wants a getter of the same key.
-/

/-- What a key has been used for. -/
inductive KeyUse where
  | data
  | getter
  | setter
  /-- A getter and a setter. -/
  | pair
deriving Repr, DecidableEq, Inhabited

/-- What a property uses its key for. -/
def KeyUse.ofAccessor : Option Accessor → KeyUse
  | none => .data
  | some .getter => .getter
  | some .setter => .setter

/-- The word for the use in messages. -/
def KeyUse.word : KeyUse → String
  | .data | .pair => "key"
  | .getter => "getter"
  | .setter => "setter"

/-- What two uses of a key are together, unless the second repeats the key. -/
def KeyUse.join? : KeyUse → KeyUse → Option KeyUse
  | .getter, .setter | .setter, .getter => some .pair
  | _, _ => none

/-- The keys of an object literal so far. -/
structure KeyTable where
  uses : List (String × KeyUse) := []
  /-- The setters, the newest first. -/
  setters : List BoundName := []
deriving Repr, Inhabited

namespace KeyTable

/-- What a key has been used for. -/
def use? (keys : KeyTable) (key : String) : Option KeyUse := keys.uses.lookup key

/-- The table with the use of a key in place of what was known of it. -/
def put (keys : KeyTable) (key : String) (use : KeyUse) : KeyTable :=
  { keys with uses := (key, use) :: keys.uses.filter (·.1 != key) }

/-- The table with one more setter. -/
def addSetter (keys : KeyTable) (key : String) (position : Position) : KeyTable :=
  { keys with setters := ⟨key, position⟩ :: keys.setters }

/-- The setters whose key has no getter, in order. -/
def lonelySetters (keys : KeyTable) : List BoundName :=
  keys.setters.reverse.filter fun s => keys.use? s.name = some .setter

end KeyTable

/-- Enter the key of a property into the table, and report a repetition. -/
def recordKey (keys : KeyTable) (key : String) (use : KeyUse) (position : Position) :
    Reading KeyTable := do
  let keys ← match keys.use? key with
    | none => pure (keys.put key use)
    | some earlier =>
      match earlier.join? use with
      | some joined => pure (keys.put key joined)
      | none =>
        report "W075" position [use.word, key]
        pure keys
  -- A setter wants its getter even if it repeats the key.
  pure (if use = .setter then keys.addSetter key position else keys)

/-- What follows the key of a property: a method, a value, or nothing in the short notation. Tells
whether the property can be told apart from what follows it. -/
def propertyValue (self : Productions) (first : Token) (m : Modifiers) (key? : Option String) :
    Reading Bool := do
  if m.accessor?.isSome then
    method self key? m false
    pure true
  else if ← atPunctuator "(" then
    requireEdition "concise methods" .es2015 first.position
    method self key? m false
    pure true
  else if ← acceptPunctuator ":" then
    let _ ← self.element
    pure true
  else
    match if first.isIdentifier && !m.generator && !m.async then key? else none with
    | some name =>
      requireEdition "object short notation" .es2015 first.position
      let _ ← addReference name first.position .read
      pure true
    | none =>
      expectPunctuator ":"
      -- If nothing was consumed, going on would not get any further.
      pure ((← token).position.offset != first.position.offset)

/-- A property of an object literal. -/
def objectProperty (self : Productions) (keys : KeyTable) :
    Reading (Round KeyTable KeyTable) := do
  let first ← token
  if first.isEnd then earlyEnd
  else if first.isPunctuator "..." then
    requireEdition "object spread property" .es2018 first.position
    advance
    let _ ← self.element
    pure (.again keys)
  else
    let m ← modifiers
    let key? ← propertyKey self
    if ← propertyValue self first m key? then
      match key? with
      | none => pure (.again keys)
      | some key => return .again (← recordKey keys key (.ofAccessor m.accessor?) first.position)
    else pure (.done keys)

/-- Look at what follows a comma between properties. -/
def propertyComma (_ : KeyTable) (comma : Position) : Reading Unit := do
  if (← atPunctuator "\x7d") && (← options).edition = .es3 then reportExtraComma comma

def objectLiteral (self : Productions) : Reading Expression := do
  let position := (← token).position
  advance
  let keys ← allowingIn (commaList "\x7d" {} (objectProperty self) propertyComma)
  expectPunctuator "\x7d"
  keys.lonelySetters.forM fun s => report "W078" s.position []
  pure { kind := .object, position }

end ScriptLint.Reading

import ScriptLint.Reading.Terminal

/-! # Productions

What reading a construct gives, as far as later checks care: expressions and statements leave a
summary and no tree. The grammar is recursive through five of its productions. A construct that
contains others is written over a table of these, and the table is tied to the constructs in
`Reading.Program`, so each file of the grammar is about its own constructs only.
-/

namespace ScriptLint.Reading

open Scope (Access)

/-- What an expression turned out to be. -/
inductive ExpressionKind where
  /-- Something that was reported as no expression. -/
  | invalid
  | identifier (name : String) (reference : Nat)
  | number
  | string (value : String)
  /-- `true`, `false`, `null` and big integers. -/
  | literal
  | template
  | regexp
  | thisWord
  | superWord
  | array
  | object
  | function
  | arrow
  | classBody
  | unary
  | delete
  | update
  | binary
  | logical
  /-- An assignment, with the name and the reference where the target is a plain name. -/
  | assignment (target? : Option (String × Nat))
  | conditional
  /-- Expressions separated by commas, with whether the last one has an effect. -/
  | sequence (effect : Bool)
  /-- A member of an object, with its name after a dot. -/
  | member (property? : Option String)
  /-- A member or a call that is skipped where the object is missing. -/
  | optionalChain
  | call
  | construction
  | yield
  | await
  /-- The target of a destructuring assignment. -/
  | pattern
  /-- `new.target`, `import.meta` and `function.sent`. -/
  | metaProperty
  | privateName
deriving Repr, DecidableEq, Inhabited

/-- The summary of an expression. -/
structure Expression where
  kind : ExpressionKind
  position : Position
  parenthesized : Bool := false
deriving Repr, DecidableEq, Inhabited

namespace Expression

/-- Whether the expression may stand as a statement for what it does. -/
def hasEffect (e : Expression) : Bool :=
  match e.kind with
  | .assignment _ | .call | .update | .delete | .yield | .await | .construction
  | .optionalChain => true
  | .sequence effect => effect
  | _ => false

/-- Whether a plain assignment to it is possible. -/
def isAssignable (e : Expression) : Bool :=
  match e.kind with
  | .identifier _ _ | .member _ => true
  | _ => false

def isName (e : Expression) (name : String) : Bool :=
  match e.kind with
  | .identifier spelled _ => spelled == name
  | _ => false

def plainName? (e : Expression) : Option (String × Nat) :=
  match e.kind with
  | .identifier name reference => some (name, reference)
  | _ => none

/-- Whether its value can never be called or constructed. -/
def isPlainValue (e : Expression) : Bool :=
  match e.kind with
  | .number | .string _ | .literal | .template | .regexp | .array | .object => true
  | _ => false

/-- Whether it is an assignment without parentheses around it. -/
def isBareAssignment (e : Expression) : Bool :=
  match e.kind with
  | .assignment _ => !e.parenthesized
  | _ => false

end Expression

/-- The class of a statement. -/
inductive StatementKind where
  | declaration
  | conditional
  | loop
  | block
  /-- `return`, `throw`, `break` and `continue`. -/
  | jump
  | expression
  | empty
  | other
deriving Repr, DecidableEq, Inhabited

/-- The summary of a statement. -/
structure Statement where
  kind : StatementKind
  /-- Whether control never reaches what follows. -/
  exits : Bool := false
  /-- Whether it is a block that begins with an `if`. -/
  filtered : Bool := false
deriving Repr, DecidableEq, Inhabited

/-- What a declaration binds. -/
structure BindingTarget where
  /-- The names, from left to right. -/
  names : List BoundName
  /-- Whether it is a name and no pattern. -/
  plain : Bool
deriving Repr, DecidableEq, Inhabited

/-- The productions through which the grammar is recursive. -/
structure Productions where
  /-- An expression whose operators bind more strongly than the given power. -/
  expression : Nat → Reading Expression
  /-- An operand without the operators after it. -/
  operand : Reading Expression
  /-- A statement, which may be a declaration only in a list of statements. -/
  statement : (inList : Bool) → Reading Statement
  /-- A name or a pattern that is declared. -/
  bindingTarget : Reading BindingTarget
  /-- A pattern that is assigned to. -/
  assignmentPattern : Reading Unit

namespace Productions

def anyExpression (self : Productions) : Reading Expression := self.expression 0

/-- An expression without a comma outside brackets. -/
def element (self : Productions) : Reading Expression := self.expression Symbol.commaPower

end Productions

/-- The next item of a list with the comma after it. Without a comma, the list ends. -/
def commaRound {σ : Type} (closer : String) (item : σ → Reading (Round σ σ))
    (afterComma : σ → Position → Reading Unit) (state : σ) : Reading (Round σ σ) := do
  if ← atPunctuator closer then pure (.done state)
  else
    match ← item state with
    | .done state => pure (.done state)
    | .again state =>
      if ← atPunctuator "," then
        let comma := (← token).position
        advance
        afterComma state comma
        pure (.again state)
      else pure (.done state)

/-- Items with commas between them, up to a closing punctuator, which is left in place. An item may
end the list at once. `afterComma` looks at what follows a comma. -/
def commaList {σ : Type} (closer : String) (state : σ) (item : σ → Reading (Round σ σ))
    (afterComma : σ → Position → Reading Unit) : Reading σ :=
  repeatFrom state (commaRound closer item afterComma)

/-- Nothing to look at after a comma. -/
def noTrailingCheck {σ : Type} (_ : σ) (_ : Position) : Reading Unit := pure ()

/-- Record an assignment to an expression, or report that it cannot be assigned. -/
def assignmentTarget (target : Expression) (access : Access) : Reading Unit :=
  match target.kind with
  | .identifier _ reference => track (·.setAccess reference access)
  | .member _ => pure ()
  | .pattern => if access = .write then pure () else report "E031" target.position []
  | _ => report "E031" target.position []

end ScriptLint.Reading

import ScriptLint.Cursor
import ScriptLint.Directive
import ScriptLint.Edition
import ScriptLint.Halt

/-! # Tokens

What the text of a program is read as: names, literals and punctuation. A token keeps its spelling,
the cursors before and after it, and what was noticed on the way to it. A problem of its spelling
rides on the token and is only reported once the token is used, so looking ahead reports nothing
twice.
-/

namespace ScriptLint

/-- Which piece of a template literal a template token is. -/
inductive TemplatePart where
  /-- A literal without substitutions. -/
  | whole
  /-- From the opening backtick to the first substitution. -/
  | head
  /-- Between two substitutions. -/
  | middle
  /-- From the last substitution to the closing backtick. -/
  | tail
deriving Repr, DecidableEq, Inhabited

/-- What a token stands for. -/
inductive Lexeme where
  /-- A name that is no keyword, with its escapes decoded. -/
  | identifier (name : String)
  /-- A keyword, no letter of which is spelled by an escape. -/
  | keyword (name : String)
  /-- An operator, a delimiter, or a character that no token begins with. -/
  | punctuator
  /-- A backslash that begins no name. -/
  | strayBackslash
  | number (value : Float)
  /-- A number with the suffix `n`. -/
  | bigint (value : Nat)
  | string (value : String)
  /-- A piece of a template. The text is missing where an escape in it has no meaning. -/
  | template (part : TemplatePart) (text? : Option String)
  | regexp (pattern flags : String)
  /-- The name of a private class member, without its `#`. -/
  | privateName (name : String)
  | endOfInput
deriving Repr, Inhabited

/-- A problem with the spelling of a token. -/
structure LexicalIssue where
  code : String
  position : Position
  arguments : List String := []
  /-- Reading on makes no sense. -/
  fatal : Bool := false
  /-- The edition from which on this is no problem. -/
  since? : Option Edition := none
  /-- The code is none of a terminal diagnostic. -/
  regular : Halt.IsRegular code := by decide
deriving Repr, DecidableEq

namespace LexicalIssue

/-- A use of something that an edition introduced. -/
def gated (feature : String) (since : Edition) (position : Position) : LexicalIssue :=
  { code := "W119", position, arguments := [feature, toString since.number], since? := some since }

/-- Something that should not be there. -/
def unexpected (shown : String) (position : Position) : LexicalIssue :=
  { code := "E024", position, arguments := [shown] }

/-- A regular expression with a fault in its pattern or its flags. -/
def invalidRegexp (position : Position) : LexicalIssue := { code := "E016", position }

end LexicalIssue

/-- Facts about the spelling of a token. -/
structure TokenFlags where
  /-- A line ended between the token before and this one. -/
  newlineBefore : Bool := false
  /-- A name holds an escape. -/
  escaped : Bool := false
  /-- An octal number without a marker letter, or a string with an octal escape. -/
  legacyOctal : Bool := false
  /-- A decimal number with a superfluous zero in front. -/
  leadingZero : Bool := false
  /-- An octal or binary number with its marker letter. -/
  prefixedRadix : Bool := false
  /-- A number with separators between its digits. -/
  separators : Bool := false
  /-- A string that a backslash continues on the next line. -/
  lineContinuation : Bool := false
deriving Repr, DecidableEq, Inhabited

/-- A token. -/
structure Token where
  lexeme : Lexeme
  /-- The spelling. -/
  raw : String
  start : Cursor
  stop : Cursor
  flags : TokenFlags := {}
  issues : List LexicalIssue := []
  /-- The directive comments between the token before and this one. -/
  directives : List Directive := []
deriving Repr, Inhabited

namespace Token

/-- The token between two cursors. -/
def between (lexeme : Lexeme) (start stop : Cursor) (flags : TokenFlags)
    (issues : List LexicalIssue) : Token :=
  { lexeme, raw := start.textTo stop, start, stop, flags, issues }

def position (t : Token) : Position := t.start.position

def endPosition (t : Token) : Position := t.stop.position

def span (t : Token) : Span := ⟨t.position.offset, t.endPosition.offset⟩

/-- The name that a name token spells; of any other token, its spelling. -/
def name (t : Token) : String :=
  match t.lexeme with
  | .identifier name | .keyword name | .privateName name => name
  | .strayBackslash => ""
  | _ => t.raw

/-- How messages quote the token. -/
def display (t : Token) : String :=
  match t.lexeme with
  | .identifier name | .keyword name => name
  | .string value => value
  | .endOfInput => "(end)"
  | _ => t.raw

def isPunctuator (t : Token) (p : String) : Bool :=
  match t.lexeme with
  | .punctuator => t.raw == p
  | _ => false

/-- Whether the token is the keyword `word`. A keyword that holds a malformed escape is spelled in
another way and does not count. -/
def isKeyword (t : Token) (word : String) : Bool :=
  match t.lexeme with
  | .keyword _ => t.raw == word
  | _ => false

/-- Whether the token is a name other than a keyword. -/
def isIdentifier (t : Token) : Bool :=
  match t.lexeme with
  | .identifier _ => true
  | _ => false

/-- Whether the token is the name `name`, which is no keyword. -/
def isName (t : Token) (name : String) : Bool :=
  match t.lexeme with
  | .identifier spelled => spelled == name
  | _ => false

def isPropertyName (t : Token) : Bool :=
  match t.lexeme with
  | .identifier _ | .keyword _ => true
  | _ => false

def isEnd (t : Token) : Bool :=
  match t.lexeme with
  | .endOfInput => true
  | _ => false

/-- The first issue that makes reading on senseless. -/
def fatalIssue? (t : Token) : Option LexicalIssue := t.issues.find? (·.fatal)

end Token

end ScriptLint

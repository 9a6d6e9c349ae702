import ScriptLint.Token.Name
import ScriptLint.Token.Number
import ScriptLint.Token.Pattern
import ScriptLint.Token.Text
import ScriptLint.Token.Trivia

/-! # Scanning

The token at a cursor. Scanning never fails: what is wrong with a token is an issue on it, and the
cursor after the token is where scanning goes on. A slash is always read as punctuation, and so is
a closing brace; where the grammar wants a regular expression or the rest of a template there, the
token is read again from its start.
-/

namespace ScriptLint

open Character (isIdStart)

namespace Token

/-- The spellings of the punctuators of more than one character, those that begin with a longer
one before it. -/
def longPunctuators : List (List Char) :=
  ["...", "??=", "??", "?.", "=>", "===", "==", "!==", "!=", "++", "+=", "--", "-=", "**=", "**",
    "*=", "/=", "%=", "^=", "<<=", "<<", "<=", ">>>=", ">>>", ">>=", ">>", ">=", "&&=", "&&", "&=",
    "||=", "||", "|="].map String.toList

/-- Whether a punctuator may stand at the head of a text. The mark of an optional chain may not
stand before a digit, where it is a conditional and a number. -/
def punctuatorFits (spelling text : List Char) : Bool :=
  spelling.isPrefixOf text &&
    !(spelling == ['?', '.'] && text[2]?.any Char.isDigit)

/-- The number of characters of the punctuator at the head of a text. -/
def punctuatorLength (text : List Char) : Nat :=
  ((longPunctuators.find? (punctuatorFits · text)).map List.length).getD 1

/-- The cursor after the given number of characters. -/
def skipChars : Nat → Cursor → Cursor
  | 0, c => c
  | n + 1, c => skipChars n c.advance

/-- The punctuator at a cursor. A character that begins no token is one by itself. -/
def scanPunctuator (start : Cursor) : Token :=
  between .punctuator start (skipChars (punctuatorLength start.rest) start) {} []

/-- The token at a cursor with nothing to skip before it. -/
def scan (start : Cursor) : Token :=
  match start.peek? with
  | none => between .endOfInput start start {} []
  | some ch =>
    if ch = '"' ∨ ch = '\x27' then scanString ch start
    else if ch = TemplateScan.backtick then scanTemplate true start
    else if ch.isDigit ∨ (ch = '.' ∧ start.peekSecondIs Char.isDigit) then scanNumber start
    else if ch = '#' ∧ start.peekSecondIs fun c => isIdStart c || c = '\\' then
      scanPrivateName start
    else if ch = '\\' ∨ isIdStart ch then scanName start
    else scanPunctuator start

/-- The next token from a cursor on, with what stands before it. -/
def next (c : Cursor) : Token :=
  let trivia := Trivia.before c
  let t := scan trivia.stop
  { t with
    flags := { t.flags with newlineBefore := trivia.newline }
    issues := trivia.issues ++ t.issues
    directives := trivia.directives }

/-- The token read again, from its first character, as the piece of a template after a
substitution. -/
def rescanTemplate (t : Token) : Token :=
  let piece := scanTemplate false t.start
  { piece with
    flags := { piece.flags with newlineBefore := t.flags.newlineBefore }
    directives := t.directives }

end Token

end ScriptLint

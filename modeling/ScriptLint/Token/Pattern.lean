import ScriptLint.Character.Basic
import ScriptLint.Token.Basic

/-! # Regular expression literals

A slash begins a regular expression only where an operand is expected, which the text alone does
not tell; so one is read on request, from the start of the slash token. Its body ends at the first
slash outside a character class that no backslash stands before, or unclosed at the end of the line.
-/

namespace ScriptLint

open Character (isLineTerminator isIdContinue)

/-- The body of a regular expression, read up to `stop`. -/
structure PatternScan where
  /-- The characters read so far, in reverse. -/
  reversed : List Char := []
  /-- Whether the cursor stands inside a character class. -/
  inClass : Bool := false
  closed : Bool := false
  stop : Cursor
deriving Repr, Inhabited

namespace PatternScan

/-- Take the next character into the body. -/
def take (ch : Char) (s : PatternScan) : PatternScan :=
  { s with reversed := ch :: s.reversed, stop := s.stop.advance }

/-- Take a backslash and the character after it, unless the line ends there. -/
def escape (s : PatternScan) : PatternScan :=
  let s := s.take '\\'
  match s.stop.peek? with
  | some ch => if isLineTerminator ch then s else s.take ch
  | none => s

theorem length_escape_le (s : PatternScan) :
    s.escape.stop.rest.length ≤ s.stop.advance.rest.length := by
  unfold escape take
  simp only
  split
  · split
    · exact Nat.le_refl _
    · exact Cursor.length_advance_le _
  · exact Nat.le_refl _

/-- Read on to the end of the body. -/
def finish (s : PatternScan) : PatternScan :=
  match _h : s.stop.peek? with
  | none => s
  | some ch =>
    if isLineTerminator ch then s
    else if ch = '\\' then s.escape.finish
    else if ch = '/' ∧ ¬s.inClass then { s with closed := true, stop := s.stop.advance }
    else
      let inClass := if ch = '[' then true else if ch = ']' then false else s.inClass
      { s.take ch with inClass : PatternScan }.finish
termination_by s.stop.rest.length
decreasing_by
  · exact Nat.lt_of_le_of_lt s.length_escape_le (Cursor.length_advance_lt _h)
  · exact Cursor.length_advance_lt _h

end PatternScan

/-- Whether the parentheses of a pattern pair up, outside classes and escapes, where `depth` of
them are open. -/
def groupsPair (inClass : Bool) (depth : Nat) : List Char → Bool
  | [] => depth == 0
  | '\\' :: _ :: cs => groupsPair inClass depth cs
  | '[' :: cs => groupsPair true depth cs
  | ']' :: cs => groupsPair false depth cs
  | c :: cs =>
    if c = '(' ∧ ¬inClass then groupsPair inClass (depth + 1) cs
    else if c = ')' ∧ ¬inClass then
      match depth with
      | 0 => false
      | depth + 1 => groupsPair inClass depth cs
    else groupsPair inClass depth cs

namespace Token

/-- The token read again as a regular expression from its first character, which is a slash. -/
def rescanRegexp (t : Token) : Token :=
  let s := PatternScan.finish { stop := t.start.advance }
  let pattern := s.reversed.reverse
  let stop := if s.closed then s.stop.skipWhile isIdContinue else s.stop
  let flags := if s.closed then s.stop.textTo stop else ""
  let issues : List LexicalIssue :=
    if !s.closed then [{ code := "E015", position := t.position }]
    else if groupsPair false 0 pattern then []
    else [.invalidRegexp t.position]
  { between (.regexp (String.ofList pattern) flags) t.start stop t.flags issues with
    directives := t.directives }

end Token

end ScriptLint

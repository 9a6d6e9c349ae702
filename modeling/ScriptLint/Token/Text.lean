import ScriptLint.Token.Escape

/-! # Strings and templates

The two literals that hold text. Both end at a delimiter that no backslash stands before. A string
also ends, unclosed, before the end of its line, unless a backslash stands there. A template may
run over many lines and is cut into pieces by its substitutions; of an unclosed one nothing is left
to read after it.
-/

namespace ScriptLint

open Character (isLineTerminator)

/-- The cursor after a line terminator, a CRLF pair being one. -/
def Cursor.skipLineEnd (c : Cursor) : Cursor :=
  if c.peek? = some '\r' then c.advance.skip '\n' else c.advance

theorem Cursor.length_skipLineEnd_le (c : Cursor) :
    c.skipLineEnd.rest.length ≤ c.advance.rest.length := by
  unfold skipLineEnd
  split
  · exact c.advance.length_skip_le '\n'
  · exact Nat.le_refl _

/-- A string that was read up to `stop`. -/
structure StringScan where
  /-- The characters that the string denotes so far, in reverse. -/
  reversed : List Char := []
  flags : TokenFlags := {}
  issues : List LexicalIssue := []
  stop : Cursor
deriving Repr, Inhabited

/-- The issue of an escape that names a code point. -/
def Escape.issues (e : Escape) (position : Position) : List LexicalIssue :=
  if e.codePoint then [.gated "Unicode code point escapes" .es2015 position] else []

namespace StringScan

/-- Read a backslash and what it introduces. -/
def escape (s : StringScan) : StringScan :=
  let after := s.stop.advance
  let position := s.stop.position
  match after.peek? with
  | none => { s with stop := after }
  | some ch =>
    if isLineTerminator ch then
      { s with
        flags := { s.flags with lineContinuation := true }
        issues := s.issues ++ [{ code := "W043", position }]
        stop := after.skipLineEnd }
    else
      let e := Escape.read false after
      let s := { s with
        flags := { s.flags with legacyOctal := s.flags.legacyOctal || e.legacyOctal }
        issues := s.issues ++ e.issues position
        stop := e.stop }
      match e.decoded? with
      | some decoded => { s with reversed := decoded :: s.reversed }
      | none => { s with issues := s.issues ++ [{ code := "W044", position }] }

theorem length_escape_le (s : StringScan) :
    s.escape.stop.rest.length ≤ s.stop.advance.rest.length := by
  unfold escape
  simp only
  split
  · exact Nat.le_refl _
  · split
    · exact Nat.le_trans (Cursor.length_skipLineEnd_le _) (Cursor.length_advance_le _)
    · split <;> exact Escape.length_read_le false _

/-- Read on to the end of the string that began at `start`. -/
def finish (quote : Char) (start : Position) (s : StringScan) : StringScan :=
  match _h : s.stop.peek? with
  | none => { s with issues := s.issues ++ [{ code := "W112", position := start }] }
  | some ch =>
    if ch = '\n' ∨ ch = '\r' then
      { s with issues := s.issues ++ [{ code := "W112", position := start }] }
    else if ch = quote then { s with stop := s.stop.advance }
    else if ch = '\\' then finish quote start s.escape
    else finish quote start { s with reversed := ch :: s.reversed, stop := s.stop.advance }
termination_by s.stop.rest.length
decreasing_by
  · exact Nat.lt_of_le_of_lt s.length_escape_le (Cursor.length_advance_lt _h)
  · exact Cursor.length_advance_lt _h

end StringScan

/-- A piece of a template that was read up to `stop`. -/
structure TemplateScan where
  /-- The characters that the piece denotes so far, in reverse; none once an escape had no
  meaning. -/
  reversed? : Option (List Char) := some []
  issues : List LexicalIssue := []
  stop : Cursor
  /-- Whether the piece ended before a substitution. -/
  substitution : Bool := false
deriving Repr, Inhabited

namespace TemplateScan

/-- The backtick, which opens and closes a template. -/
def backtick : Char := '\x60'

/-- Read a backslash and what it introduces. A line end after it denotes nothing. -/
def escape (s : TemplateScan) : TemplateScan :=
  let after := s.stop.advance
  match after.peek? with
  | none => { s with stop := after }
  | some ch =>
    if isLineTerminator ch then { s with stop := after.skipLineEnd }
    else
      let e := Escape.read true after
      { s with
        reversed? := do some ((← e.decoded?) :: (← s.reversed?))
        issues := s.issues ++ e.issues s.stop.position
        stop := e.stop }

/-- Read a character that stands for itself. A line end of any spelling denotes LF. -/
def plain (ch : Char) (s : TemplateScan) : TemplateScan :=
  let stop := s.stop.advance
  let denoted : List Char :=
    -- Of a CRLF pair the LF is denoted when it comes.
    if ch = '\r' then (if stop.peek? = some '\n' then [] else ['\n']) else [ch]
  { s with reversed? := s.reversed?.map (denoted ++ ·), stop }

theorem length_escape_le (s : TemplateScan) :
    s.escape.stop.rest.length ≤ s.stop.advance.rest.length := by
  unfold escape
  simp only
  split
  · exact Nat.le_refl _
  · split
    · exact Nat.le_trans (Cursor.length_skipLineEnd_le _) (Cursor.length_advance_le _)
    · exact Escape.length_read_le true _

/-- Read on to the end of the piece that began at `start`. -/
def finish (start : Position) (s : TemplateScan) : TemplateScan :=
  match _h : s.stop.peek? with
  | none => { s with issues := s.issues ++ [{ code := "E052", position := start, fatal := true }] }
  | some ch =>
    if ch = backtick then { s with stop := s.stop.advance }
    else if ch = '$' ∧ s.stop.peekSecond? = some '\x7b' then
      { s with stop := s.stop.advance.advance, substitution := true }
    else if ch = '\\' then finish start s.escape
    else finish start (s.plain ch)
termination_by s.stop.rest.length
decreasing_by
  · exact Nat.lt_of_le_of_lt s.length_escape_le (Cursor.length_advance_lt _h)
  · exact Cursor.length_advance_lt _h

end TemplateScan

namespace Token

/-- The string at a cursor before its opening quote. -/
def scanString (quote : Char) (start : Cursor) : Token :=
  let s := StringScan.finish quote start.position { stop := start.advance }
  between (.string (String.ofList s.reversed.reverse)) start s.stop s.flags s.issues

/-- The piece of a template at a cursor before its opening backtick or before the brace that ends
a substitution. -/
def scanTemplate (opening : Bool) (start : Cursor) : Token :=
  let s := TemplateScan.finish start.position { stop := start.advance }
  let part : TemplatePart := match opening, s.substitution with
    | true, true => .head
    | true, false => .whole
    | false, true => .middle
    | false, false => .tail
  let text? := s.reversed?.map fun reversed => String.ofList reversed.reverse
  between (.template part text?) start s.stop {} s.issues

end Token

end ScriptLint

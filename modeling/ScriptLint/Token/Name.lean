import ScriptLint.Grammar.Vocabulary
import ScriptLint.Token.Escape

/-! # Names

Identifiers and keywords. A name may spell any of its characters by a Unicode escape, if the
character may stand at that place; an escape that does not fit is an issue and adds nothing to the
name. A word spelled with an escape is never a keyword.
-/

namespace ScriptLint

open Character (isIdPart)

/-- A name that was read up to `stop`. -/
structure NameScan where
  /-- The characters read so far, in reverse. -/
  reversed : List Char := []
  escaped : Bool := false
  issues : List LexicalIssue := []
  stop : Cursor
deriving Repr, Inhabited

namespace NameScan

/-- Whether the character may come next. -/
def admits (s : NameScan) (ch : Char) : Bool := isIdPart s.reversed.isEmpty ch

/-- Read the escape at the cursor. -/
def escape (s : NameScan) : NameScan :=
  let after := s.stop.advance
  let (decoded?, stop) := match after.accept? 'u' with
    | some c => c.unicodeEscape
    | none => (none, after)
  match decoded?.filter s.admits with
  | some ch => { s with reversed := ch :: s.reversed, escaped := true, stop }
  | none =>
    { s with
      stop
      issues := s.issues ++ [.unexpected "\\" s.stop.position] }

theorem length_escape_le (s : NameScan) :
    s.escape.stop.rest.length ≤ s.stop.advance.rest.length := by
  have hread : ∀ after : Cursor, (match after.accept? 'u' with
      | some c => c.unicodeEscape
      | none => (none, after)).2.rest.length ≤ after.rest.length := by
    intro after
    split
    · next hc =>
      exact Nat.le_trans (Cursor.length_unicodeEscape_le _)
        (Nat.le_of_lt (Cursor.length_accept?_lt hc))
    · exact Nat.le_refl _
  unfold escape
  simp only
  split <;> exact hread _

def finish (s : NameScan) : NameScan :=
  match _h : s.stop.peek? with
  | none => s
  | some ch =>
    if ch = '\\' then s.escape.finish
    else if s.admits ch then
      { s with reversed := ch :: s.reversed, stop := s.stop.advance : NameScan }.finish
    else s
termination_by s.stop.rest.length
decreasing_by
  · exact Nat.lt_of_le_of_lt s.length_escape_le (Cursor.length_advance_lt _h)
  · exact Cursor.length_advance_lt _h

def name (s : NameScan) : String := String.ofList s.reversed.reverse

/-- What the name stands for outside a class member. -/
def lexeme (s : NameScan) : Lexeme :=
  if s.reversed.isEmpty then .strayBackslash
  else if !s.escaped && isKeyword s.name then .keyword s.name
  else .identifier s.name

end NameScan

namespace Token

def scanName (start : Cursor) : Token :=
  let s := NameScan.finish { stop := start }
  between s.lexeme start s.stop { escaped := s.escaped } s.issues

/-- The private name at a cursor before a `#`. -/
def scanPrivateName (start : Cursor) : Token :=
  let s := NameScan.finish { stop := start.advance }
  between (.privateName s.name) start s.stop { escaped := s.escaped } s.issues

end Token

end ScriptLint

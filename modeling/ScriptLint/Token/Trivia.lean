import ScriptLint.Character.Basic
import ScriptLint.Token.Basic

/-! # Between tokens

White space, line ends and comments, skipped one piece at a time. On the way the directive comments
are gathered, a non-breaking space is noted, and so is whether a line ended. A comment that is never
closed takes the rest of the text and makes reading on senseless. A line that opens a whole source
with `#!` is a comment of its own.
-/

namespace ScriptLint

open Character (isLineTerminator isSpace)

/-- What was found between two tokens so far. -/
structure Trivia where
  newline : Bool := false
  issues : List LexicalIssue := []
  directives : List Directive := []
  /-- The cursor after what was skipped. -/
  stop : Cursor
deriving Repr, Inhabited

namespace Trivia

/-- The cursor at the end of the current line, before its terminator. -/
def lineEnd (c : Cursor) : Cursor := c.skipWhile (!isLineTerminator ·)

/-- The cursor before the first `*/`, or at the end of a text that has none. -/
def commentEnd (c : Cursor) : Cursor :=
  go c.rest c.position
where
  /-- The same, on the two parts of a cursor. -/
  go : List Char → Position → Cursor
    | [], position => ⟨[], position⟩
    | '*' :: '/' :: rest, position => ⟨'*' :: '/' :: rest, position⟩
    | ch :: rest, position => go rest (position.after ch rest.head?)

/-- Add the directive that a comment is, if it is one. -/
def addComment (text : List Char) (block : Bool) (position : Position) (t : Trivia) : Trivia :=
  { t with directives := t.directives ++ (Directive.ofComment? text block position).toList }

/-- Skip a comment that runs to the end of its line. -/
def skipLineComment (t : Trivia) : Trivia :=
  let body := t.stop.advance.advance
  let stop := lineEnd body
  { t.addComment (body.charsTo stop) false t.stop.position with stop }

/-- Skip a comment between its two delimiters, or up to the end of the text. -/
def skipBlockComment (t : Trivia) : Trivia :=
  let body := t.stop.advance.advance
  let stop := commentEnd body
  let text := body.charsTo stop
  let position := t.stop.position
  let newline := t.newline || text.any isLineTerminator
  -- The closer is still to come unless the text ran out first.
  if stop.rest.isEmpty then
    { t with newline, stop, issues := t.issues ++ [{ code := "E017", position, fatal := true }] }
  else { t.addComment text true position with newline, stop := stop.advance.advance }

/-- Skip the next piece, unless a token or the end of the text comes next. -/
def step? (t : Trivia) : Option Trivia :=
  match t.stop.rest with
  | [] => none
  | '/' :: '/' :: _ => some t.skipLineComment
  | '/' :: '*' :: _ => some t.skipBlockComment
  | ch :: _ =>
    if isLineTerminator ch then some { t with newline := true, stop := t.stop.advance }
    else if ch = '\u00a0' then
      some { t with
        stop := t.stop.advance
        issues := t.issues ++ [{ code := "W125", position := t.stop.position }] }
    else if isSpace ch then some { t with stop := t.stop.advance }
    else none

theorem length_commentEnd_le (c : Cursor) : (commentEnd c).rest.length ≤ c.rest.length := by
  suffices h : ∀ cs position, (commentEnd.go cs position).rest.length ≤ cs.length from h _ _
  intro cs
  induction cs with
  | nil => intro position; simp [commentEnd.go]
  | cons ch cs ih =>
    intro position
    unfold commentEnd.go
    split
    · simp_all
    · simp_all
    · next heq =>
      cases heq
      exact Nat.le_succ_of_le (ih _)

theorem length_skipLineComment_le (t : Trivia) :
    t.skipLineComment.stop.rest.length ≤ t.stop.advance.rest.length :=
  Nat.le_trans (Cursor.length_skipWhile_le _ _) (Cursor.length_advance_le _)

theorem length_skipBlockComment_le (t : Trivia) :
    t.skipBlockComment.stop.rest.length ≤ t.stop.advance.rest.length := by
  have hbody : (commentEnd t.stop.advance.advance).rest.length ≤ t.stop.advance.rest.length :=
    Nat.le_trans (length_commentEnd_le _) (Cursor.length_advance_le _)
  unfold skipBlockComment
  simp only
  split
  · exact hbody
  · exact Nat.le_trans (Nat.le_trans (Cursor.length_advance_le _) (Cursor.length_advance_le _)) hbody

/-- Every piece takes at least one character. -/
theorem length_step?_lt {t t' : Trivia} (ht : t.step? = some t') :
    t'.stop.rest.length < t.stop.rest.length := by
  have hlt : ∀ {ch rest}, t.stop.rest = ch :: rest →
      t.stop.advance.rest.length < t.stop.rest.length := fun {ch rest} hrest =>
    have hch : t.stop.peek? = some ch := by simp [Cursor.peek?, hrest]
    Cursor.length_advance_lt hch
  unfold step? at ht
  split at ht
  · cases ht
  · next hrest =>
    cases ht
    exact Nat.lt_of_le_of_lt t.length_skipLineComment_le (hlt hrest)
  · next hrest =>
    cases ht
    exact Nat.lt_of_le_of_lt t.length_skipBlockComment_le (hlt hrest)
  · next hrest =>
    split at ht
    · cases ht; exact hlt hrest
    · split at ht
      · cases ht; exact hlt hrest
      · split at ht
        · cases ht; exact hlt hrest
        · cases ht

/-- Skip everything before the next token. -/
def skip (t : Trivia) : Trivia :=
  match _h : t.step? with
  | none => t
  | some t' => t'.skip
termination_by t.stop.rest.length
decreasing_by exact length_step?_lt _h

/-- The cursor after the line that a source opens with `#!`. -/
def afterHashbang (c : Cursor) : Cursor :=
  match c.position.offset, c.rest with
  | 0, '#' :: '!' :: _ => lineEnd c
  | _, _ => c

/-- All that stands between a cursor and the next token. -/
def before (c : Cursor) : Trivia := skip { stop := afterHashbang c }

end Trivia

end ScriptLint

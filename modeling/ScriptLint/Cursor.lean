import ScriptLint.Position

/-! # Cursors

A place in a source text together with the text that follows it. Reading never changes a source, so
a cursor can be kept and returned to at no cost: a place to come back to, the start of a token and
the end of one are all cursors.
-/

namespace ScriptLint

/-- The text that is left to read, and the position where it starts. -/
structure Cursor where
  rest : List Char
  position : Position
deriving Repr, DecidableEq, Inhabited

namespace Cursor

/-- The beginning of a source. -/
def ofSource (source : String) : Cursor := ⟨source.toList, .start⟩

/-- The next character. -/
def peek? (c : Cursor) : Option Char := c.rest.head?

def peekSecond? (c : Cursor) : Option Char := c.rest[1]?

/-- Whether the next character exists and satisfies `p`. -/
def peekIs (p : Char → Bool) (c : Cursor) : Bool := c.peek?.any p

/-- Whether the character after the next one exists and satisfies `p`. -/
def peekSecondIs (p : Char → Bool) (c : Cursor) : Bool := c.peekSecond?.any p

/-- The cursor after the next character; at the end of the text, the same cursor. -/
def advance (c : Cursor) : Cursor :=
  match c.rest with
  | [] => c
  | ch :: rest => ⟨rest, c.position.after ch rest.head?⟩

/-- The cursor after the next character, if that is `expected`. -/
def accept? (expected : Char) (c : Cursor) : Option Cursor :=
  if c.peek? = some expected then some c.advance else none

/-- The cursor after the next character if that is `expected`, and the same cursor otherwise. -/
def skip (expected : Char) (c : Cursor) : Cursor := (c.accept? expected).getD c

/-- The cursor before the first character that does not satisfy `p`. -/
def skipWhile (p : Char → Bool) (c : Cursor) : Cursor :=
  go c.rest c.position
where
  /-- The same, on the two parts of a cursor. -/
  go : List Char → Position → Cursor
    | [], position => ⟨[], position⟩
    | ch :: rest, position =>
      if p ch then go rest (position.after ch rest.head?) else ⟨ch :: rest, position⟩

/-- The characters at the head of a text that fill the given number of bytes. -/
def takeBytes : Nat → List Char → List Char
  | _, [] => []
  | n, c :: cs => if n = 0 then [] else c :: takeBytes (n - c.utf8Size) cs

/-- The characters between two cursors of one text. -/
def charsTo (start stop : Cursor) : List Char :=
  takeBytes (stop.position.offset - start.position.offset) start.rest

/-- The text between two cursors. -/
def textTo (start stop : Cursor) : String := String.ofList (start.charsTo stop)

theorem length_advance_le (c : Cursor) : c.advance.rest.length ≤ c.rest.length := by
  unfold advance
  split <;> simp_all

theorem length_advance_lt {c : Cursor} {ch : Char} (hch : c.peek? = some ch) :
    c.advance.rest.length < c.rest.length := by
  unfold advance
  cases hrest : c.rest with
  | nil => simp [peek?, hrest] at hch
  | cons => simp

theorem length_accept?_lt {c c' : Cursor} {expected : Char} (hc : c.accept? expected = some c') :
    c'.rest.length < c.rest.length := by
  unfold accept? at hc
  split at hc
  · next hch =>
    cases hc
    exact length_advance_lt hch
  · cases hc

theorem length_skip_le (expected : Char) (c : Cursor) :
    (c.skip expected).rest.length ≤ c.rest.length := by
  unfold skip accept?
  split
  · exact c.length_advance_le
  · exact Nat.le_refl _

theorem length_go_le (p : Char → Bool) (cs : List Char) (position : Position) :
    (skipWhile.go p cs position).rest.length ≤ cs.length := by
  induction cs generalizing position with
  | nil => simp [skipWhile.go]
  | cons ch cs ih =>
    unfold skipWhile.go
    split
    · exact Nat.le_succ_of_le (ih _)
    · exact Nat.le_refl _

theorem length_skipWhile_le (p : Char → Bool) (c : Cursor) :
    (c.skipWhile p).rest.length ≤ c.rest.length := length_go_le p c.rest c.position

end Cursor

end ScriptLint

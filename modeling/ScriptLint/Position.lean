/-! # Positions and spans

Where something stands in a source text. A position counts lines and columns from one, columns in
characters, and carries the offset in UTF-8 bytes from zero. The offset alone decides the order of
two positions; line and column are the same fact told for a reader.
-/

namespace ScriptLint

/-- A place in a source text. -/
structure Position where
  line : Nat
  column : Nat
  offset : Nat
deriving Repr, DecidableEq

namespace Position

/-- The position of the first character of a text. -/
def start : Position := ⟨1, 1, 0⟩

instance : Inhabited Position := ⟨start⟩

/-- Positions of one text are ordered by their offsets alone. -/
def order (a b : Position) : Ordering := compare a.offset b.offset

/-- The later of two positions; the second where neither is later. -/
def later (a b : Position) : Position := if b.offset < a.offset then a else b

/-- The position after the character `c` at `p`, where `next` is the character that follows it.
A line ends at LF, U+2028, U+2029 and at a CR that no LF follows; the CR of a CRLF pair only moves
the column, since its LF ends the line. -/
def after (p : Position) (c : Char) (next : Option Char) : Position :=
  let offset := p.offset + c.utf8Size
  if c = '\n' ∨ c = '\u2028' ∨ c = '\u2029' ∨ (c = '\r' ∧ next ≠ some '\n') then
    ⟨p.line + 1, 1, offset⟩
  else
    ⟨p.line, p.column + 1, offset⟩

end Position

/-- A half-open range of byte offsets. -/
structure Span where
  start : Nat
  stop : Nat
deriving Repr, DecidableEq, Inhabited

namespace Span

/-- The number of bytes covered. -/
def length (s : Span) : Nat := s.stop - s.start

/-- Whether the span covers nothing, as at the end of input. -/
def isEmpty (s : Span) : Bool := s.start == s.stop

/-- The smallest span that covers both. -/
def cover (s t : Span) : Span := ⟨min s.start t.start, max s.stop t.stop⟩

end Span

end ScriptLint

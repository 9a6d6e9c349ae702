import ScriptLint.Character.Basic
import ScriptLint.Decimal

/-! # Texts

What is read off a text as such: its lines, its blanks and the numbers that users write.
-/

/-! ## Counting lines

The number of lines of a text, by the line ends that positions count.
-/

namespace ScriptLint.Text

/-- The number of line ends in a text: LF, U+2028, U+2029, and a CR that no LF follows. -/
def lineEnds : List Char → Nat
  | [] => 0
  | c :: rest =>
    if c = '\n' ∨ c = '\u2028' ∨ c = '\u2029' ∨ (c = '\r' ∧ rest.head? ≠ some '\n') then
      lineEnds rest + 1
    else lineEnds rest

/-- The number of lines of a text; a text without line ends is one line. -/
def lineCount (text : List Char) : Nat := lineEnds text + 1

/-! ## Blank characters

The Unicode property `White_Space`, by which the words of a comment are separated and texts are
trimmed. It is not the class of spaces between tokens: it also holds the line terminators and the
next-line control, and leaves out the byte order mark.
-/

/-- Whether `c` has the property `White_Space`. -/
def isBlank (c : Char) : Bool :=
  Character.inRanges [(0x9, 0xD), (0x20, 0x20), (0x85, 0x85), (0xA0, 0xA0), (0x1680, 0x1680),
    (0x2000, 0x200A), (0x2028, 0x2029), (0x202F, 0x202F), (0x205F, 0x205F), (0x3000, 0x3000)]
    c.toNat

/-- The text without the blanks at its end. -/
def trimEnd (cs : List Char) : List Char := cs.reverse.dropWhile isBlank |>.reverse

/-- The text without the blanks at either end. -/
def trim (cs : List Char) : List Char := trimEnd (cs.dropWhile isBlank)

/-- Every ASCII blank of the standard library is a blank here. -/
theorem isBlank_of_isWhitespace {c : Char} (hc : c.isWhitespace) : isBlank c := by
  simp only [Char.isWhitespace, Bool.or_eq_true, decide_eq_true_eq] at hc
  rcases hc with ((rfl | rfl) | rfl) | rfl <;> decide

/-! ## Numbers in settings

Whole numbers as users write them in directive comments and on the command line: decimal digits,
with an optional plus sign before them.
-/

/-- The whole number that a text writes, if it is below the bound. -/
def natural? (bound : Nat) (text : String) : Option Nat :=
  let digits := match text.toList with
    | '+' :: rest => rest
    | cs => cs
  if digits.isEmpty || !digits.all Char.isDigit then none
  else
    let value := digitsValue 10 (digits.filterMap (Character.digitValue? 10))
    if value < bound then some value else none

end ScriptLint.Text

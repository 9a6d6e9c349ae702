import ScriptLint.Character.Basic
import ScriptLint.Decimal
import ScriptLint.Token.Basic

/-! # Escapes

What a backslash introduces inside names, strings and templates. An escape that has no meaning is
read up to the character where it fails, so it never takes a delimiter with it.
-/

namespace ScriptLint

open Character (digitValue? isDigitOf ofScalar)

namespace Cursor

/-- Read at most `count` digits onto a value. Gives the number of digits read, the value, and the
cursor after them. -/
def digitsUpTo (radix : Nat) : Nat → Nat → Cursor → Nat × Nat × Cursor
  | 0, value, c => (0, value, c)
  | count + 1, value, c =>
    match c.peek?.bind (digitValue? radix) with
    | none => (0, value, c)
    | some digit =>
      let (found, value, c) := digitsUpTo radix count (value * radix + digit) c.advance
      (found + 1, value, c)

/-- Read exactly `count` digits. Where one is missing, there is no value. -/
def digits? (radix count : Nat) (c : Cursor) : Option Nat × Cursor :=
  let (found, value, c) := digitsUpTo radix count 0 c
  (if found = count then some value else none, c)

/-- The character that a Unicode escape names, after its letter: four hexadecimal digits, or any
number of them in braces. -/
def unicodeEscape (c : Cursor) : Option Char × Cursor :=
  match c.accept? '\x7b' with
  | none =>
    let (value?, c) := c.digits? 16 4
    (value?.map ofScalar, c)
  | some c =>
    let stop := c.skipWhile (isDigitOf 16)
    let digits := (c.charsTo stop).filterMap (digitValue? 16)
    if digits.isEmpty then (none, stop)
    else match stop.accept? '\x7d' with
      | none => (none, stop)
      | some stop =>
        let value := digitsValue 16 digits
        (if value ≤ 0x10FFFF then some (ofScalar value) else none, stop)

theorem length_digitsUpTo_le (radix count value : Nat) (c : Cursor) :
    (digitsUpTo radix count value c).2.2.rest.length ≤ c.rest.length := by
  induction count generalizing value c with
  | zero => exact Nat.le_refl _
  | succ count ih =>
    unfold digitsUpTo
    split
    · exact Nat.le_refl _
    · exact Nat.le_trans (ih _ _) c.length_advance_le

theorem length_digits?_le (radix count : Nat) (c : Cursor) :
    (c.digits? radix count).2.rest.length ≤ c.rest.length :=
  length_digitsUpTo_le radix count 0 c

theorem length_unicodeEscape_le (c : Cursor) :
    c.unicodeEscape.2.rest.length ≤ c.rest.length := by
  unfold unicodeEscape
  split
  · exact c.length_digits?_le 16 4
  · next c' hc =>
    have hc' := Nat.le_of_lt (length_accept?_lt hc)
    have hstop := Nat.le_trans (c'.length_skipWhile_le (isDigitOf 16)) hc'
    simp only
    split
    · exact hstop
    · split
      · exact hstop
      · next hclose => exact Nat.le_trans (Nat.le_of_lt (length_accept?_lt hclose)) hstop

end Cursor

/-- An escape of a string or a template, read up to `stop`. -/
structure Escape where
  /-- The character it stands for, unless it is malformed. -/
  decoded? : Option Char
  /-- Whether it is an octal escape other than that of NUL. -/
  legacyOctal : Bool := false
  /-- Whether it names a code point in braces. -/
  codePoint : Bool := false
  stop : Cursor
deriving Repr, Inhabited

namespace Escape

/-- The letters that stand for control characters. -/
def controls : List (Char × Char) :=
  [('n', '\n'), ('t', '\t'), ('r', '\r'), ('b', '\x08'), ('f', '\x0c'), ('v', '\x0b')]

/-- The escape after a backslash, whose first character is `ch`. Octal escapes have no meaning in
templates. -/
def ofChar (inTemplate : Bool) (ch : Char) (after : Cursor) : Escape :=
  match controls.lookup ch with
  | some control => { decoded? := some control, stop := after }
  | none =>
    if ch = '0' ∧ ¬after.peekIs Char.isDigit then { decoded? := some '\x00', stop := after }
    else if ch.isDigit then
      if inTemplate then { decoded? := none, stop := after }
      else if ch = '8' ∨ ch = '9' then { decoded? := some ch, stop := after }
      else
        let more := if ch ≤ '3' then 2 else 1
        let (_, value, stop) := after.digitsUpTo 8 more (ch.toNat - '0'.toNat)
        { decoded? := some (ofScalar value), legacyOctal := true, stop }
    else if ch = 'x' then
      let (value?, stop) := after.digits? 16 2
      { decoded? := value?.map ofScalar, stop }
    else if ch = 'u' then
      let (decoded?, stop) := after.unicodeEscape
      { decoded?, codePoint := after.peek? = some '\x7b', stop }
    else { decoded? := some ch, stop := after }

/-- The escape after a backslash. -/
def read (inTemplate : Bool) (c : Cursor) : Escape :=
  match c.peek? with
  | none => { decoded? := none, stop := c }
  | some ch => ofChar inTemplate ch c.advance

theorem length_ofChar_le (inTemplate : Bool) (ch : Char) (after : Cursor) :
    (ofChar inTemplate ch after).stop.rest.length ≤ after.rest.length := by
  unfold ofChar
  split
  · exact Nat.le_refl _
  · split
    · exact Nat.le_refl _
    · split
      · split
        · exact Nat.le_refl _
        · split
          · exact Nat.le_refl _
          · exact Cursor.length_digitsUpTo_le _ _ _ _
      · split
        · exact after.length_digits?_le 16 2
        · split
          · exact after.length_unicodeEscape_le
          · exact Nat.le_refl _

theorem length_read_le (inTemplate : Bool) (c : Cursor) :
    (read inTemplate c).stop.rest.length ≤ c.rest.length := by
  unfold read
  split
  · exact Nat.le_refl _
  · exact Nat.le_trans (length_ofChar_le _ _ _) c.length_advance_le

end Escape

end ScriptLint

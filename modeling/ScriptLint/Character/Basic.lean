import ScriptLint.Character.Ranges

/-! # Character classes of the language

Which characters end a line, separate tokens, and spell identifiers. ASCII is decided directly;
above it the identifier classes are the Unicode properties of `Character.Ranges`, with the few
characters that the language adds to them.
-/

namespace ScriptLint.Character

/-- Whether some range of the list holds `n`. -/
def inRanges (ranges : List (Nat × Nat)) (n : Nat) : Bool :=
  ranges.any fun (low, high) => low ≤ n && n ≤ high

/-- Whether one of three lists, cut at U+3000 and U+10000, holds `n`. -/
def inPlanes (low middle high : List (Nat × Nat)) (n : Nat) : Bool :=
  if n < 0x3000 then inRanges low n
  else if n < 0x10000 then inRanges middle n
  else inRanges high n

/-- LF, CR, and the line and paragraph separators. -/
def isLineTerminator (c : Char) : Bool :=
  c = '\n' || c = '\r' || c = '\u2028' || c = '\u2029'

/-- Space characters that do not end a line: the ASCII ones, the no-break space, the byte order
mark, and the Unicode space separators. -/
def isSpace (c : Char) : Bool :=
  c = ' ' || c = '\t' || c = '\x0b' || c = '\x0c' || c = '\u00a0' || c = '\ufeff' ||
    inRanges [(0x1680, 0x1680), (0x2000, 0x200A), (0x202F, 0x202F), (0x205F, 0x205F),
      (0x3000, 0x3000)] c.toNat

/-- Characters that the identifier properties leave out for the sake of normalization, and the
language admits all the same. -/
def isGrandfathered (c : Char) : Bool :=
  [0x1885, 0x1886, 0x2118, 0x212E, 0x309B, 0x309C].contains c.toNat

def isIdStart (c : Char) : Bool :=
  if c.toNat < 0x80 then c.isAlpha || c = '$' || c = '_'
  else inPlanes startRangesLow startRangesMiddle startRangesHigh c.toNat || isGrandfathered c

/-- Whether `c` may continue an identifier. The two zero-width joiners may. -/
def isIdContinue (c : Char) : Bool :=
  if c.toNat < 0x80 then c.isAlphanum || c = '$' || c = '_'
  else
    isIdStart c || c = '\u200c' || c = '\u200d' ||
      inPlanes continueRangesLow continueRangesMiddle continueRangesHigh c.toNat

/-- Whether `c` may stand at its place in an identifier, the first place being apart. -/
def isIdPart (first : Bool) (c : Char) : Bool :=
  if first then isIdStart c else isIdContinue c

/-- The value of `c` as a digit of a radix of at most sixteen. -/
def digitValue? (radix : Nat) (c : Char) : Option Nat :=
  let value :=
    if c.isDigit then some (c.toNat - '0'.toNat)
    else if 'a' ≤ c ∧ c ≤ 'f' then some (c.toNat - 'a'.toNat + 10)
    else if 'A' ≤ c ∧ c ≤ 'F' then some (c.toNat - 'A'.toNat + 10)
    else none
  value.filter (· < radix)

def isDigitOf (radix : Nat) (c : Char) : Bool := (digitValue? radix c).isSome

/-- The character with the scalar value `n`. A value that names no scalar, such as that of a lone
surrogate, gives the replacement character. -/
def ofScalar (n : Nat) : Char := if n.isValidChar then Char.ofNat n else '\ufffd'

end ScriptLint.Character

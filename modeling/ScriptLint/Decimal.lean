/-! # Decimal numerals

A decimal numeral as an exact value, and its rounding to binary64. Digits that are far too large
or far too small for the format are settled before any power of ten is built, so a short text with
a huge exponent costs nothing.
-/

namespace ScriptLint

/-- The number `significand × 10 ^ exponent`. -/
structure Decimal where
  significand : Nat
  exponent : Int
deriving Repr, DecidableEq, Inhabited

/-- The value of a digit sequence in a radix, the most significant digit first. -/
def digitsValue (radix : Nat) (digits : List Nat) : Nat :=
  digits.foldl (fun value digit => value * radix + digit) 0

namespace Decimal

/-- The numeral whose integer part, fraction and exponent are given by their digits. -/
def ofDigits (whole fraction : List Nat) (exponent : Int) : Decimal :=
  ⟨digitsValue 10 (whole ++ fraction), exponent - fraction.length⟩

/-- The place of the first nonzero digit: a nonzero value is at least `10 ^ (magnitude - 1)` and
less than `10 ^ magnitude`. -/
def magnitude (d : Decimal) : Int := (Nat.repr d.significand).length + d.exponent

/-- Whether the value lies beyond every finite binary64 number, by its magnitude alone. -/
def isHuge (d : Decimal) : Bool := d.significand != 0 && 310 < d.magnitude

/-- The nearest binary64 number, infinity where the value is too large. -/
def toFloat (d : Decimal) : Float :=
  if d.significand == 0 || d.magnitude < -400 then 0.0
  else if d.isHuge then 1.0 / 0.0
  else Float.ofScientific d.significand (d.exponent < 0) d.exponent.natAbs

end Decimal

end ScriptLint

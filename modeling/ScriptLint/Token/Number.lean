import ScriptLint.Token.Escape

/-! # Numeric literals

Numbers in the forms of the language: with a radix letter, octal in the old style, decimal with a
superfluous zero, and plain decimal with an optional fraction and exponent; the first and the last
may be big integers. Separators may stand between digits only. A literal that breaks its form, or
that a name or a digit follows at once, is malformed and still has a value.
-/

namespace ScriptLint

open Character (isDigitOf digitValue? isIdStart isIdContinue)

/-- A run of digits with separators among them. -/
structure DigitRun where
  /-- The values of the digits. -/
  digits : List Nat
  /-- Whether there are separators. -/
  separated : Bool
  /-- Whether every separator stands between two digits. -/
  wellFormed : Bool
  stop : Cursor
deriving Repr, Inhabited

/-- Whether every separator of a text stands between two other characters. -/
def separatorsBetween (cs : List Char) : Bool :=
  cs.head? != some '_' && cs.getLast? != some '_' && (cs.zip cs.tail).all (· != ('_', '_'))

/-- The run of digits of a radix at a cursor; it may be empty. -/
def DigitRun.read (radix : Nat) (c : Cursor) : DigitRun :=
  let stop := c.skipWhile fun ch => ch = '_' || isDigitOf radix ch
  let chars := c.charsTo stop
  { digits := chars.filterMap (digitValue? radix)
    separated := chars.contains '_'
    wellFormed := separatorsBetween chars
    stop }

/-- The value of a digit sequence as a binary64 number, rounded after each digit. -/
def digitsFloat (radix : Nat) (digits : List Nat) : Float :=
  digits.foldl (fun value digit => value * Float.ofNat radix + Float.ofNat digit) 0.0

/-- A number that was read up to `stop`. -/
structure Numeral where
  lexeme : Lexeme
  flags : TokenFlags := {}
  malformed : Bool := false
  issues : List LexicalIssue := []
  stop : Cursor
deriving Repr, Inhabited

/-- The fraction and the exponent of a decimal number. -/
structure DecimalTail where
  fraction? : Option DigitRun
  /-- Whether the exponent has a minus sign, and its digits. -/
  exponent? : Option (Bool × DigitRun)
  stop : Cursor
deriving Repr, Inhabited

namespace DecimalTail

/-- The exponent at a cursor before its letter. -/
def readExponent (c : Cursor) : Bool × DigitRun :=
  let c := c.advance
  match c.peek? with
  | some '-' => (true, .read 10 c.advance)
  | some '+' => (false, .read 10 c.advance)
  | _ => (false, .read 10 c)

/-- The fraction and the exponent at a cursor, as far as they are there. -/
def read (c : Cursor) : DecimalTail :=
  let fraction? := (c.accept? '.').map (DigitRun.read 10)
  let c := fraction?.elim c (·.stop)
  let exponent? := if c.peekIs fun ch => ch = 'e' || ch = 'E' then some (readExponent c) else none
  { fraction?, exponent?, stop := exponent?.elim c (·.2.stop) }

def isPresent (t : DecimalTail) : Bool := t.fraction?.isSome || t.exponent?.isSome

def runs (t : DecimalTail) : List DigitRun :=
  t.fraction?.toList ++ t.exponent?.toList.map (·.2)

def separated (t : DecimalTail) : Bool := t.runs.any (·.separated)

/-- Whether all separators are in place and an exponent has digits. -/
def wellFormed (t : DecimalTail) : Bool :=
  t.runs.all (·.wellFormed) && t.exponent?.all fun (_, run) => !run.digits.isEmpty

/-- Whether the number ends with its decimal point. -/
def endsWithPoint (t : DecimalTail) : Bool :=
  t.fraction?.any (·.digits.isEmpty) && t.exponent?.isNone

/-- The exponent as a number; none where its digits are missing. -/
def exponentValue? (t : DecimalTail) : Option Int :=
  match t.exponent? with
  | none => some 0
  | some (negative, run) =>
    let value := digitsValue 10 run.digits
    if run.digits.isEmpty then none else some (if negative then -value else value)

/-- The value of the number with the given whole part; not a number where the digits of the
exponent are missing. -/
def toFloat (whole : List Nat) (t : DecimalTail) : Float :=
  match t.exponentValue? with
  | none => 0.0 / 0.0
  | some exponent =>
    (Decimal.ofDigits whole (t.fraction?.elim [] (·.digits)) exponent).toFloat

end DecimalTail

namespace Numeral

/-- The radix that the letter after a leading zero names. -/
def radix? (c : Cursor) : Option Nat :=
  match c.rest with
  | '0' :: letter :: _ =>
    if letter = 'x' ∨ letter = 'X' then some 16
    else if letter = 'o' ∨ letter = 'O' then some 8
    else if letter = 'b' ∨ letter = 'B' then some 2
    else none
  | _ => none

/-- The issue of a radix that an edition introduced. -/
def radixIssues (radix : Nat) (position : Position) : List LexicalIssue :=
  if radix = 8 then [.gated "Octal integer literal" .es2015 position]
  else if radix = 2 then [.gated "Binary integer literal" .es2015 position]
  else []

def readRadix (radix : Nat) (start : Cursor) : Numeral :=
  let run := DigitRun.read radix start.advance.advance
  let lexeme : Lexeme := match run.stop.accept? 'n' with
    | some _ => .bigint (digitsValue radix run.digits)
    | none => .number (digitsFloat radix run.digits)
  { lexeme
    flags := { prefixedRadix := radix != 16, separators := run.separated }
    malformed := run.digits.isEmpty || !run.wellFormed
    issues := radixIssues radix start.position
    stop := run.stop.skip 'n' }

/-- A number with a superfluous zero in front: octal if its digits allow that, else decimal. A
separator is out of place anywhere in its whole part. -/
def readZero (start : Cursor) : Numeral :=
  let stop := start.skipWhile fun ch => ch = '_' || ch.isDigit
  let chars := start.charsTo stop
  let digits := chars.filterMap (digitValue? 10)
  let misplaced := chars.contains '_'
  if digits.all (· < 8) then
    { lexeme := .number (digitsFloat 8 digits)
      flags := { legacyOctal := true }
      malformed := misplaced
      stop }
  else
    let tail := DecimalTail.read stop
    { lexeme := .number (tail.toFloat digits)
      flags := { leadingZero := true, separators := tail.separated }
      malformed := misplaced || !tail.wellFormed
      stop := tail.stop }

/-- A plain decimal number. -/
def readDecimal (start : Cursor) : Numeral :=
  let whole := DigitRun.read 10 start
  let tail := DecimalTail.read whole.stop
  let arguments := [start.textTo tail.stop]
  let position := start.position
  let leading : List LexicalIssue :=
    if whole.digits.isEmpty then [{ code := "W008", position, arguments }] else []
  let flags : TokenFlags := { separators := whole.separated || tail.separated }
  let malformed := !whole.wellFormed || !tail.wellFormed
  match if tail.isPresent then none else tail.stop.accept? 'n' with
  | some stop =>
    { lexeme := .bigint (digitsValue 10 whole.digits), flags, malformed, issues := leading, stop }
  | none =>
    let trailing : List LexicalIssue :=
      if tail.endsWithPoint then [{ code := "W047", position, arguments }] else []
    { lexeme := .number (tail.toFloat whole.digits)
      flags
      malformed
      issues := leading ++ trailing
      stop := tail.stop }

/-- The number at a cursor, by its form. -/
def read (start : Cursor) : Numeral :=
  match radix? start with
  | some radix => readRadix radix start
  | none =>
    if start.peek? = some '0' ∧ start.peekSecondIs fun ch => ch = '_' || ch.isDigit then
      readZero start
    else readDecimal start

def isBig (n : Numeral) : Bool :=
  match n.lexeme with
  | .bigint _ => true
  | _ => false

/-- Take what is glued to the number, a name or more digits, which makes it malformed. -/
def glue (n : Numeral) : Numeral :=
  if n.stop.peekIs fun ch => isIdStart ch || ch.isDigit then
    { n with malformed := true, stop := n.stop.skipWhile isIdContinue }
  else n

end Numeral

namespace Token

def scanNumber (start : Cursor) : Token :=
  let n := (Numeral.read start).glue
  let position := start.position
  let issues := n.issues ++
    (if n.isBig then [.gated "BigInt" .es2020 position] else []) ++
    (if n.flags.separators then [.gated "Numeric separators" .es2021 position] else []) ++
    (if n.malformed then
      [{ code := "E067", position, arguments := [start.textTo n.stop] }]
    else [])
  between n.lexeme start n.stop n.flags issues

end Token

end ScriptLint

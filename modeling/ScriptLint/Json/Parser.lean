import ScriptLint.Character.Basic
import ScriptLint.Decimal
import ScriptLint.Json.Basic

/-! # Reading JSON

A strict reader: no comments, no trailing commas, no control characters inside strings, no lone
surrogates, no numbers beyond binary64, and at most `maxNesting` arrays and objects inside one
another. A reader of a value returns it with the text that follows.
-/

namespace ScriptLint.Json

/-- The deepest nesting of arrays and objects that is read. -/
def maxNesting : Nat := 127

/-- The text without the white space in front of it. -/
def skipSpace (cs : List Char) : List Char :=
  cs.dropWhile fun c => c = ' ' || c = '\n' || c = '\t' || c = '\r'

/-- The text after `word`, if it begins with it. -/
def dropWord? : List Char → List Char → Option (List Char)
  | [], cs => some cs
  | w :: word, c :: cs => if w = c then dropWord? word cs else none
  | _ :: _, [] => none

/-- Four hexadecimal digits as a UTF-16 unit, with the text after them. -/
def unit16? (cs : List Char) : Option (Nat × List Char) := do
  let digits ← (cs.take 4).mapM (Character.digitValue? 16)
  if digits.length = 4 then some (digitsValue 16 digits, cs.drop 4) else none

/-- The character of an escape, after its backslash, with the text after it. A leading surrogate
must be followed by the escape of a trailing one. -/
def escape? : List Char → Option (Char × List Char)
  | '"' :: cs => some ('"', cs)
  | '\\' :: cs => some ('\\', cs)
  | '/' :: cs => some ('/', cs)
  | 'b' :: cs => some ('\x08', cs)
  | 'f' :: cs => some ('\x0c', cs)
  | 'n' :: cs => some ('\n', cs)
  | 'r' :: cs => some ('\r', cs)
  | 't' :: cs => some ('\t', cs)
  | 'u' :: cs => do
    let (high, rest) ← unit16? cs
    if 0xDC00 ≤ high ∧ high < 0xE000 then none
    else if 0xD800 ≤ high ∧ high < 0xDC00 then do
      let (low, rest) ← dropWord? ['\\', 'u'] rest >>= unit16?
      if 0xDC00 ≤ low ∧ low < 0xE000 then
        some (Char.ofNat (0x10000 + (high - 0xD800) * 0x400 + (low - 0xDC00)), rest)
      else none
    else some (Char.ofNat high, rest)
  | _ => none

/-- The rest of a string after its opening quote. The fuel bounds the number of characters. -/
def stringTail? : Nat → List Char → List Char → Option (String × List Char)
  | 0, _, _ => none
  | _ + 1, _, [] => none
  | fuel + 1, acc, c :: cs =>
    if c = '"' then some (String.ofList acc.reverse, cs)
    else if c = '\\' then do
      let (decoded, rest) ← escape? cs
      stringTail? fuel (decoded :: acc) rest
    else if c.toNat < 0x20 then none
    else stringTail? fuel (c :: acc) cs

/-- The digits in front of a text, with the text after them. -/
def digits (cs : List Char) : List Char × List Char :=
  (cs.takeWhile Char.isDigit, cs.dropWhile Char.isDigit)

/-- Digits that may not be missing. -/
def digits? (cs : List Char) : Option (List Char × List Char) :=
  match digits cs with
  | ([], _) => none
  | found => some found

/-- The value of each digit character. -/
def digitValues (cs : List Char) : List Nat := cs.filterMap (Character.digitValue? 10)

/-- A number. The whole part has no leading zero; a fraction and an exponent have digits. -/
def number? (cs : List Char) : Option (Json × List Char) := do
  let (negative, cs) := match cs with
    | '-' :: rest => (true, rest)
    | _ => (false, cs)
  let (whole, rest) ← digits? cs
  if whole.head? = some '0' ∧ whole.length ≠ 1 then none
  let (fraction, rest) ← match rest with
    | '.' :: rest => digits? rest
    | _ => some ([], rest)
  let (exponent, rest) ← match rest with
    | e :: rest =>
      if e = 'e' ∨ e = 'E' then
        match rest with
        | '-' :: rest => (digits? rest).map fun (ds, rest) => (some ('-' :: ds), rest)
        | '+' :: rest => (digits? rest).map fun (ds, rest) => (some ds, rest)
        | _ => (digits? rest).map fun (ds, rest) => (some ds, rest)
      else some (none, e :: rest)
    | [] => some (none, [])
  let value := digitsValue 10 (digitValues whole)
  if fraction.isEmpty ∧ exponent.isNone ∧ ¬(negative ∧ value = 0) then
    if (⟨value, 0⟩ : Decimal).toFloat.isInf then none
    else some (.integer (if negative then -value else value), rest)
  else
    let power : Int := match exponent with
      | none => 0
      | some ('-' :: ds) => -(digitsValue 10 (digitValues ds) : Int)
      | some ds => digitsValue 10 (digitValues ds)
    if (Decimal.ofDigits (digitValues whole) (digitValues fraction) power).toFloat.isInf then none
    else
      let literal := (if negative then ['-'] else []) ++ whole ++
        (if fraction.isEmpty then [] else '.' :: fraction) ++
        (match exponent with
          | none => []
          | some ds => 'e' :: ds)
      some (.decimal (String.ofList literal), rest)

mutual

/-- A value, after white space. The fuel bounds the number of steps and `depth` the nesting. -/
def value? : Nat → Nat → List Char → Option (Json × List Char)
  | 0, _, _ => none
  | fuel + 1, depth, cs =>
    match skipSpace cs with
    | '"' :: rest => (stringTail? (rest.length + 1) [] rest).map fun (s, rest) => (.string s, rest)
    | '[' :: rest =>
      if depth = 0 then none
      else match skipSpace rest with
        | ']' :: rest => some (.array [], rest)
        | rest => items? fuel (depth - 1) [] rest
    | '\x7b' :: rest =>
      if depth = 0 then none
      else match skipSpace rest with
        | '\x7d' :: rest => some (.object [], rest)
        | rest => members? fuel (depth - 1) [] rest
    | 'n' :: rest => (dropWord? ['u', 'l', 'l'] rest).map fun rest => (.null, rest)
    | 't' :: rest => (dropWord? ['r', 'u', 'e'] rest).map fun rest => (.bool true, rest)
    | 'f' :: rest => (dropWord? ['a', 'l', 's', 'e'] rest).map fun rest => (.bool false, rest)
    | rest => number? rest

/-- The items of an array from the next one on, with those already read in reverse. -/
def items? : Nat → Nat → List Json → List Char → Option (Json × List Char)
  | 0, _, _, _ => none
  | fuel + 1, depth, acc, cs => do
    let (item, rest) ← value? fuel depth cs
    match skipSpace rest with
    | ',' :: rest => items? fuel depth (item :: acc) rest
    | ']' :: rest => some (.array (item :: acc).reverse, rest)
    | _ => none

/-- The members of an object from the next one on, with those already read in reverse. -/
def members? : Nat → Nat → List (String × Json) → List Char → Option (Json × List Char)
  | 0, _, _, _ => none
  | fuel + 1, depth, acc, cs =>
    match skipSpace cs with
    | '"' :: rest => do
      let (name, rest) ← stringTail? (rest.length + 1) [] rest
      match skipSpace rest with
      | ':' :: rest => do
        let (value, rest) ← value? fuel depth rest
        match skipSpace rest with
        | ',' :: rest => members? fuel depth ((name, value) :: acc) rest
        | '\x7d' :: rest => some (.object ((name, value) :: acc).reverse, rest)
        | _ => none
      | _ => none
    | _ => none

end

/-- The value at the head of a text, with the text after it. -/
def parseHead? (text : String) : Option (Json × String) :=
  let cs := text.toList
  (value? (2 * cs.length + 2) maxNesting cs).map fun (value, rest) => (value, String.ofList rest)

/-- Whether nothing but white space is left. -/
def isSpace (text : String) : Bool := (skipSpace text.toList).isEmpty

/-- The value that a whole text writes. -/
def parse? (text : String) : Option Json :=
  match parseHead? text with
  | some (value, rest) => if isSpace rest then some value else none
  | none => none

end ScriptLint.Json



/-! # JSON

The values of configuration files and reports, and how they are printed.
-/

/-! ## JSON values

The values of configuration files and reports. Whole numbers are kept exactly; any other number is
kept as it was written, since no setting takes one. The members of an object keep their order and
may repeat a name, so that a reader can reject repetitions.
-/

namespace ScriptLint

/-- A JSON value. -/
inductive Json where
  | null
  | bool (value : Bool)
  | integer (value : Int)
  | decimal (literal : String)
  | string (value : String)
  | array (items : List Json)
  | object (members : List (String × Json))
deriving Repr, Inhabited

namespace Json

/-- The value of the last member with the name. -/
def get? (name : String) : Json → Option Json
  | .object members => (members.reverse.find? fun member => member.1 == name).map (·.2)
  | _ => none

/-- A number that counts something. -/
def natural (n : Nat) : Json := .integer n

/-- A value that may be missing. -/
def optional {α : Type} (encode : α → Json) : Option α → Json
  | none => .null
  | some a => encode a

/-- A list of values of one kind. -/
def list {α : Type} (encode : α → Json) (items : List α) : Json := .array (items.map encode)

end Json

end ScriptLint

/-! ## Printing JSON

Two layouts of the same value: on one line without spaces, and indented by two spaces with one item
or member a line, where an empty list is written as its two brackets. Strings are written with the
shortest escapes and without any for characters beyond ASCII, unless the layout asks for one.
-/

namespace ScriptLint.Json

/-- A lowercase hexadecimal digit. -/
def hexDigit (n : Nat) : Char := Char.ofNat (if n < 10 then 0x30 + n else 0x57 + n)

/-- The escape of a character by its four-digit code. -/
def unicodeEscape (c : Char) : String :=
  let n := c.toNat
  "\\u" ++ String.ofList
    [hexDigit (n / 4096 % 16), hexDigit (n / 256 % 16), hexDigit (n / 16 % 16), hexDigit (n % 16)]

/-- How a character is written inside a string. `strange` picks further characters to be written
by their code. -/
def escaped (strange : Char → Bool) (c : Char) : String :=
  if c = '"' then "\\\""
  else if c = '\\' then "\\\\"
  else if c = '\x08' then "\\b"
  else if c = '\t' then "\\t"
  else if c = '\n' then "\\n"
  else if c = '\x0c' then "\\f"
  else if c = '\r' then "\\r"
  else if c.toNat < 0x20 || strange c then unicodeEscape c
  else c.toString

/-- A string in its quotes. -/
def quoted (strange : Char → Bool) (s : String) : String :=
  s.toList.foldl (fun out c => out ++ escaped strange c) "\"" ++ "\""

mutual

/-- The one-line layout, appended to `out`. -/
def addCompact (strange : Char → Bool) (out : String) : Json → String
  | .null => out ++ "null"
  | .bool b => out ++ if b then "true" else "false"
  | .integer n => out ++ toString n
  | .decimal literal => out ++ literal
  | .string s => out ++ quoted strange s
  | .array items => addItems strange (out ++ "[") true items ++ "]"
  | .object members => addMembers strange (out ++ "\x7b") true members ++ "\x7d"

/-- The items of a one-line array, a comma before each but the first. -/
def addItems (strange : Char → Bool) (out : String) (first : Bool) : List Json → String
  | [] => out
  | item :: items =>
    let out := addCompact strange (if first then out else out ++ ",") item
    addItems strange out false items

/-- The members of a one-line object. -/
def addMembers (strange : Char → Bool) (out : String) (first : Bool) :
    List (String × Json) → String
  | [] => out
  | (name, value) :: members =>
    let out := (if first then out else out ++ ",") ++ quoted strange name ++ ":"
    addMembers strange (addCompact strange out value) false members

end

/-- Characters above ASCII that some readers take for the end of a line. -/
def endsLine (c : Char) : Bool := c = '\u0085' || c = '\u2028' || c = '\u2029'

/-- The value on a single line, whatever a reader takes for the end of one. -/
def line (value : Json) : String := addCompact endsLine "" value

/-- A line break and the indentation of the given level. -/
def lineBreak (level : Nat) : String := "\n" ++ String.ofList (List.replicate (2 * level) ' ')

mutual

/-- The indented layout, appended to `out`, inside `level` arrays and objects. -/
def addIndented (level : Nat) (out : String) : Json → String
  | .array (item :: items) =>
    let out := addIndented (level + 1) (out ++ "[" ++ lineBreak (level + 1)) item
    addIndentedItems level out items ++ lineBreak level ++ "]"
  | .object ((name, value) :: members) =>
    let out := out ++ "\x7b" ++ lineBreak (level + 1) ++ quoted (fun _ => false) name ++ ": "
    addIndentedMembers level (addIndented (level + 1) out value) members ++ lineBreak level ++
      "\x7d"
  | other => addCompact (fun _ => false) out other

/-- The further items of an indented array. -/
def addIndentedItems (level : Nat) (out : String) : List Json → String
  | [] => out
  | item :: items =>
    let out := addIndented (level + 1) (out ++ "," ++ lineBreak (level + 1)) item
    addIndentedItems level out items

/-- The further members of an indented object. -/
def addIndentedMembers (level : Nat) (out : String) : List (String × Json) → String
  | [] => out
  | (name, value) :: members =>
    let out := out ++ "," ++ lineBreak (level + 1) ++ quoted (fun _ => false) name ++ ": "
    addIndentedMembers level (addIndented (level + 1) out value) members

end

/-- The value with one item or member a line. -/
def indented (value : Json) : String := addIndented 0 "" value

end ScriptLint.Json

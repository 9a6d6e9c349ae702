import ScriptLint.Json.Basic
import ScriptLint.Options.Basic

/-! # Reading options

Options are read from the members of a JSON object. A member may stand once only; what is not there
keeps its value, and names that belong to no option are passed over. The three rules are given by a
keyword or by a flag, which may also be spelled as a keyword. A record may also be written as the
list of its values in order, with values left out at the end.
-/

namespace ScriptLint

/-- Why a value is not accepted as an option. -/
inductive OptionError where
  /-- A number that names no edition. -/
  | unsupportedEdition (number : Nat)
  /-- A word that is no keyword of the option. -/
  | badWord (option word : String)
  /-- A value of the wrong kind, or an option that is given twice. -/
  | malformed
deriving Repr, DecidableEq

/-- What a user is told. A value of the wrong kind is described by the reader of the file format,
so there is no text for it here. -/
def OptionError.message? : OptionError → Option String
  | .unsupportedEdition number => some s!"unsupported esversion {number}"
  | .badWord option word => some s!"bad {option} value '{word}'"
  | .malformed => none

/-- A switch that is given by a flag or by a word. -/
inductive Choice where
  | flag (value : Bool)
  | word (text : String)
deriving Repr, DecidableEq

/-- A choice as it stands in a configuration. -/
def Choice.read : Json → Except OptionError Choice
  | .bool b => .ok (.flag b)
  | .string s => .ok (.word s)
  | _ => .error .malformed

/-- The rule that a choice stands for. -/
def StrictRule.ofChoice : Choice → Except OptionError StrictRule
  | .flag false | .word "false" => .ok .off
  | .flag true | .word "true" => .ok .required
  | .word "global" => .ok .global
  | .word "implied" => .ok .implied
  | .word other => .error (.badWord "strict" other)

/-- The rule that a choice stands for. -/
def UnusedRule.ofChoice : Choice → Except OptionError UnusedRule
  | .flag false | .word "false" => .ok .off
  | .flag true | .word "true" | .word "last-param" => .ok .lastParam
  | .word "vars" => .ok .vars
  | .word "strict" => .ok .strict
  | .word other => .error (.badWord "unused" other)

/-- The rule that a choice stands for. -/
def ShadowRule.ofChoice : Choice → Except OptionError ShadowRule
  | .flag true | .word "true" => .ok .allow
  | .flag false | .word "false" | .word "inner" => .ok .inner
  | .word "outer" => .ok .outer
  | .word other => .error (.badWord "shadow" other)

namespace Options

/-- Counts are kept in 64 bits. -/
def countBound : Nat := UInt64.size

/-- Edition numbers are kept in 32 bits. -/
def editionBound : Nat := UInt32.size

/-- A whole number below a bound. -/
def readNatural (bound : Nat) : Json → Except OptionError Nat
  | .integer (.ofNat n) => if n < bound then .ok n else .error .malformed
  | _ => .error .malformed

def readBool : Json → Except OptionError Bool
  | .bool b => .ok b
  | _ => .error .malformed

def readString : Json → Except OptionError String
  | .string s => .ok s
  | _ => .error .malformed

def readEdition (value : Json) : Except OptionError Edition := do
  let n ← readNatural editionBound value
  match Edition.ofNumber? n with
  | some edition => .ok edition
  | none => .error (.unsupportedEdition n)

def readStrings : Json → Except OptionError (List String)
  | .array items => items.mapM readString
  | _ => .error .malformed

/-- Read a record from its members. It may also be written as the list of its values; a value too
many is noticed once the others are read. -/
def readRecord {α : Type} (fields : List String)
    (readAll : List (String × Json) → Except OptionError α) : Json → Except OptionError α
  | .object members => readAll members
  | .array items => do
    let a ← readAll (fields.zip items)
    if items.length ≤ fields.length then .ok a else .error .malformed
  | _ => .error .malformed

/-- The switches for unfinished syntax. -/
def readUnstable : Json → Except OptionError Bool :=
  readRecord ["gensent"] fun members =>
    match members.filter fun member => member.1 == "gensent" with
    | [] => .ok false
    | [(_, value)] => readBool value
    | _ => .error .malformed

/-- The names of all options, in the order in which a list gives their values. -/
def fieldNames : List String :=
  ["esversion", "strict", "module", "maxerr", "max_depth", "undef", "unused", "latedef", "shadow",
    "asi", "boss", "evil", "debug", "eqeqeq", "forin", "funcscope", "globalstrict", "multistr",
    "nonbsp", "lastsemic", "expr", "sub", "elision", "withstmt", "unstable", "disabled"]

/-- The options with the one of the given name set. -/
def readField (o : Options) (name : String) (value : Json) : Except OptionError Options := do
  match name with
  | "esversion" => return { o with edition := ← readEdition value }
  | "strict" => return { o with strict := ← StrictRule.ofChoice (← Choice.read value) }
  | "maxerr" => return { o with maxErrors := ← readNatural countBound value }
  | "max_depth" => return { o with maxDepth := ← readNatural countBound value }
  | "unused" => return { o with unused := ← UnusedRule.ofChoice (← Choice.read value) }
  | "shadow" => return { o with shadow := ← ShadowRule.ofChoice (← Choice.read value) }
  | "unstable" => return { o with generatorSent := ← readUnstable value }
  | "disabled" => return { o with disabled := .ofList (← readStrings value) }
  | _ =>
    match Flag.ofName? name with
    | some flag => return o.set flag (← readBool value)
    | none => return o

/-- Read members in order; `seen` holds the names of the options that were given before. -/
def readFields (o : Options) (seen : List String) :
    List (String × Json) → Except OptionError Options
  | [] => .ok o
  | (name, value) :: members => do
    if seen.contains name then .error .malformed
    else
      let o ← readField o name value
      readFields o (if fieldNames.contains name then name :: seen else seen) members

/-- The options that a JSON value gives. -/
def read : Json → Except OptionError Options := readRecord fieldNames (readFields {} [])

end Options

end ScriptLint

import ScriptLint.Globals
import ScriptLint.Json.Parser
import ScriptLint.Options.Reader

/-! # Settings

What a run takes from its configuration: options and known globals. A configuration file is a JSON
object that holds the options as members, next to `globals`, which maps names to whether they may be
assigned, and `predef`, which lists names that may not.
-/

namespace ScriptLint

/-- Options and known globals. -/
structure Settings where
  options : Options := {}
  known : KnownGlobals := {}
deriving Repr, DecidableEq, Inhabited

namespace Settings

/-- A table of globals. -/
def readGlobals : Json → Except OptionError (List (String × Bool))
  | .object members => members.mapM fun (name, value) => return (name, ← Options.readBool value)
  | _ => .error .malformed

/-- The value of the member with the name, which may stand once at most; the default without it. -/
def readOnce {α : Type} (name : String) (fallback : α) (read : Json → Except OptionError α)
    (members : List (String × Json)) : Except OptionError α :=
  match members.filter fun member => member.1 == name with
  | [] => .ok fallback
  | [(_, value)] => read value
  | _ => .error .malformed

/-- The settings of a configuration object. A name of both lists is taken from `globals`. The two
lists are looked at before the options. -/
def ofMembers (members : List (String × Json)) : Except OptionError Settings := do
  let globals ← readOnce "globals" [] readGlobals members
  let predefined ← readOnce "predef" [] Options.readStrings members
  let options ← Options.readFields {} [] members
  let known := predefined.foldl (·.insertNew · false) (KnownGlobals.ofList globals)
  return { options, known }

/-- The settings of the text of a configuration file. What follows the object is looked at last. -/
def ofText (text : String) : Except OptionError Settings :=
  match Json.parseHead? text with
  | some (.object members, rest) => do
    let settings ← ofMembers members
    if Json.isSpace rest then .ok settings else .error .malformed
  | _ => .error .malformed

end Settings

end ScriptLint

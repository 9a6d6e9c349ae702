import ScriptLint.Edition

/-! # Predefined globals

Names that a program may use without declaring them: those of the language, each from some edition
on, and those that the user lists, each with whether it may be assigned.
-/

namespace ScriptLint

namespace StandardGlobal

/-- The values of the global object that can never be assigned. -/
def readOnly : List String := ["NaN", "Infinity", "undefined"]

/-- The names that each edition added. -/
def introduced : List (Edition × List String) :=
  [(.es3, ["Array", "Boolean", "Date", "decodeURI", "decodeURIComponent", "encodeURI",
      "encodeURIComponent", "Error", "eval", "EvalError", "Function", "hasOwnProperty",
      "isFinite", "isNaN", "Math", "Number", "Object", "parseInt", "parseFloat", "RangeError",
      "ReferenceError", "RegExp", "String", "SyntaxError", "TypeError", "URIError"]),
    (.es5, ["JSON"]),
    (.es2015, ["ArrayBuffer", "DataView", "Float32Array", "Float64Array", "Int8Array",
      "Int16Array", "Int32Array", "Map", "Promise", "Proxy", "Reflect", "Set", "Symbol",
      "Uint8Array", "Uint16Array", "Uint32Array", "Uint8ClampedArray", "WeakMap", "WeakSet"]),
    (.es2017, ["Atomics", "SharedArrayBuffer"]),
    (.es2020, ["BigInt", "BigInt64Array", "BigUint64Array", "globalThis"]),
    (.es2021, ["FinalizationRegistry", "WeakRef"])]

/-- Whether an edition predefines the name and, if so, whether it may be assigned. The arguments of
a function count as predefined everywhere. -/
def writable? (name : String) (edition : Edition) : Option Bool :=
  if readOnly.contains name then some false
  else if name == "arguments" then some true
  else if introduced.any fun (since, names) => since ≤ edition && names.contains name then some true
  else none

end StandardGlobal

/-- Globals that are known by name, each with whether it may be assigned. A name stands once. -/
structure KnownGlobals where
  entries : List (String × Bool) := []
deriving Repr, DecidableEq, Inhabited

namespace KnownGlobals

/-- Whether a name may be assigned, if it is known. -/
def writable? (g : KnownGlobals) (name : String) : Option Bool := g.entries.lookup name

def contains (g : KnownGlobals) (name : String) : Bool := (g.writable? name).isSome

def erase (g : KnownGlobals) (name : String) : KnownGlobals :=
  ⟨g.entries.filter fun entry => entry.1 != name⟩

/-- Make a name known, in place of what was known of it. -/
def insert (g : KnownGlobals) (name : String) (writable : Bool) : KnownGlobals :=
  ⟨(name, writable) :: (g.erase name).entries⟩

/-- Make a name known unless it is known already. -/
def insertNew (g : KnownGlobals) (name : String) (writable : Bool) : KnownGlobals :=
  if g.contains name then g else g.insert name writable

/-- The globals of a list, the later of two entries for a name taking the place of the earlier. -/
def ofList (entries : List (String × Bool)) : KnownGlobals :=
  entries.foldl (fun g (name, writable) => g.insert name writable) {}

end KnownGlobals

end ScriptLint

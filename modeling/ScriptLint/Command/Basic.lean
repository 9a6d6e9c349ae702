import ScriptLint.Report
import ScriptLint.Settings

/-! # The command line

What a run is asked for on the command line, and how that changes the settings of the configuration
file. Where both say something, the command line wins.
-/

namespace ScriptLint

/-- The arguments of a run. -/
structure Command where
  /-- The files and directories that are named. -/
  named : List String := []
  config? : Option String := none
  edition? : Option Edition := none
  maxErrors? : Option Nat := none
  module : Bool := false
  undef : Bool := false
  unused : Bool := false
  /-- Globals with whether they may be assigned. -/
  globals : List (String × Bool) := []
  /-- Codes that are never reported. -/
  disabled : List String := []
  reporter? : Option Reporter := none
  /-- How many files may be analyzed at the same time; zero leaves that to the machine. -/
  jobs? : Option Nat := none
  verbose : Bool := false
deriving Repr, DecidableEq, Inhabited

namespace Command

/-- What is analyzed: the current directory, unless something is named. -/
def paths (c : Command) : List String := if c.named.isEmpty then ["."] else c.named

/-- The format of the report. -/
def reporter (c : Command) : Reporter := c.reporter?.getD .text

/-- The options with what the command line says of them. -/
def adjustOptions (c : Command) (o : Options) : Options :=
  { o with
    edition := c.edition?.getD o.edition
    maxErrors := c.maxErrors?.getD o.maxErrors
    module := c.module || o.module
    undef := c.undef || o.undef
    unused := if c.unused then .lastParam else o.unused
    disabled := o.disabled.insertAll c.disabled }

/-- The settings with what the command line says of them. -/
def adjust (c : Command) (s : Settings) : Settings :=
  { options := c.adjustOptions s.options
    known := c.globals.foldl (fun known (name, writable) => known.insert name writable) s.known }

/-- How many workers analyze a number of files, on a machine that runs `available` at a time. -/
def workers (jobs? : Option Nat) (available files : Nat) : Nat :=
  let wanted := match jobs? with
    | some 0 | none => available
    | some n => n
  max (min wanted files) 1

end Command

end ScriptLint

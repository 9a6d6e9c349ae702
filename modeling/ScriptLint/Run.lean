import ScriptLint.Command.Basic
import ScriptLint.Files.Basic

/-! # Runs

A whole run: the configuration file is read, the files are found, every one of them is analyzed, and
the report is made. The first thing that cannot be done ends the run without a report; a fault in an
analyzed program never does.
-/

namespace ScriptLint

/-- Why a run ends without a report. -/
inductive RunError where
  | unreadable (path : String) (reason : ReadError)
  | badConfig (path : String) (reason : OptionError)
  /-- A path of the command line where there is neither a file nor a directory. -/
  | missingPath (path : String)
deriving Repr, DecidableEq

/-- What the user is told. -/
def RunError.message : RunError → String
  | unreadable path reason => s!"could not read '{path}': {reason.description}"
  | badConfig path reason =>
    s!"bad config file '{path}': " ++ reason.message?.getD "not a configuration"
  | missingPath path => s!"no such file or directory: '{path}'"

/-- What a run comes to. -/
structure Outcome where
  /-- The number of files that were analyzed. -/
  fileCount : Nat
  status : Nat
  output : String
deriving Repr, DecidableEq, Inhabited

namespace Run

variable {m : Type → Type} [Monad m]

/-- Read a file that a run needs. -/
def readFile (files : Files m) (path : String) : ExceptT RunError m ByteArray := do
  match ← files.read path with
  | .ok bytes => pure bytes
  | .error reason => throw (.unreadable path reason)

def readConfig (files : Files m) (path : String) : ExceptT RunError m Settings := do
  let bytes ← readFile files path
  match String.fromUTF8? bytes with
  | none => throw (.unreadable path .notText)
  | some text =>
    match Settings.ofText text with
    | .ok settings => pure settings
    | .error reason => throw (.badConfig path reason)

def settings (files : Files m) (c : Command) : ExceptT RunError m Settings := do
  let base ← match c.config? with
    | some path => readConfig files path
    | none => pure {}
  return c.adjust base

/-- The files that a path stands for. -/
def expand (files : Files m) (path : String) : ExceptT RunError m (List String) := do
  match Files.expand? path (← files.list path) with
  | some found => pure found
  | none => throw (.missingPath path)

def analyze (files : Files m) (s : Settings) (path : String) : ExceptT RunError m FileReport := do
  let bytes ← readFile files path
  return { path, analysis := .ofBytes bytes s.options s.known }

/-- Analyze all files that a command asks for. -/
def reports (files : Files m) (c : Command) : ExceptT RunError m (List FileReport) := do
  let s ← settings files c
  let found ← c.paths.mapM (expand files)
  found.flatten.mapM (analyze files s)

end Run

def run {m : Type → Type} [Monad m] (files : Files m) (c : Command) :
    ExceptT RunError m Outcome := do
  let reports ← Run.reports files c
  pure
    { fileCount := reports.length
      status := (Totals.ofReports reports).exitCode
      output := c.reporter.render reports }

end ScriptLint

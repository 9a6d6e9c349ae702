import ScriptLint.Command.Parser
import ScriptLint.Run

/-! # The program

The command line over the file system. Reports go to the standard output and everything else to the
standard error; the status is that of the run, or 2 where there is no report.
-/

namespace ScriptLint.Main

/-- A fault of the system. -/
def readError : IO.Error → ReadError
  | .noFileOrDirectory _ _ _ => .missing
  | e => .other (toString e)

/-- What an entry of a directory is, with all that is in it. Links are not followed. -/
partial def listEntry (entry : IO.FS.DirEntry) : IO (String × Listing) := do
  let path := entry.path
  let kind := (← path.symlinkMetadata).type
  match kind with
  | .file => return (entry.fileName, .file)
  | .dir =>
    let entries ← (← path.readDir).toList.mapM listEntry
    return (entry.fileName, .directory entries)
  | _ => return (entry.fileName, .other)

/-- What stands at a path, with links followed. -/
def list (path : String) : IO (Option Listing) := do
  let place := (IO.FS.DirEntry.mk path "").root
  try
    let kind := (← place.metadata).type
    match kind with
    | .file => return some .file
    | .dir =>
      let entries ← (← place.readDir).toList.mapM listEntry
      return some (.directory entries)
    | _ => return some .other
  catch _ => return none

/-- The bytes of a file. -/
def read (path : String) : IO (Except ReadError ByteArray) := do
  try return .ok (← IO.FS.readBinFile path)
  catch e => return .error (readError e)

/-- The file system as a place for files. -/
def fileSystem : Files IO := { list, read }

/-- Carry out a command that was read. -/
def perform (c : Command) : IO UInt32 := do
  match ← (run fileSystem c).run with
  | .ok outcome =>
    if c.verbose then IO.eprintln s!"{outcome.fileCount} files analyzed"
    IO.print outcome.output
    return outcome.status.toUInt32
  | .error e =>
    IO.eprintln s!"Error: {e.message}"
    return 2

end ScriptLint.Main

open ScriptLint in
/-- Lint what the arguments name. -/
def main (arguments : List String) : IO UInt32 := do
  match Command.parse arguments with
  | .ok c => Main.perform c
  | .error .help =>
    IO.print Command.helpText
    return 0
  | .error .version =>
    IO.print Command.versionText
    return 0
  | .error e =>
    IO.eprintln s!"error: {e.message}"
    return 2

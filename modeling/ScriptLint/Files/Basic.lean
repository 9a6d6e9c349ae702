/-! # Files

What a run asks of the place its files are in, and how it finds the sources under a directory. The
place is given by two operations, so a run is the same over the file system and over a tree that is
kept in memory.
-/

namespace ScriptLint

/-- What stands at a path, for a directory with all that is in it. -/
inductive Listing where
  | file
  | directory (entries : List (String × Listing))
  /-- Neither of them. -/
  | other
deriving Repr, Inhabited

/-- Why a file cannot be read. -/
inductive ReadError where
  | missing
  | isDirectory
  /-- A path leads through something that is no directory. -/
  | notDirectory
  /-- The text of a file is no text. -/
  | notText
  /-- Any other fault, in the words of the system. -/
  | other (description : String)
deriving Repr, DecidableEq, Inhabited

/-- The fault in words. -/
def ReadError.description : ReadError → String
  | missing => "No such file or directory (os error 2)"
  | isDirectory => "Is a directory (os error 21)"
  | notDirectory => "Not a directory (os error 20)"
  | notText => "stream did not contain valid UTF-8"
  | other description => description

/-- The place that files are in. -/
structure Files (m : Type → Type) where
  /-- What stands at a path, if anything does. -/
  list : String → m (Option Listing)
  /-- The bytes of the file at a path. -/
  read : String → m (Except ReadError ByteArray)

namespace Files

/-- The extensions of source files. -/
def sourceExtensions : List String := ["js", "mjs", "cjs"]

/-- What follows the last dot of a file name. A dot at the beginning does not count. -/
def extension? (name : String) : Option String :=
  match name.toList with
  | [] => none
  | _ :: rest =>
    if rest.contains '.' then
      some (String.ofList (rest.reverse.takeWhile (· != '.')).reverse)
    else none

/-- Whether a file is taken for a source by its name. -/
def isSource (name : String) : Bool := (extension? name).any sourceExtensions.contains

/-- The path of an entry of a directory. -/
def join (directory name : String) : String :=
  if directory.endsWith "/" then directory ++ name else directory ++ "/" ++ name

mutual

/-- The files in a directory and below, each by the names on the way to it. -/
def filesIn : List (String × Listing) → List (List String)
  | [] => []
  | (name, listing) :: entries => filesOf name listing ++ filesIn entries

/-- The files of an entry, each by the names on the way to it. -/
def filesOf (name : String) : Listing → List (List String)
  | .file => [[name]]
  | .directory entries => (filesIn entries).map (name :: ·)
  | .other => []

end

/-- The source files in a directory and below. The entries of a directory come in the order of their
names, with what is in a directory at its place; that is the order of the names on the way. -/
def sources (directory : String) (entries : List (String × Listing)) : List String :=
  let found := (filesIn entries).filter fun names => names.getLast?.any isSource
  (found.mergeSort fun a b => !decide (b < a)).map (·.foldl join directory)

/-- The files that a path of the command line stands for. A file stands for itself, whatever its
name, and a directory for the sources in it. -/
def expand? (path : String) : Option Listing → Option (List String)
  | some .file => some [path]
  | some (.directory entries) => some (sources path entries)
  | some .other | none => none

end Files

end ScriptLint

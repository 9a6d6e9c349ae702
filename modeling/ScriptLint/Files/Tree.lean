import ScriptLint.Files.Basic

/-! # Files in memory

A tree of files with their contents, which can stand in for the file system. Paths are relative to
its root, and nothing is known of what lies outside.
-/

namespace ScriptLint

/-- A file, or a directory with its entries. -/
inductive Tree where
  | file (content : ByteArray)
  | directory (entries : List (String × Tree))
deriving Inhabited

namespace Tree

/-- The directory without entries. -/
def empty : Tree := .directory []

/-- The entries of a directory; a file has none. -/
def entries : Tree → List (String × Tree)
  | .file _ => []
  | .directory entries => entries

/-- The entry of a name. -/
def find? (t : Tree) (name : String) : Option Tree := t.entries.lookup name

/-- The tree with a file put at the end of a way. Directories are made where they are missing, and
what was there before is replaced. -/
def insert (content : ByteArray) : List String → Tree → Tree
  | [], _ => .file content
  | name :: names, t =>
    let entry := insert content names ((t.find? name).getD empty)
    .directory (t.entries.filter (·.1 != name) ++ [(name, entry)])

/-- What stands at the end of a way from a directory, with the directories around it, innermost
first. Nothing but a directory can be gone through, even to itself. -/
def walk : List Tree → Tree → List String → Except ReadError Tree
  | _, t, [] => .ok t
  | _, .file _, _ :: _ => .error .notDirectory
  | around, .directory entries, name :: names =>
    if name = "" ∨ name = "." then walk around (.directory entries) names
    else if name = ".." then
      match around with
      | [] => .error .missing
      | outer :: around => walk around outer names
    else
      match entries.lookup name with
      | some t => walk (.directory entries :: around) t names
      | none => .error .missing

/-- What stands at a path. -/
def resolve (t : Tree) (path : String) : Except ReadError Tree :=
  if path.startsWith "/" then .error .missing else walk [] t (path.splitOn "/")

mutual

/-- The tree without the contents of its files. -/
def listing : Tree → Listing
  | .file _ => .file
  | .directory entries => .directory (listings entries)

/-- The entries of a directory without the contents of their files. -/
def listings : List (String × Tree) → List (String × Listing)
  | [] => []
  | (name, t) :: entries => (name, t.listing) :: listings entries

end

/-- The bytes of the file at a path. -/
def readFile (t : Tree) (path : String) : Except ReadError ByteArray := do
  match ← t.resolve path with
  | .file content => .ok content
  | .directory _ => .error .isDirectory

/-- The tree as a place for files. -/
def files (t : Tree) : Files Id :=
  { list := fun path => (t.resolve path).toOption.map listing
    read := t.readFile }

end Tree

end ScriptLint

import ScriptLint.Command.Basic
import ScriptLint.Text.Basic

/-! # The command line

What users may ask for, and what they are told about it.
-/

/-! ## Reading the command line

Arguments are read from left to right. An option has a long name after two hyphens and may have a
letter after one; letters of options without a value may be joined. A value is joined to its option,
after an equals sign or straight after the letter, or is the next argument, unless that begins with
a hyphen. Whatever is no option names a path, as does everything after two hyphens alone.

A value that stands by itself is judged only when the next option or path comes up, so an unknown
option right after a bad value is what gets reported.
-/

namespace ScriptLint

namespace Command

/-- Why a command line is not carried out. -/
inductive UsageError where
  /-- There is no option of the name. -/
  | unknownArgument (name : String)
  /-- An option without its value, or an empty path. -/
  | missingValue
  /-- A word that is none of those to choose from. -/
  | badChoice (word : String)
  /-- A value that cannot be read. -/
  | badValue (value : String)
  /-- An option that may be given once only. -/
  | repeated
  /-- A value for an option that takes none. -/
  | unwantedValue
  /-- The user asks for help. -/
  | help
  /-- The user asks for the version. -/
  | version
deriving Repr, DecidableEq, Inhabited

/-- What an argument is about. -/
inductive Parameter where
  | paths
  | config
  | esversion
  | maxerr
  | module
  | undef
  | unused
  | global
  | disable
  | reporter
  | jobs
  | verbose
  | help
  | version
deriving Repr, DecidableEq, Inhabited

namespace Parameter

/-- The parameters with a name, and their letters if they have one. -/
def options : List (Parameter × String × Option Char) :=
  [(config, "config", some 'c'), (esversion, "esversion", none), (maxerr, "maxerr", none),
    (module, "module", none), (undef, "undef", none), (unused, "unused", none),
    (global, "global", some 'g'), (disable, "disable", some 'd'), (reporter, "reporter", some 'r'),
    (jobs, "jobs", some 'j'), (verbose, "verbose", some 'v'), (help, "help", some 'h'),
    (version, "version", some 'V')]

/-- The parameter with a long name. -/
def ofName? (name : String) : Option Parameter :=
  (options.find? fun (_, long, _) => long == name).map (·.1)

/-- The parameter with a letter. -/
def ofLetter? (letter : Char) : Option Parameter :=
  (options.find? fun (_, _, short?) => short? == some letter).map (·.1)

def takesValue : Parameter → Bool
  | module | undef | unused | verbose | help | version => false
  | paths | config | esversion | maxerr | global | disable | reporter | jobs => true

end Parameter

/-! ### Values -/

/-- A name with whether it may be assigned, which is said after a colon. -/
def readGlobal (text : String) : Except String (String × Bool) :=
  let chars := text.toList
  let name := String.ofList (chars.takeWhile (· != ':'))
  let writable? := match chars.dropWhile (· != ':') with
    | [] => some false
    | _ :: flag =>
      if flag = "true".toList then some true
      else if flag = "false".toList then some false
      else none
  match writable? with
  | some writable =>
    if name.isEmpty then .error s!"bad global '{text}', expected NAME or NAME:true"
    else .ok (name, writable)
  | none => .error s!"bad global '{text}', expected NAME or NAME:true"

def readCount (value : String) : Except UsageError Nat :=
  match Text.natural? Options.countBound value with
  | some n => .ok n
  | none => .error (.badValue value)

def readEdition (value : String) : Except UsageError Edition :=
  match (Text.natural? Options.editionBound value).bind Edition.ofNumber? with
  | some edition => .ok edition
  | none => .error (.badValue value)

/-- A path, which may not be empty. -/
def readPath (value : String) : Except UsageError String :=
  if value.isEmpty then .error .missingValue else .ok value

def readReporter (value : String) : Except UsageError Reporter :=
  match Reporter.ofName? value with
  | some reporter => .ok reporter
  | none => .error (.badChoice value)

/-- A result, unless the parameter was given before. -/
def once {α : Type} (given : Bool) (read : Except UsageError α) : Except UsageError α :=
  if given then .error .repeated else read

/-- Take the value of a parameter. -/
def takeValue (c : Command) (parameter : Parameter) (value : String) :
    Except UsageError Command := do
  match parameter with
  | .paths => return { c with named := c.named ++ [← readPath value] }
  | .config => return { c with config? := some (← once c.config?.isSome (readPath value)) }
  | .esversion => return { c with edition? := some (← once c.edition?.isSome (readEdition value)) }
  | .maxerr => return { c with maxErrors? := some (← once c.maxErrors?.isSome (readCount value)) }
  | .global =>
    match readGlobal value with
    | .ok global => return { c with globals := c.globals ++ [global] }
    | .error _ => throw (.badValue value)
  | .disable => return { c with disabled := c.disabled ++ [value] }
  | .reporter =>
    return { c with reporter? := some (← once c.reporter?.isSome (readReporter value)) }
  | .jobs => return { c with jobs? := some (← once c.jobs?.isSome (readCount value)) }
  | .module | .undef | .unused | .verbose | .help | .version => throw .unwantedValue

/-- Take a parameter that has no value. -/
def takeFlag (c : Command) (parameter : Parameter) : Except UsageError Command := do
  match parameter with
  | .module => return { c with module := ← once c.module (.ok true) }
  | .undef => return { c with undef := ← once c.undef (.ok true) }
  | .unused => return { c with unused := ← once c.unused (.ok true) }
  | .verbose => return { c with verbose := ← once c.verbose (.ok true) }
  | .help => throw .help
  | .version => throw .version
  | .paths | .config | .esversion | .maxerr | .global | .disable | .reporter | .jobs =>
    throw .missingValue

/-! ### Arguments -/

/-- What has come up and is not judged yet. -/
inductive Pending where
  | nothing
  /-- Paths. -/
  | paths (values : List String)
  /-- An option that waits for its value. -/
  | option (parameter : Parameter)
  /-- An option with its value. -/
  | value (parameter : Parameter) (value : String)
deriving Repr, DecidableEq, Inhabited

/-- The state of reading. -/
structure Scan where
  command : Command := {}
  pending : Pending := .nothing
deriving Repr, Inhabited

namespace Scan

/-- Judge what is pending. -/
def settle (s : Scan) : Except UsageError Command :=
  match s.pending with
  | .nothing => .ok s.command
  | .paths values => values.foldlM (fun c value => c.takeValue .paths value) s.command
  | .option _ => .error .missingValue
  | .value parameter value => s.command.takeValue parameter value

/-- Take a parameter without a value. -/
def flag (s : Scan) (parameter : Parameter) : Except UsageError Scan := do
  let c ← s.settle
  return { command := ← c.takeFlag parameter }

/-- Take a parameter with a value that is joined to it. -/
def joined (s : Scan) (parameter : Parameter) (value : String) : Except UsageError Scan := do
  let c ← s.settle
  return { command := ← c.takeValue parameter value }

/-- Take an option whose value is the next argument. -/
def await (s : Scan) (parameter : Parameter) : Except UsageError Scan := do
  return { command := ← s.settle, pending := .option parameter }

/-- Take a path. Paths that follow one another are judged together. -/
def path (s : Scan) (value : String) : Except UsageError Scan :=
  match s.pending with
  | .paths values => .ok { s with pending := .paths (values ++ [value]) }
  | _ => return { command := ← s.settle, pending := .paths [value] }

/-- Take an option by its long name. -/
def long (s : Scan) (argument : List Char) : Except UsageError Scan :=
  let name := String.ofList (argument.takeWhile (· != '='))
  match Parameter.ofName? name, argument.dropWhile (· != '=') with
  | none, _ => .error (.unknownArgument ("--" ++ name))
  | some parameter, [] => if parameter.takesValue then s.await parameter else s.flag parameter
  | some parameter, _ :: value =>
    if parameter.takesValue then s.joined parameter (String.ofList value)
    else .error .unwantedValue

/-- Take options by their letters. The first one with a value ends the row: what follows it is its
value, with or without an equals sign. -/
def letters (s : Scan) : List Char → Except UsageError Scan
  | [] => .ok s
  | letter :: rest =>
    match Parameter.ofLetter? letter with
    | none => .error (.unknownArgument s!"-{letter}")
    | some parameter =>
      if parameter.takesValue then
        match rest with
        | [] => s.await parameter
        | '=' :: value => s.joined parameter (String.ofList value)
        | value => s.joined parameter (String.ofList value)
      else do
        let s ← s.flag parameter
        s.letters rest

/-- Take an argument that is no option: the value that an option waits for, or a path. -/
def plain (s : Scan) (argument : String) : Except UsageError Scan :=
  match s.pending with
  | .option parameter => .ok { s with pending := .value parameter argument }
  | _ => s.path argument

/-- Read the arguments that are left. After two hyphens alone, all of them are paths. -/
def run (s : Scan) : List String → Except UsageError Command
  | [] => s.settle
  | argument :: rest =>
    match argument.toList with
    | ['-', '-'] => do
      let s ← rest.foldlM Scan.path s
      s.settle
    | '-' :: '-' :: name => do
      let s ← s.long name
      s.run rest
    | '-' :: letter :: more => do
      let s ← s.letters (letter :: more)
      s.run rest
    | _ => do
      let s ← s.plain argument
      s.run rest

end Scan

/-- The command that a list of arguments stands for. -/
def parse (arguments : List String) : Except UsageError Command := Scan.run {} arguments

end Command

end ScriptLint

/-! ## Help

What the user is told about the command line, on request or after a mistake.
-/

namespace ScriptLint.Command

/-- The line for an option: how it is written, and what it does. -/
def helpLine (usage effect : String) : String :=
  "  " ++ usage ++ String.ofList (List.replicate (28 - usage.length) ' ') ++ effect ++ "\n"

/-- The description of the command line. -/
def helpText : String :=
  "Lint JavaScript files and directories.\n\nUsage: scriptlint [OPTIONS] [PATHS]...\n\n" ++
    String.join
      [helpLine "-c, --config <FILE>" "JSON file with lint options, overridden by flags",
        helpLine "    --esversion <N>" "ECMAScript edition (3, 5, 6..13 or 2015..2022)",
        helpLine "    --maxerr <N>" "Stop a file after this many diagnostics (0 for no limit)",
        helpLine "    --module" "Treat every file as a module",
        helpLine "    --undef" "Warn about uses of undeclared names",
        helpLine "    --unused" "Warn about unused variables and trailing unused parameters",
        helpLine "-g, --global <NAME[:true]>" "Predefine a global; append :true to allow assignment",
        helpLine "-d, --disable <CODE>" "Never report this diagnostic code",
        helpLine "-r, --reporter <FORMAT>" "Output format: text or json",
        helpLine "-j, --jobs <N>" "Number of files to analyze at the same time",
        helpLine "-v, --verbose" "Tell how many files were analyzed",
        helpLine "-h, --help" "Print help",
        helpLine "-V, --version" "Print version"]

/-- The version of the program. -/
def versionText : String := "scriptlint 1.0\n"

/-- The mistake in words. -/
def UsageError.message : UsageError → String
  | unknownArgument name => s!"unexpected argument '{name}'"
  | missingValue => "a value is required but none was supplied"
  | badChoice word => s!"'{word}' is none of the possible values"
  | badValue value => s!"invalid value '{value}'"
  | repeated => "an argument cannot be used multiple times"
  | unwantedValue => "unexpected value for an argument that takes none"
  | help => helpText
  | version => versionText

end ScriptLint.Command

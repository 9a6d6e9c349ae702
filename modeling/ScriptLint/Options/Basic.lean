import ScriptLint.Edition
import ScriptLint.Text.NameSet

/-! # Options of an analysis

What a run is asked to check and what it is asked to tolerate. Most options are flags, named as in
configuration files and directive comments. Three choose among several rules, and the rest are the
target edition, two limits, one switch for unfinished syntax, and the codes that are never shown.
-/

namespace ScriptLint

/-- What is asked of a program in the matter of strict mode. -/
inductive StrictRule where
  /-- Nothing. -/
  | off
  /-- Every function carries the directive. -/
  | required
  /-- A directive for the whole program is allowed and suffices. -/
  | global
  /-- All code is strict without a directive. -/
  | implied
deriving Repr, DecidableEq, Inhabited

/-- Which unused bindings are reported. -/
inductive UnusedRule where
  /-- None. -/
  | off
  /-- All but parameters. -/
  | vars
  /-- Of the parameters, those after the last used one. -/
  | lastParam
  /-- All, every parameter included. -/
  | strict
deriving Repr, DecidableEq, Inhabited

/-- Which repeated declarations are reported. -/
inductive ShadowRule where
  /-- A `var` may be declared again. -/
  | allow
  /-- A `var` may not be declared again in its scope. -/
  | inner
  /-- Nor may a declaration hide one of an outer scope. -/
  | outer
deriving Repr, DecidableEq, Inhabited

/-- The options that are on or off. -/
inductive Flag where
  | module
  | undef
  | latedef
  | asi
  | boss
  | evil
  | debug
  | eqeqeq
  | forin
  | funcscope
  | globalstrict
  | multistr
  | nonbsp
  | lastsemic
  | expr
  | sub
  | elision
  | withstmt
deriving Repr, DecidableEq, Inhabited

namespace Flag

/-- Every flag. -/
def all : List Flag :=
  [module, undef, latedef, asi, boss, evil, debug, eqeqeq, forin, funcscope, globalstrict, multistr,
    nonbsp, lastsemic, expr, sub, elision, withstmt]

/-- The name by which the flag is set. -/
def name : Flag → String
  | module => "module"
  | undef => "undef"
  | latedef => "latedef"
  | asi => "asi"
  | boss => "boss"
  | evil => "evil"
  | debug => "debug"
  | eqeqeq => "eqeqeq"
  | forin => "forin"
  | funcscope => "funcscope"
  | globalstrict => "globalstrict"
  | multistr => "multistr"
  | nonbsp => "nonbsp"
  | lastsemic => "lastsemic"
  | expr => "expr"
  | sub => "sub"
  | elision => "elision"
  | withstmt => "withstmt"

def ofName? (name : String) : Option Flag := all.find? fun flag => flag.name == name

theorem ofName?_name (flag : Flag) : ofName? flag.name = some flag := by
  cases flag <;> decide +kernel

end Flag

/-- The complete configuration of one analysis. -/
structure Options where
  /-- The edition that the source targets. -/
  edition : Edition := default
  strict : StrictRule := .off
  /-- The number of diagnostics after which an analysis stops; zero means no limit. -/
  maxErrors : Nat := 50
  /-- The deepest nesting of expressions, statements, patterns and templates. -/
  maxDepth : Nat := 512
  unused : UnusedRule := .off
  shadow : ShadowRule := .allow
  /-- Read the source as a module. -/
  module : Bool := false
  /-- Report uses of undeclared names. -/
  undef : Bool := false
  /-- Report uses that precede the definition. -/
  latedef : Bool := false
  /-- Accept a missing semicolon at a line break. -/
  asi : Bool := false
  /-- Accept an assignment where a condition is expected. -/
  boss : Bool := false
  /-- Accept `eval` and its kin. -/
  evil : Bool := false
  /-- Accept `debugger`. -/
  debug : Bool := false
  /-- Require the strict equality operators. -/
  eqeqeq : Bool := false
  /-- Require that the body of a `for`-`in` loop filters its properties. -/
  forin : Bool := false
  /-- Accept a `var` that is used outside its block. -/
  funcscope : Bool := false
  /-- Accept a strict-mode directive for the whole program. -/
  globalstrict : Bool := false
  /-- Accept strings that a backslash continues on the next line. -/
  multistr : Bool := false
  /-- Report non-breaking spaces. -/
  nonbsp : Bool := false
  /-- Accept a missing semicolon before the closing brace of a one-line block. -/
  lastsemic : Bool := false
  /-- Accept expression statements without effect. -/
  expr : Bool := false
  /-- Accept a subscript where dot notation would do. -/
  sub : Bool := false
  /-- Accept holes in array literals. -/
  elision : Bool := false
  /-- Accept `with` outside strict code. -/
  withstmt : Bool := false
  /-- Accept `function.sent` in generators. -/
  generatorSent : Bool := false
  /-- The codes that are never reported. -/
  disabled : Text.NameSet := .empty
deriving Repr, DecidableEq

namespace Options

instance : Inhabited Options := ⟨{}⟩

def get (o : Options) : Flag → Bool
  | .module => o.module
  | .undef => o.undef
  | .latedef => o.latedef
  | .asi => o.asi
  | .boss => o.boss
  | .evil => o.evil
  | .debug => o.debug
  | .eqeqeq => o.eqeqeq
  | .forin => o.forin
  | .funcscope => o.funcscope
  | .globalstrict => o.globalstrict
  | .multistr => o.multistr
  | .nonbsp => o.nonbsp
  | .lastsemic => o.lastsemic
  | .expr => o.expr
  | .sub => o.sub
  | .elision => o.elision
  | .withstmt => o.withstmt

def set (o : Options) (flag : Flag) (value : Bool) : Options :=
  match flag with
  | .module => { o with module := value }
  | .undef => { o with undef := value }
  | .latedef => { o with latedef := value }
  | .asi => { o with asi := value }
  | .boss => { o with boss := value }
  | .evil => { o with evil := value }
  | .debug => { o with debug := value }
  | .eqeqeq => { o with eqeqeq := value }
  | .forin => { o with forin := value }
  | .funcscope => { o with funcscope := value }
  | .globalstrict => { o with globalstrict := value }
  | .multistr => { o with multistr := value }
  | .nonbsp => { o with nonbsp := value }
  | .lastsemic => { o with lastsemic := value }
  | .expr => { o with expr := value }
  | .sub => { o with sub := value }
  | .elision => { o with elision := value }
  | .withstmt => { o with withstmt := value }

theorem get_set (o : Options) (flag other : Flag) (value : Bool) :
    (o.set flag value).get other = if other = flag then value else o.get other := by
  cases flag <;> cases other <;> rfl

end Options

end ScriptLint

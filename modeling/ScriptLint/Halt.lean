/-! # Early ends

Why an analysis stops before the end of its input. Whatever raises one has recorded the terminal
diagnostic of its code first.
-/

namespace ScriptLint

/-- The reasons for an early end. -/
inductive Halt where
  /-- As many diagnostics were reported as the options allow. -/
  | tooManyErrors
  /-- A fault of the text left nothing sensible to read. -/
  | unrecoverable
  /-- The nesting went beyond the limit. -/
  | tooDeep
deriving Repr, DecidableEq, Inhabited

namespace Halt

/-- The code of the terminal diagnostic. -/
def code : Halt → String
  | tooManyErrors => "E043"
  | unrecoverable => "E041"
  | tooDeep => "E073"

/-- The codes of terminal diagnostics. -/
def codes : List String := [tooManyErrors, unrecoverable, tooDeep].map code

/-- Whether a code is one of a diagnostic that ends no analysis. -/
abbrev IsRegular (c : String) : Prop := c ∉ codes

/-- The name by which reports give the reason. -/
def name : Halt → String
  | tooManyErrors => "too-many-errors"
  | unrecoverable => "unrecoverable"
  | tooDeep => "too-deep"

/-- The reason in words. -/
def description : Halt → String
  | tooManyErrors => "too many errors"
  | unrecoverable => "unrecoverable syntax error"
  | tooDeep => "nesting too deep"

end Halt

end ScriptLint

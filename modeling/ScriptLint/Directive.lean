import ScriptLint.Position
import ScriptLint.Text.Basic

/-! # Directive comments

Comments that configure the analysis of the source they stand in. A directive opens with its
keyword; what follows, trimmed of blanks, is a list of items separated by commas and blanks, each a
name with an optional value after a colon. A comment that says that a `case` falls through is a
directive without a body. Line comments only carry options and fall-through remarks.
-/

namespace ScriptLint

/-- What a directive is for. -/
inductive DirectiveKind where
  /-- Changes to options. -/
  | jshint
  /-- The older keyword for the same. -/
  | jslint
  /-- Names that are defined elsewhere. -/
  | global
  /-- Names that are used elsewhere. -/
  | exported
  /-- A remark that control passes into the next `case` on purpose. -/
  | fallsThrough
deriving Repr, DecidableEq, Inhabited

/-- A recognized directive comment. -/
structure Directive where
  kind : DirectiveKind
  /-- What follows the keyword. -/
  body : String
  /-- Where the comment begins. -/
  position : Position
deriving Repr, DecidableEq, Inhabited

namespace Directive

open Text (isBlank trim)

/-- The text after `word`, if it begins with it. -/
def dropWord? : List Char → List Char → Option (List Char)
  | [], cs => some cs
  | w :: word, c :: cs => if w = c then dropWord? word cs else none
  | _ :: _, [] => none

/-- Whether a comment is a fall-through remark: `fall` or `falls`, at most one blank, and
`through`. -/
def isFallsThrough (text : List Char) : Bool :=
  let tail := do
    let rest ← dropWord? "fall".toList (text.dropWhile isBlank)
    let rest := match rest with
      | 's' :: rest => rest
      | rest => rest
    let rest := match rest with
      | c :: rest => if isBlank c then rest else c :: rest
      | [] => []
    dropWord? "through".toList rest
  tail.any (·.all isBlank)

/-- The first word of a comment and the rest, which begins with the blank after the word. -/
def splitHeader? (text : List Char) : Option (String × List Char) :=
  let text := text.dropWhile isBlank
  match text.dropWhile (!isBlank ·) with
  | [] => none
  | rest => some (String.ofList (text.takeWhile (!isBlank ·)), rest)

/-- The kind that a keyword names in a block comment or in a line comment. -/
def kindOf? (keyword : String) (block : Bool) : Option DirectiveKind :=
  match keyword with
  | "jshint" => some .jshint
  | "jslint" => some .jslint
  | "global" | "globals" => if block then some .global else none
  | "exported" => if block then some .exported else none
  | _ => none

/-- The directive that the body of a comment is, if it is one. -/
def ofComment? (text : List Char) (block : Bool) (position : Position) : Option Directive :=
  if isFallsThrough text then some ⟨.fallsThrough, "", position⟩
  else do
    let (keyword, rest) ← splitHeader? text
    let kind ← kindOf? keyword block
    some ⟨kind, String.ofList (trim rest), position⟩

/-- The text without the blanks next to its colons. -/
def joinColons : List Char → List Char
  | [] => []
  | c :: rest =>
    if c = ':' then ':' :: joinColons (rest.dropWhile isBlank)
    else if isBlank c ∧ (rest.dropWhile isBlank).head? = some ':' then
      joinColons (rest.dropWhile isBlank)
    else c :: joinColons rest
termination_by cs => cs.length
decreasing_by
  all_goals
    have := (List.dropWhile_sublist isBlank (l := rest)).length_le
    simp only [List.length_cons]
    omega

/-- Whether a character separates items. -/
def isSeparator (c : Char) : Bool := c = ',' || isBlank c

/-- The words between separators, none of them empty. `word` holds what was read of the current
one, in reverse. -/
def splitItems (word : List Char) : List Char → List (List Char)
  | [] => if word.isEmpty then [] else [word.reverse]
  | c :: rest =>
    if isSeparator c then
      if word.isEmpty then splitItems [] rest else word.reverse :: splitItems [] rest
    else splitItems (c :: word) rest

/-- A word cut at its first colon. -/
def splitItem (word : List Char) : String × Option String :=
  match word.dropWhile (· ≠ ':') with
  | [] => (String.ofList word, none)
  | _ :: value => (String.ofList (word.takeWhile (· ≠ ':')), some (String.ofList value))

/-- The items of the body, each a name and the value it is given. -/
def items (d : Directive) : List (String × Option String) :=
  (splitItems [] (joinColons (trim d.body.toList))).map splitItem

end Directive

/-- A word such as `-W117` or `+W117`, as the code it names and whether it switches it on. -/
def codeToggle? (word : String) : Option (String × Bool) :=
  let code? (cs : List Char) : Option String :=
    match cs with
    | [kind, a, b, c] =>
      if ['W', 'E', 'I'].contains kind && [a, b, c].all Char.isDigit then some (String.ofList cs)
      else none
    | _ => none
  match word.toList with
  | '-' :: cs => (code? cs).map (·, false)
  | '+' :: cs => (code? cs).map (·, true)
  | _ => none

end ScriptLint

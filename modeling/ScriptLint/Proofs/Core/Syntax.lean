import ScriptLint.Character.Basic
import ScriptLint.Grammar.Symbol

/-! # A core of the language

Declarations of variables and functions, assignments, calls, branches and loops, over expressions of
many kinds. Every operand stands in parentheses, so no expression depends on how strongly operators
bind. A program is written as a list of words with one space between any two of them.
-/

namespace ScriptLint.Core

open Character (isIdStart isIdContinue)

/-! ## Words -/

/-- Words that are no keywords, but have a meaning of their own in some places. -/
def contextualWords : List String :=
  ["as", "async", "await", "from", "get", "let", "of", "set", "static", "yield"]

/-- An identifier that is neither a keyword nor a contextual word. -/
structure Name where
  text : String
  first : text.toList.head?.any isIdStart = true
  rest : text.toList.tail.all isIdContinue = true
  free : (isKeyword text || contextualWords.contains text) = false

/-- A decimal integer without a superfluous zero. -/
structure Digits where
  text : String
  digits : text.toList.all Char.isDigit = true
  leading : text = "0" ∨ text.toList.head?.any (· ≠ '0') = true

/-- A text of letters, which may be empty. -/
structure Letters where
  text : String
  letters : text.toList.all Char.isAlpha = true

/-- The marks that may enclose a string. -/
inductive Quote where
  | single
  | double

def Quote.char : Quote → Char
  | single => '\x27'
  | double => '"'

/-- The operators that stand in front of their operand and do not change it. -/
def unaryOperators : List String :=
  (Symbol.table.filter (·.operand? = some .unary)).map (·.id)

/-- The operators between two operands that neither assign nor separate. -/
def binaryOperators : List String :=
  (Symbol.operators.filter fun symbol => symbol.operator?.any
    [OperatorForm.binary, .logical, .nullish, .exponent].contains).map (·.id)

/-- One of the operators of a list. -/
structure Operator (among : List String) where
  text : String
  mem : text ∈ among

/-- The words and the marks that hold a program together. -/
inductive Mark where
  | varWord
  | ifWord
  | elseWord
  | whileWord
  | forWord
  | returnWord
  | functionWord
  | assign
  | openParen
  | closeParen
  | openBracket
  | closeBracket
  | openBrace
  | closeBrace
  | comma
  | colon
  | semicolon
  | dot
  | question
deriving DecidableEq

def Mark.text : Mark → String
  | varWord => "var"
  | ifWord => "if"
  | elseWord => "else"
  | whileWord => "while"
  | forWord => "for"
  | returnWord => "return"
  | functionWord => "function"
  | assign => "="
  | openParen => "("
  | closeParen => ")"
  | openBracket => "["
  | closeBracket => "]"
  | openBrace => "\x7b"
  | closeBrace => "\x7d"
  | comma => ","
  | colon => ":"
  | semicolon => ";"
  | dot => "."
  | question => "?"

/-- A word of a program, around which there are spaces. -/
inductive Word where
  | mark (m : Mark)
  | unary (operator : Operator unaryOperators)
  | binary (operator : Operator binaryOperators)
  | name (x : Name)
  | number (n : Digits)
  | string (q : Quote) (t : Letters)
  /-- The piece with which a template begins, in front of a substitution if there are `more`. -/
  | opening (t : Letters) (more : Bool)
  /-- A piece of a template after a substitution, in front of another one if there are `more`. -/
  | continuing (t : Letters) (more : Bool)

/-- How a piece of a template ends: before a substitution, or with the template. -/
def pieceEnd (more : Bool) : String := if more then "$\x7b" else "`"

def Word.text : Word → String
  | mark m => m.text
  | unary operator => operator.text
  | binary operator => operator.text
  | name x => x.text
  | number n => n.text
  | string q t => q.char.toString ++ t.text ++ q.char.toString
  | opening t more => "`" ++ t.text ++ pieceEnd more
  | continuing t more => "\x7d" ++ t.text ++ pieceEnd more

/-- The key of a property. -/
inductive Key where
  | name (x : Name)
  | string (q : Quote) (t : Letters)
  | number (n : Digits)

def Key.word : Key → Word
  | name x => .name x
  | string q t => .string q t
  | number n => .number n

/-! ## Programs -/

mutual

/-- An expression of the core. -/
inductive Expr where
  | name (x : Name)
  | number (n : Digits)
  | string (q : Quote) (t : Letters)
  /-- A template: its first piece, and its substitutions with the pieces after them. -/
  | template (t : Letters) (parts : List (Expr × Letters))
  | array (elements : List Expr)
  | object (properties : List (Key × Expr))
  | function (name? : Option Name) (parameters : List Name) (body : List Stmt)
  | member (object : Expr) (property : Name)
  | index (object position : Expr)
  | call (callee : Expr) (arguments : List Expr)
  | unary (operator : Operator unaryOperators) (operand : Expr)
  | conditional (condition first second : Expr)
  | binary (operator : Operator binaryOperators) (left right : Expr)

/-- A statement of the core. A `return` may stand anywhere. -/
inductive Stmt where
  | var (x : Name) (value : Expr)
  | assign (x : Name) (value : Expr)
  | call (f : Name) (arguments : List Expr)
  | branch (condition : Expr) (first second : List Stmt)
  | while (condition : Expr) (body : List Stmt)
  | for (x : Name) (value condition step : Expr) (body : List Stmt)
  | return (value : Expr)
  | function (f : Name) (parameters : List Name) (body : List Stmt)

end

/-! ## Writing programs -/

/-- Items with commas between them. -/
def commaSeparated : List (List Word) → List Word
  | [] => []
  | item :: items => item ++ items.flatMap (.mark .comma :: ·)

/-- Words in parentheses, with further words after them. -/
def enclosed (words rest : List Word) : List Word :=
  .mark .openParen :: words ++ .mark .closeParen :: rest

/-- Words in braces, with further words after them. -/
def braced (words rest : List Word) : List Word :=
  .mark .openBrace :: words ++ .mark .closeBrace :: rest

/-- The words of a parameter list and a body. -/
def functionWords (parameters : List Name) (body : List Word) : List Word :=
  enclosed (commaSeparated (parameters.map fun x => [.name x])) (braced body [])

mutual

def Expr.words : Expr → List Word
  | .name x => [.name x]
  | .number n => [.number n]
  | .string q t => [.string q t]
  | .template t parts => .opening t (!parts.isEmpty) :: partWords parts
  | .array elements =>
    .mark .openBracket :: commaSeparated (elementWords elements) ++ [.mark .closeBracket]
  | .object properties => braced (commaSeparated (propertyWords properties)) []
  | .function name? parameters body =>
    .mark .functionWord :: name?.toList.map .name ++ functionWords parameters (bodyWords body)
  | .member object property => enclosed object.words [.mark .dot, .name property]
  | .index object position =>
    enclosed object.words (.mark .openBracket :: position.words ++ [.mark .closeBracket])
  | .call callee arguments =>
    enclosed callee.words (enclosed (commaSeparated (elementWords arguments)) [])
  | .unary operator operand => .unary operator :: enclosed operand.words []
  | .conditional condition first second =>
    enclosed condition.words (.mark .question :: enclosed first.words
      (.mark .colon :: enclosed second.words []))
  | .binary operator left right =>
    enclosed left.words (.binary operator :: enclosed right.words [])

def Stmt.words : Stmt → List Word
  | .var x value =>
    .mark .varWord :: .name x :: .mark .assign :: value.words ++ [.mark .semicolon]
  | .assign x value => .name x :: .mark .assign :: value.words ++ [.mark .semicolon]
  | .call f arguments =>
    .name f :: enclosed (commaSeparated (elementWords arguments)) [.mark .semicolon]
  | .branch condition first second =>
    .mark .ifWord :: enclosed condition.words (braced (bodyWords first)
      (.mark .elseWord :: braced (bodyWords second) []))
  | .while condition body =>
    .mark .whileWord :: enclosed condition.words (braced (bodyWords body) [])
  | .for x value condition step body =>
    .mark .forWord :: enclosed (.mark .varWord :: .name x :: .mark .assign ::
      enclosed value.words (.mark .semicolon :: enclosed condition.words
        (.mark .semicolon :: enclosed step.words []))) (braced (bodyWords body) [])
  | .return value => .mark .returnWord :: value.words ++ [.mark .semicolon]
  | .function f parameters body =>
    .mark .functionWord :: .name f :: functionWords parameters (bodyWords body)

/-- The words of each of some elements. -/
def elementWords : List Expr → List (List Word)
  | [] => []
  | e :: es => e.words :: elementWords es

/-- The words of each of some properties. -/
def propertyWords : List (Key × Expr) → List (List Word)
  | [] => []
  | (key, value) :: ps => (key.word :: .mark .colon :: value.words) :: propertyWords ps

/-- The words of the substitutions of a template with the pieces after them. -/
def partWords : List (Expr × Letters) → List Word
  | [] => []
  | (e, t) :: parts => e.words ++ .continuing t (!parts.isEmpty) :: partWords parts

/-- The words of statements in turn. -/
def bodyWords : List Stmt → List Word
  | [] => []
  | statement :: body => statement.words ++ bodyWords body

end

/-- A program as it is written: its words with one space between any two of them. -/
def write (program : List Stmt) : String := " ".intercalate ((bodyWords program).map Word.text)

/-! ## Nesting -/

mutual

/-- How deeply an expression nests. -/
def Expr.nesting : Expr → Nat
  | .name _ | .number _ | .string _ _ => 1
  | .template _ parts => partNesting parts + 1
  | .array elements => elementNesting elements + 1
  | .object properties => propertyNesting properties + 1
  | .function _ _ body => bodyNesting body + 1
  | .member object _ => object.nesting + 1
  | .index object position => max object.nesting position.nesting + 1
  | .call callee arguments => max callee.nesting (elementNesting arguments) + 1
  | .unary _ operand => operand.nesting + 1
  | .conditional condition first second =>
    max condition.nesting (max first.nesting second.nesting) + 1
  | .binary _ left right => max left.nesting right.nesting + 1

/-- How deeply a statement nests. -/
def Stmt.nesting : Stmt → Nat
  | .var _ value | .assign _ value | .return value => value.nesting + 1
  | .call _ arguments => elementNesting arguments + 1
  | .branch condition first second =>
    max condition.nesting (max (bodyNesting first) (bodyNesting second)) + 1
  | .while condition body => max condition.nesting (bodyNesting body) + 1
  | .for _ value condition step body =>
    max value.nesting (max condition.nesting (max step.nesting (bodyNesting body))) + 1
  | .function _ _ body => bodyNesting body + 1

def elementNesting : List Expr → Nat
  | [] => 0
  | e :: es => max e.nesting (elementNesting es)

def propertyNesting : List (Key × Expr) → Nat
  | [] => 0
  | (_, value) :: ps => max value.nesting (propertyNesting ps)

def partNesting : List (Expr × Letters) → Nat
  | [] => 0
  | (e, _) :: parts => max e.nesting (partNesting parts)

/-- How deeply statements in turn nest. -/
def bodyNesting : List Stmt → Nat
  | [] => 0
  | statement :: body => max statement.nesting (bodyNesting body)

end

end ScriptLint.Core

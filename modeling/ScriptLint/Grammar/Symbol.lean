import ScriptLint.Grammar.Vocabulary
import ScriptLint.Token.Basic

/-! # The operator table

For each operator, delimiter and keyword: how it is read where an operand, an operator or a
statement is expected, and how strongly it binds as an operator. An operator of a higher power binds
its operands before one of a lower power. Tokens without a fixed spelling share one entry for their
kind.
-/

namespace ScriptLint

/-- Which way a chain of one operator groups. -/
inductive Associativity where
  | left
  | right
deriving Repr, DecidableEq, Inhabited

/-- How a token is read where an operand is expected. -/
inductive OperandForm where
  | identifier
  | literal
  | template
  | regexp
  | privateName
  | thisWord
  | superWord
  /-- An operator in front of its operand. -/
  | unary
  /-- `++` or `--` in front of its operand. -/
  | update
  /-- A parenthesis around an expression or around parameters. -/
  | parenthesis
  | array
  | object
  | functionWord
  | classWord
  | newWord
  | importWord
deriving Repr, DecidableEq, Inhabited

/-- How a token is read after an operand. -/
inductive OperatorForm where
  | binary
  /-- `&&` and `||`. -/
  | logical
  /-- `??`. -/
  | nullish
  /-- `**`. -/
  | exponent
  | assign
  | conditional
  | comma
  | dot
  | optionalChain
  | index
  | call
  /-- `++` or `--` after its operand. -/
  | update
  | taggedTemplate
deriving Repr, DecidableEq, Inhabited

/-- How a token is read where a statement is expected. -/
inductive StatementForm where
  | varWord
  | constWord
  | functionWord
  | classWord
  | ifWord
  | forWord
  | whileWord
  | doWord
  | switchWord
  | breakWord
  | continueWord
  | returnWord
  | throwWord
  | tryWord
  | withWord
  | debuggerWord
  | block
  | empty
  | importWord
  | exportWord
deriving Repr, DecidableEq, Inhabited

/-- What the grammar knows of a token. -/
structure Symbol where
  /-- The spelling, or the name of a kind in parentheses. -/
  id : String
  /-- The power with which it binds the operand before it; zero if it is no operator. -/
  power : Nat := 0
  associativity : Associativity := .left
  operand? : Option OperandForm := none
  operator? : Option OperatorForm := none
  statement? : Option StatementForm := none
  reservation : Reservation := .free
  /-- The edition that introduced the operator. -/
  since? : Option Edition := none
deriving Repr, DecidableEq, Inhabited

namespace Symbol

def commaPower : Nat := 10

def assignPower : Nat := 20

def conditionalPower : Nat := 30

/-- The power of operators in front of their operand. -/
def unaryPower : Nat := 150

/-- The power of `++` and `--` after their operand. -/
def updatePower : Nat := 160

/-- The power of member access, calls and tagged templates. -/
def callPower : Nat := 170

/-- An operator that groups to the left. -/
def leftOperator (power : Nat) (form : OperatorForm) (id : String) : Symbol :=
  { id, power, operator? := some form }

/-- An assignment operator. -/
def assignment (since? : Option Edition) (id : String) : Symbol :=
  { id, power := assignPower, associativity := .right, operator? := some .assign, since? }

/-- A keyword that is also read as stated. -/
def word (id : String) (operand? : Option OperandForm) (statement? : Option StatementForm) :
    Symbol :=
  { id, operand?, statement?, reservation := .always }

/-- The operators of fixed spelling. -/
def operators : List Symbol :=
  [leftOperator commaPower .comma ","] ++
    ["=", "+=", "-=", "*=", "/=", "%=", "<<=", ">>=", ">>>=", "&=", "|=", "^="].map
      (assignment none) ++
    [assignment (some .es2016) "**="] ++
    ["&&=", "||=", "??="].map (assignment (some .es2021)) ++
    [{ leftOperator conditionalPower .conditional "?" with associativity := .right },
      { leftOperator 35 .nullish "??" with since? := some .es2020 },
      leftOperator 40 .logical "||",
      leftOperator 50 .logical "&&",
      leftOperator 60 .binary "|",
      leftOperator 70 .binary "^",
      leftOperator 80 .binary "&"] ++
    ["==", "!=", "===", "!=="].map (leftOperator 90 .binary) ++
    ["<", ">", "<=", ">="].map (leftOperator 100 .binary) ++
    ["in", "instanceof"].map
      (fun id => { leftOperator 100 .binary id with reservation := .always }) ++
    ["<<", ">>", ">>>"].map (leftOperator 110 .binary) ++
    ["+", "-"].map (fun id => { leftOperator 120 .binary id with operand? := some .unary }) ++
    ["*", "/", "%"].map (leftOperator 130 .binary) ++
    [{ leftOperator 140 .exponent "**" with
        associativity := .right
        since? := some .es2016 }] ++
    ["++", "--"].map
      (fun id => { leftOperator updatePower .update id with operand? := some .update }) ++
    [leftOperator callPower .dot ".",
      { leftOperator callPower .optionalChain "?." with since? := some .es2020 },
      { leftOperator callPower .index "[" with operand? := some .array },
      { leftOperator callPower .call "(" with operand? := some .parenthesis }]

/-- The delimiters, and the operators that only stand in front of an operand. -/
def delimiters : List Symbol :=
  ["!", "~"].map (fun id => { id, operand? := some .unary }) ++
    [{ id := "\x7b", operand? := some .object, statement? := some .block },
      { id := ";", statement? := some .empty }] ++
    [")", "]", "\x7d", ":", "=>", "...", "#"].map ({ id := · })

/-- The keywords that are no binary operators. -/
def words : List Symbol :=
  ["typeof", "void", "delete"].map (word · (some .unary) none) ++
    ["true", "false", "null"].map (word · (some .literal) none) ++
    [word "this" (some .thisWord) none,
      word "super" (some .superWord) none,
      word "new" (some .newWord) none,
      word "function" (some .functionWord) (some .functionWord),
      word "class" (some .classWord) (some .classWord),
      word "import" (some .importWord) (some .importWord),
      word "export" none (some .exportWord),
      word "var" none (some .varWord),
      word "const" none (some .constWord),
      word "if" none (some .ifWord),
      word "for" none (some .forWord),
      word "while" none (some .whileWord),
      word "do" none (some .doWord),
      word "switch" none (some .switchWord),
      word "break" none (some .breakWord),
      word "continue" none (some .continueWord),
      word "return" none (some .returnWord),
      word "throw" none (some .throwWord),
      word "try" none (some .tryWord),
      word "with" none (some .withWord),
      word "debugger" none (some .debuggerWord)] ++
    ["case", "catch", "default", "else", "enum", "extends", "finally"].map (word · none none)

/-- The entries of all fixed spellings. -/
def table : List Symbol := operators ++ delimiters ++ words

/-- The entry of a spelling, if the grammar knows it. -/
def ofSpelling? (spelling : String) : Option Symbol := table.find? fun s => s.id == spelling

/-- The entry of a token that the grammar does not know. -/
def unknown : Symbol := { id := "(unknown)" }

/-- The entry that governs a token. The rest of a template stands nowhere by itself. -/
def ofToken (t : Token) : Symbol :=
  match t.lexeme with
  | .identifier _ => { id := "(identifier)", operand? := some .identifier }
  | .number _ | .bigint _ | .string _ => { id := "(literal)", operand? := some .literal }
  | .regexp _ _ => { id := "(regexp)", operand? := some .regexp }
  | .privateName _ => { id := "(private)", operand? := some .privateName }
  | .template .whole _ | .template .head _ =>
    { id := "(template)", power := callPower, operand? := some .template,
      operator? := some .taggedTemplate }
  | .template .middle _ | .template .tail _ | .strayBackslash => unknown
  | .endOfInput => { id := "(end)" }
  | .keyword _ | .punctuator => (ofSpelling? t.raw).getD unknown

end Symbol

end ScriptLint

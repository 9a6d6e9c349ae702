/-! # Reserved words

The words that a program may not use as names: in every edition, in strict code, or in the third
edition only.
-/

namespace ScriptLint

/-- How a word is reserved. -/
inductive Reservation where
  /-- Free to be used as a name. -/
  | free
  /-- Reserved in every edition. -/
  | always
  /-- Reserved in strict code. -/
  | strict
  /-- Reserved by the third edition for later ones, which gave it up. -/
  | es3
deriving Repr, DecidableEq, Inhabited

/-- The words that are keywords wherever they are spelled without escapes. -/
def keywords : List String :=
  ["break", "case", "catch", "class", "const", "continue", "debugger", "default", "delete", "do",
    "else", "enum", "export", "extends", "false", "finally", "for", "function", "if", "import",
    "in", "instanceof", "new", "null", "return", "super", "switch", "this", "throw", "true", "try",
    "typeof", "var", "void", "while", "with"]

/-- The words that strict code reserves. -/
def strictWords : List String :=
  ["implements", "interface", "let", "package", "private", "protected", "public", "static", "yield"]

/-- The words that only the third edition reserves. -/
def es3Words : List String :=
  ["abstract", "boolean", "byte", "char", "double", "final", "float", "goto", "int", "long",
    "native", "short", "synchronized", "throws", "transient", "volatile"]

def isKeyword (word : String) : Bool := keywords.contains word

/-- How a word is reserved. -/
def reservation (word : String) : Reservation :=
  if keywords.contains word then .always
  else if strictWords.contains word then .strict
  else if es3Words.contains word then .es3
  else .free

end ScriptLint

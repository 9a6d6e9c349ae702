

/-! # Messages

The templates of messages, and how the arguments of a diagnostic are put in.
-/

/-! ## The message catalog

Every diagnostic code has one fixed template. The placeholders `{a}` to `{d}` of a template stand
for the arguments of a diagnostic, in order. Codes that begin with `E` are errors and those that
begin with `W` warnings.
-/

namespace ScriptLint.Message

/-- The templates of the errors. -/
def errorTemplates : List (String × String) :=
  [
    ("E001", "Bad {a}option: '{b}'."),
    ("E004", "Input is neither a string nor an array of strings."),
    ("E006", "Unexpected early end of program."),
    ("E007", "Missing \"use strict\" statement."),
    ("E010", "'with' is not allowed in strict mode."),
    ("E011", "'{a}' has already been declared."),
    ("E012", "const '{a}' is initialized to 'undefined'."),
    ("E013", "Attempting to override '{a}' which is a constant."),
    ("E015", "Unclosed regular expression."),
    ("E016", "Invalid regular expression."),
    ("E017", "Unclosed comment."),
    ("E021", "Expected '{a}' and instead saw '{b}'."),
    ("E022", "Line breaking error '{a}'."),
    ("E024", "Unexpected '{a}'."),
    ("E030", "Expected an identifier and instead saw '{a}'."),
    ("E031", "Bad assignment."),
    ("E032", "Expected a small integer or 'false' and instead saw '{a}'."),
    ("E034", "get/set are ES5 features."),
    ("E041", "Unrecoverable syntax error."),
    ("E043", "Too many errors."),
    ("E048", "{a} declaration not directly within block."),
    ("E052", "Unclosed template literal."),
    ("E053", "{a} declarations are only allowed at the top level of module scope."),
    ("E056", "'{a}' was used before it was declared, which is illegal for '{b}' variables."),
    ("E058", "Missing semicolon."),
    ("E060", "Non-callable values cannot be used as the second operand to instanceof."),
    ("E062", "Rest parameter does not support a default value."),
    ("E063", "Super property may only be used within method bodies."),
    ("E064", "Super call may only be used within class method bodies."),
    ("E065",
      "Functions defined outside of strict mode with non-simple parameter lists may not enable " ++
        "strict mode."),
    ("E067", "Malformed numeric literal: '{a}'."),
    ("E068", "Decimals with leading zeros are not allowed in strict mode."),
    ("E069", "Duplicate exported binding: '{a}'."),
    ("E070", "import.meta may only be used in module code."),
    ("E071",
      "A function.sent expression shall be within a generator function (with syntax: " ++
        "`function*`)"),
    ("E073", "Too deeply nested.")]

/-- The templates of the warnings. -/
def warningTemplates : List (String × String) :=
  [
    ("W003", "'{a}' was used before it was defined."),
    ("W004", "'{a}' is already defined."),
    ("W008", "A leading decimal point can be confused with a dot: '{a}'."),
    ("W009", "The array literal notation [] is preferable."),
    ("W010", "The object literal notation \x7b\x7d is preferable."),
    ("W017", "Bad operand."),
    ("W019", "Use the isNaN function to compare with NaN."),
    ("W020", "Read only."),
    ("W021",
      "Reassignment of '{a}', which is a {b}. Use 'var' or 'let' to declare bindings that may " ++
        "change."),
    ("W022", "Do not assign to the exception parameter."),
    ("W024", "Expected an identifier and instead saw '{a}' (a reserved word)."),
    ("W027", "Unreachable '{a}' after '{b}'."),
    ("W028", "Label '{a}' on {b} statement."),
    ("W030", "Expected an assignment or function call and instead saw an expression."),
    ("W031", "Do not use 'new' for side effects."),
    ("W032", "Unnecessary semicolon."),
    ("W033", "Missing semicolon."),
    ("W034", "Unnecessary directive \"{a}\"."),
    ("W038", "'{a}' used out of scope."),
    ("W043", "Bad escaping of EOL. Use option multistr if needed."),
    ("W044", "Bad or unnecessary escaping."),
    ("W046", "Don't use extra leading zeros '{a}'."),
    ("W047", "A trailing decimal point can be confused with a dot: '{a}'."),
    ("W051", "Variables should not be deleted."),
    ("W052", "Unexpected '{a}'."),
    ("W053", "Do not use {a} as a constructor."),
    ("W054", "The Function constructor is a form of eval."),
    ("W058", "Missing '()' invoking a constructor."),
    ("W061", "eval can be harmful."),
    ("W066", "Implied eval. Consider passing a function instead of a string."),
    ("W069", "['{a}'] is better written in dot notation."),
    ("W070", "Extra comma. (it breaks older versions of IE)"),
    ("W075", "Duplicate {a} '{b}'."),
    ("W076", "Unexpected parameter '{a}' in get {b} function."),
    ("W077", "Expected a single parameter in set {a} function."),
    ("W078", "Setter is defined without getter."),
    ("W079", "Redefinition of '{a}'."),
    ("W080", "It's not necessary to initialize '{a}' to 'undefined'."),
    ("W082",
      "Function declarations should not be placed in blocks. Use a function expression or move " ++
        "the statement to the top of the outer function."),
    ("W084", "Expected a conditional expression and instead saw an assignment."),
    ("W085", "Don't use 'with'."),
    ("W086", "Expected a 'break' statement before '{a}'."),
    ("W087", "Forgotten 'debugger' statement?"),
    ("W088", "Creating global 'for' variable. Should be 'for (var {a} ...'."),
    ("W089",
      "The body of a for in should be wrapped in an if statement to filter unwanted properties " ++
        "from the prototype."),
    ("W090", "'{a}' is not a statement label."),
    ("W093", "Did you mean to return a conditional instead of an assignment?"),
    ("W097", "Use the function form of \"use strict\"."),
    ("W098", "'{a}' is defined but never used."),
    ("W104",
      "'{a}' is available in ES{b} (use 'esversion: {b}') or Mozilla JS extensions (use moz)."),
    ("W112", "Unclosed string."),
    ("W115", "Octal literals are not allowed in strict mode."),
    ("W116", "Expected '{a}' and instead saw '{b}'."),
    ("W117", "'{a}' is not defined."),
    ("W119", "'{a}' is only available in ES{b} (use 'esversion: {b}')."),
    ("W120", "You might be leaking a variable ({a}) here."),
    ("W123", "'{a}' is already defined in outer scope."),
    ("W124", "A generator function should contain at least one yield expression."),
    ("W125", "This line contains non-breaking spaces: http://jshint.com/docs/options/#nonbsp"),
    ("W128", "Empty array elements require elision=true."),
    ("W130", "Invalid element after rest element."),
    ("W131", "Invalid parameter after rest parameter."),
    ("W133", "Invalid for-{a} loop left-hand-side: {b}."),
    ("W137", "Empty destructuring: this is unnecessary and can be removed."),
    ("W138", "Regular parameters should not come after default parameters."),
    ("W139", "Function expressions should not be used as the second operand to instanceof."),
    ("W144",
      "'{a}' is a non-standard language feature. Enable it using the '{b}' unstable option.")]

/-- All codes with their templates. -/
def catalog : List (String × String) := errorTemplates ++ warningTemplates

/-- The template of a code, if the catalog has it. -/
def template? (code : String) : Option String := catalog.lookup code

/-- The template of a code; one that the catalog lacks shows its first argument. -/
def template (code : String) : String := (template? code).getD "{a}"

/-! ## Filling templates

The placeholders of a template are a letter between braces. They are replaced letter by letter, each
through the whole text, so the text that one argument brings in is searched again for the later
letters. A placeholder without an argument stays.
-/

/-- Replace each placeholder of the letter. -/
def fillLetter (letter : Char) (value : List Char) : List Char → List Char
  | [] => []
  | '\x7b' :: l :: '\x7d' :: rest =>
    if l = letter then value ++ fillLetter letter value rest
    else '\x7b' :: fillLetter letter value (l :: '\x7d' :: rest)
  | c :: rest => c :: fillLetter letter value rest

/-- The letters of the placeholders, in the order of the arguments. -/
def letters : List Char := ['a', 'b', 'c', 'd']

/-- Replace the placeholders by the arguments, one letter after the other. -/
def fill (template : String) (arguments : List String) : String :=
  String.ofList <| (letters.zip arguments).foldl
    (fun text (letter, value) => fillLetter letter value.toList text) template.toList

end ScriptLint.Message

import ScriptLint.Options.Reader
import ScriptLint.Reading.State
import ScriptLint.Text.Basic

/-! # Applying directives

What a directive comment changes: options of the analysis, codes that are shown, lines that are
ignored, names that are known or exported. An item that makes no sense is reported at the comment.
-/

namespace ScriptLint.Reading

/-- Options of other tools and of earlier times, which a comment may set to no effect. -/
def ignoredOptions : List String :=
  ["bitwise", "browser", "camelcase", "couch", "curly", "devel", "dojo", "enforceall", "freeze",
    "futurehostile", "immed", "indent", "jasmine", "jquery", "laxbreak", "laxcomma", "loopfunc",
    "maxcomplexity", "maxdepth", "maxlen", "maxparams", "maxstatements", "mocha", "mootools",
    "newcap", "noarg", "nocomma", "node", "noempty", "nonew", "nonstandard", "noreturnawait",
    "phantom", "plusplus", "predef", "prototypejs", "qunit", "quotmark", "regexpu", "rhino",
    "scripturl", "shelljs", "singleGroups", "supernew", "trailingcomma", "typed", "validthis",
    "varstmt", "white", "worker", "wsh", "yui"]

/-- Report an option that does not exist or does not have the value. -/
def badOption (name : String) (position : Position) : Reading Unit :=
  report "E001" position ["", name]

/-- Set the rule that a keyword names. -/
def applyRule {rule : Type} (name : String) (position : Position) (found : Except OptionError rule)
    (change : rule → Options → Options) : Reading Unit :=
  match found with
  | .ok rule => adjustOptions (change rule)
  | .error _ => badOption name position

def applyFlag (name value : String) (position : Position) : Reading Unit := do
  let flag? := match value with
    | "true" => (Flag.ofName? name).map (·, true)
    | "false" => (Flag.ofName? name).map (·, false)
    | _ => none
  match flag? with
  | some (flag, on) => adjustOptions (·.set flag on)
  | none => if !ignoredOptions.contains name then badOption name position

def applyLimit (value : String) (position : Position) : Reading Unit := do
  match if value == "false" then some 0 else Text.natural? Options.countBound value with
  | some limit =>
    adjustOptions fun o => { o with maxErrors := limit }
    adjustSink (·.setLimit limit)
  | none => report "E032" position [value]

/-- Ignore lines from the comment on, up to it, or the line of the comment. -/
def applyIgnore (value : String) (position : Position) : Reading Unit :=
  match value with
  | "start" => adjustSink (·.beginIgnore position.line)
  | "end" => adjustSink (·.endIgnore position.line)
  | "line" => adjustSink (·.ignoreLine position.line)
  | _ => badOption "ignore" position

/-- Set the option of a name to a value. -/
def applyValue (name value : String) (position : Position) : Reading Unit := do
  let setEdition (edition : Edition) : Reading Unit :=
    adjustOptions fun o => { o with edition }
  match name with
  | "ignore" => applyIgnore value position
  | "esversion" =>
    match (Text.natural? Options.editionBound value).bind Edition.ofNumber? with
    | some edition => setEdition edition
    | none => badOption name position
  | "esnext" => if value == "true" then setEdition .es2015 else badOption name position
  | "es3" => if value == "true" then setEdition .es3 else badOption name position
  | "es5" => if value == "true" then setEdition .es5 else badOption name position
  | "maxerr" => applyLimit value position
  | "strict" =>
    let rule := StrictRule.ofChoice (.word value)
    applyRule name position rule fun strict o => { o with strict }
    if rule matches .ok .implied then track (·.setStrict)
  | "unused" =>
    applyRule name position (UnusedRule.ofChoice (.word value)) fun unused o => { o with unused }
  | "shadow" =>
    applyRule name position (ShadowRule.ofChoice (.word value)) fun shadow o => { o with shadow }
  | "gensent" => adjustOptions fun o => { o with generatorSent := value == "true" }
  | _ =>
    if name == "latedef" && value == "nofunc" then adjustOptions (·.set .latedef true)
    else applyFlag name value position

/-- Apply one item of an option comment. -/
def applyItem (position : Position) (item : String × Option String) : Reading Unit := do
  let (name, value?) := item
  match codeToggle? name with
  | some (code, enabled) => adjustSink (·.toggle code position.line enabled)
  | none =>
    match value? with
    | some value => applyValue name value position
    | none => badOption name position

def applyGlobal (item : String × Option String) : Reading Unit :=
  match item.1.toList with
  | '-' :: name => track (·.removeKnown (String.ofList name))
  | _ => track (·.addKnown item.1 (item.2 == some "true"))

def applyDirective (d : Directive) : Reading Unit :=
  match d.kind with
  | .jshint | .jslint => do
    d.items.forM (applyItem d.position)
    let rules := Scope.Rules.ofOptions (← options)
    track (·.setRules rules)
  | .global => d.items.forM applyGlobal
  | .exported => d.items.forM fun item => track (·.markExported item.1)
  | .fallsThrough => pure ()

end ScriptLint.Reading

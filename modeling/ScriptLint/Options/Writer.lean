import ScriptLint.Json.Basic
import ScriptLint.Options.Basic

/-! # Writing options

The JSON object with every option as a member. Rules are written by their keywords, the edition by
its short number, and the disabled codes in ascending order.
-/

namespace ScriptLint

/-- The keyword of a rule. -/
def StrictRule.keyword : StrictRule → String
  | .off => "off"
  | .required => "required"
  | .global => "global"
  | .implied => "implied"

/-- The keyword of a rule. -/
def UnusedRule.keyword : UnusedRule → String
  | .off => "off"
  | .vars => "vars"
  | .lastParam => "last-param"
  | .strict => "strict"

/-- The keyword of a rule. -/
def ShadowRule.keyword : ShadowRule → String
  | .allow => "allow"
  | .inner => "inner"
  | .outer => "outer"

namespace Options

def write (o : Options) : Json :=
  .object [
    ("esversion", .natural o.edition.number),
    ("strict", .string o.strict.keyword),
    ("module", .bool o.module),
    ("maxerr", .natural o.maxErrors),
    ("max_depth", .natural o.maxDepth),
    ("undef", .bool o.undef),
    ("unused", .string o.unused.keyword),
    ("latedef", .bool o.latedef),
    ("shadow", .string o.shadow.keyword),
    ("asi", .bool o.asi),
    ("boss", .bool o.boss),
    ("evil", .bool o.evil),
    ("debug", .bool o.debug),
    ("eqeqeq", .bool o.eqeqeq),
    ("forin", .bool o.forin),
    ("funcscope", .bool o.funcscope),
    ("globalstrict", .bool o.globalstrict),
    ("multistr", .bool o.multistr),
    ("nonbsp", .bool o.nonbsp),
    ("lastsemic", .bool o.lastsemic),
    ("expr", .bool o.expr),
    ("sub", .bool o.sub),
    ("elision", .bool o.elision),
    ("withstmt", .bool o.withstmt),
    ("unstable", .object [("gensent", .bool o.generatorSent)]),
    ("disabled", .list .string o.disabled.toList)]

end Options

end ScriptLint

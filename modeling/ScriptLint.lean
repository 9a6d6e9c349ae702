import ScriptLint.Main
import ScriptLint.Files.Tree
import ScriptLint.Options.Writer
import ScriptLint.Proofs.Analysis.Depth
import ScriptLint.Proofs.Analysis.Limit
import ScriptLint.Proofs.Analysis.Lockstep
import ScriptLint.Proofs.Analysis.Flag
import ScriptLint.Proofs.Lexing.Text
import ScriptLint.Proofs.Lexing.Run
import ScriptLint.Proofs.Options.RoundTrip
import ScriptLint.Proofs.Reading.Declarator
import ScriptLint.Proofs.Analysis.Heard
import ScriptLint.Proofs.Scope.Lexical
import ScriptLint.Proofs.Scope.Redeclaration
import ScriptLint.Proofs.Scope.Remark
import ScriptLint.Proofs.Scope.VarScope
import ScriptLint.Proofs.Reading.Silence
import ScriptLint.Proofs.Nesting.Group
import ScriptLint.Proofs.Scope.Level
import ScriptLint.Proofs.Scope.Touch
import ScriptLint.Proofs.Diagnostic.Spared
import ScriptLint.Proofs.Scope.Unlimited
import ScriptLint.Proofs.Scope.Outline
import ScriptLint.Proofs.Options.Tolerance
import ScriptLint.Proofs.Scope.Twin
import ScriptLint.Proofs.Lockstep.Basic
import ScriptLint.Proofs.Lockstep.Step
import ScriptLint.Proofs.Lockstep.Production
import ScriptLint.Proofs.Lockstep.Function
import ScriptLint.Proofs.Lockstep.Expression
import ScriptLint.Proofs.Lockstep.Statement
import ScriptLint.Proofs.Lockstep.Tolerance
import ScriptLint.Pool
import ScriptLint.Proofs.Run.Schedule
import ScriptLint.Proofs.Scope.Unused
import ScriptLint.Proofs.Scope.Rest
import ScriptLint.Proofs.Invariant.Basic
import ScriptLint.Proofs.Invariant.Session
import ScriptLint.Proofs.Invariant.Order
import ScriptLint.Proofs.Invariant.Function
import ScriptLint.Proofs.Invariant.Expression
import ScriptLint.Proofs.Invariant.Program
import ScriptLint.Proofs.Invariant.Touch
import ScriptLint.Proofs.Lexing.Space
import ScriptLint.Proofs.Invariant.Space
import ScriptLint.Proofs.Analysis.Told
import ScriptLint.Proofs.Analysis.Space
import ScriptLint.Proofs.Scope.Implied
import ScriptLint.Proofs.Diagnostic.Told
import ScriptLint.Proofs.Scope.Unresolved
import ScriptLint.Proofs.Invariant.Unresolved
import ScriptLint.Proofs.Analysis.Implied
import ScriptLint.Proofs.Core.Syntax
import ScriptLint.Proofs.Core.Word
import ScriptLint.Proofs.Core.Front
import ScriptLint.Proofs.Core.Group
import ScriptLint.Proofs.Core.Step
import ScriptLint.Proofs.Core.Operand
import ScriptLint.Proofs.Core.Function
import ScriptLint.Proofs.Core.Operator
import ScriptLint.Proofs.Core.Program
import ScriptLint.Proofs.Diagnostic.Suppression
import ScriptLint.Proofs.Scope.OwnName
import ScriptLint.Proofs.Scope.Export
import ScriptLint.Proofs.Scope.Station
import ScriptLint.Proofs.Scope.Strictness
import ScriptLint.Proofs.Analysis.Rejected
import ScriptLint.Proofs.Lexing.Delimiter
import ScriptLint.Proofs.Reading.Takes
import ScriptLint.Proofs.Reading.Chain
import ScriptLint.Proofs.Reading.Precedence
import ScriptLint.Proofs.Reading.Completion
import ScriptLint.Proofs.Reading.FallThrough
import ScriptLint.Proofs.Invariant.Enclosure
import ScriptLint.Proofs.Reading.Inside
import ScriptLint.Proofs.Reading.Unspoken
import ScriptLint.Proofs.Reading.Continue
import ScriptLint.Proofs.Lexing.Directive
import ScriptLint.Proofs.Reading.Target
import ScriptLint.Proofs.Lexing.Line
import ScriptLint.Proofs.Material.Basic
import ScriptLint.Proofs.Material.Scope
import ScriptLint.Proofs.Material.Step
import ScriptLint.Proofs.Material.Production
import ScriptLint.Proofs.Material.Expression
import ScriptLint.Proofs.Material.Program
import ScriptLint.Proofs.Diagnostic.Message
import ScriptLint.Proofs.Analysis.Report
import ScriptLint.Proofs.Reading.Key
import ScriptLint.Proofs.Balance.Program

import ScriptLint.Reading.Operator
import ScriptLint.Reading.Statement

/-! # Programs

The table of productions is tied to the constructs here. The knot is cut by a bound on how deeply
productions nest: each use of the table takes one off. Between one consumed token and the next there
are three uses at most, as from a statement to its expression to a pattern, so a bound in proportion
to the length of the source is enough.
-/

namespace ScriptLint.Reading

/-- The productions, nested at most `fuel` deep. Deeper ones are out of fuel. A level of the table
is only built once it is used, which is why each entry waits for the state. -/
def productions : Nat → Productions
  | 0 =>
    { expression := fun _ => throw .outOfFuel
      operand := throw .outOfFuel
      statement := fun _ => throw .outOfFuel
      bindingTarget := throw .outOfFuel
      assignmentPattern := throw .outOfFuel }
  | fuel + 1 =>
    { expression := fun power s => readExpression (productions fuel) power s
      operand := fun s => readOperand (productions fuel) s
      statement := fun inList s => readStatement (productions fuel) inList s
      bindingTarget := fun s => readBindingTarget (productions fuel) s
      assignmentPattern := fun s => readAssignmentPattern (productions fuel) s }

def program (self : Productions) : Reading Unit := do
  acceptLookahead
  directives none
  let _ ← statementList self true
  inScopes Scope.Action.finish

/-- How deeply productions may nest in a source of `size` bytes. -/
def nestingBound (size : Nat) : Nat := 4 * size + 16

end ScriptLint.Reading

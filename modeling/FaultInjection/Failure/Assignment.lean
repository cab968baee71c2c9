import FaultInjection.Failure.Basic
import FaultInjection.Failure.Definition
import FaultInjection.Wire.Message

/-!
Failures as assignments to their nodes. The specification travels as its canonical text, the
states as numbers.
-/

namespace FaultInjection.Failure

def toAssignment (failure : Failure) : Except Error Wire.Assignment :=
  failure.specification.render.map fun definition =>
    ⟨failure.id, failure.node, definition, failure.current.code, failure.expected.code,
      failure.generation⟩

/-- Reads an assignment: the current state, the expected state and the definition, in this order. -/
def ofAssignment (assignment : Wire.Assignment) : Except Error Failure := do
  let current ← State.ofCode assignment.current
  let expected ← State.ofCode assignment.expected
  let specification ← Specification.parse assignment.definition
  .ok ⟨assignment.node, assignment.id, specification, current, expected, assignment.generation⟩

end FaultInjection.Failure

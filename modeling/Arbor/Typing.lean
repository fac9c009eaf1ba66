import Arbor.Eval
import Arbor.Typing.Rules

/-!
# Type checking

`check` ties the typing rules to themselves, with one unit of fuel less at every
level.  The lengths of array types are evaluated with the same fuel as the
children, and with nothing in scope.

* `check_zero`, `check_succ` — the two equations of `check`.
-/

namespace Arbor

/-- The type of a node, with so much fuel; `result` is the result type of the enclosing
function, if it is known. -/
def check (program : Program) (result : Option Ty) : Nat → Checker
  | 0, _ => fun _ => none
  | fuel + 1, id => fun mismatches =>
    Stack.deepen fuel fun _ =>
      Typing.rule program result (staticLength (eval program fuel)) (check program result fuel) id
        mismatches

@[simp] theorem check_zero (program : Program) (result : Option Ty) (id : NodeId)
    (mismatches : Array (Located Mismatch)) : check program result 0 id mismatches = none := rfl

theorem check_succ (program : Program) (result : Option Ty) (fuel : Nat) (id : NodeId) :
    check program result (fuel + 1) id =
      Typing.rule program result (staticLength (eval program fuel)) (check program result fuel)
        id := by
  funext mismatches
  exact Stack.deepen_eq fuel _

/-- The mismatches in a function's body, checked against the function's result type. -/
def checkFunction (program : Program) (fuel : Nat) (signature : Signature) :
    Option (Array (Located Mismatch)) :=
  (check program (some signature.result) fuel signature.body #[]).map (·.2)

end Arbor

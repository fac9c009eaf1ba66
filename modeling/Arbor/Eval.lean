import Arbor.Eval.Call
import Arbor.Eval.Composite
import Arbor.Eval.Place
import Arbor.Eval.Statement
import Arbor.Stack

/-!
# Evaluation

`Eval.rule` says what one node does, in terms of a way to evaluate other nodes.
`eval` ties the rule to itself: with fuel `n + 1` a node is evaluated by the rule,
and everything below it with fuel `n`.  Fuel bounds the depth of the recursion,
not the number of steps; without fuel there is no result, which is different
from any result.

* `eval_zero`, `eval_succ` — these two equations.
-/

namespace Arbor

/-- What one node does, given how other nodes are evaluated. -/
def Eval.rule (program : Program) (ev : Evaluator) (fuel : Nat) : Evaluator := fun frame id =>
  match program.node? id with
  | none => Run.fail (.missingNode id) id
  | some node =>
    match node with
    | .int n => pure (.plain (.int n))
    | .string s => pure (.plain (.string s))
    | .bool b => pure (.plain (.bool b))
    | .nil => pure .undefined
    | .arrayLiteral elem length elements =>
      Eval.arrayLiteral ev frame id elem length (program.children elements)
    | .recordLiteral fields inits =>
      Eval.recordLiteral ev frame id fields (program.fieldInits inits)
    | .block body => Eval.sequence ev frame.sequence (program.children body)
    | .ret value => do
      let m ← ev frame value
      pure m.cleaned.asReturn
    | .cond init test thenBranch elseBranch =>
      Eval.conditional ev frame init test thenBranch elseBranch
    | .assign target value declares => Eval.assign program ev fuel frame id target value declares
    | .binary op left right => do
      let left ← ev frame left
      let right ← ev frame right
      Eval.settle id (((op.apply left.value right.value).map .plain).mapError .operator)
    | .not operand => do
      let operand ← ev frame operand
      Eval.settle id (((Operator.applyNot operand.value).map .plain).mapError .operator)
    | .var name _ => do
      let state ← get
      pure ((state.lookup name).getD .miss)
    | .subscript base index => Eval.subscript ev frame id base index
    | .select base field => Eval.select ev frame id base field
    | .call callee args => Eval.call ev frame id callee (program.children args)

/-- Evaluate a node with so much fuel. -/
def eval (program : Program) : Nat → Evaluator
  | 0, _, _ => Run.outOfFuel
  | fuel + 1, frame, id => fun state =>
    Stack.deepen fuel fun _ => Eval.rule program (eval program fuel) fuel frame id state

@[simp] theorem eval_zero (program : Program) (frame : Frame) (id : NodeId) :
    eval program 0 frame id = Run.outOfFuel := rfl

theorem eval_succ (program : Program) (fuel : Nat) (frame : Frame) (id : NodeId) :
    eval program (fuel + 1) frame id =
      Eval.rule program (eval program fuel) fuel frame id := by
  funext state
  exact Stack.deepen_eq fuel _

end Arbor

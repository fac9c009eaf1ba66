import Arbor.Eval.Run

/-!
# Statement sequences and conditionals

Statements run in order until one of them yields a returned value, which is then
the value of the sequence; otherwise the sequence yields undefined.
-/

namespace Arbor.Eval

/-- Run statements until one returns. -/
def sequence (ev : Evaluator) (frame : Frame) : List NodeId → Run Marked
  | [] => pure .undefined
  | statement :: rest => do
    let m ← ev frame statement
    if m.returned then pure m else sequence ev frame rest

/-- Run an optional statement for its effect. -/
def optionally (ev : Evaluator) (frame : Frame) (statement : Option NodeId) : Run Unit :=
  match statement with
  | some statement => discard (ev frame statement)
  | none => pure ()

/-- Run a test, then the branch it chooses. A test that is not a boolean is reported at the test
and runs neither branch. -/
def choose (ev : Evaluator) (frame : Frame) (test thenBranch : NodeId)
    (elseBranch : Option NodeId) : Run Marked := do
  let outcome ← ev frame test
  match outcome.value.bool? with
  | some true => ev frame thenBranch
  | some false =>
    match elseBranch with
    | some elseBranch => ev frame elseBranch
    | none => pure .undefined
  | none => Run.fail (.testNotBool outcome.value.ty) test

/-- Run an optional first statement, then a test, then a branch. -/
def conditional (ev : Evaluator) (frame : Frame) (init : Option NodeId)
    (test thenBranch : NodeId) (elseBranch : Option NodeId) : Run Marked := do
  optionally ev frame init
  choose ev frame test thenBranch elseBranch

end Arbor.Eval

import Arbor.Eval.Run
import Arbor.Node

/-!
# Calls

The callee is evaluated first.  If it is a function and the number of arguments
is right, the arguments are evaluated in the caller's frame and bound to the
parameters, of two parameters with one name to the later.  The body then runs
over these locals and the shared globals.
-/

namespace Arbor.Eval

/-- The locals of a call: each parameter bound to a clean copy of its argument. -/
def parameterScope (signature : Signature) (args : List Marked) : Namespace :=
  .ofPairs (signature.params.names.zip args)

/-- Run over other locals, and put the own ones back afterwards. -/
def withLocals {α : Type} (locals : Namespace) (run : Run α) : Run α := do
  let caller ← get
  set { caller with locals := locals }
  let result ← run
  modify fun state => { state with locals := caller.locals }
  pure result

/-- Run a function's body over its arguments, unless too many calls are active. -/
def invoke (ev : Evaluator) (frame : Frame) (id : NodeId) (signature : Signature)
    (args : List Marked) : Run Marked :=
  match frame.refusal? with
  | some limit => Run.fail (.callDepth limit) id
  | none => do
    let result ← withLocals (parameterScope signature args) (ev frame.callee signature.body)
    pure result.cleaned

/-- A call. -/
def call (ev : Evaluator) (frame : Frame) (id callee : NodeId) (args : List NodeId) :
    Run Marked := do
  let callee ← ev frame callee
  if callee.unresolved then Run.fail .unresolvedCallee id
  else
    match callee.value.ty.signature? with
    | none => Run.fail (.notCallable callee.value.ty) id
    | some signature =>
      if args.length ≠ signature.arity then Run.fail (.argumentCount signature args.length) id
      else do
        let values ← args.mapM (ev frame)
        invoke ev frame id signature values

end Arbor.Eval

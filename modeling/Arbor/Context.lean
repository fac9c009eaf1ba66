import Arbor.Eval

/-!
# Contexts

A host that evaluates nodes one by one keeps a context: a frame and the state
left by the nodes before.  A nested context works on the same scopes as a
statement sequence does, with faults of its own, which the outer context may
absorb afterwards.
-/

namespace Arbor

/-- A frame together with the state reached in it. -/
structure Context where
  frame : Frame
  state : State

namespace Context

/-- A context over two scopes, with no call active and no fault recorded. -/
def ofScopes (isFunction : Bool) (limit : Option Nat) (locals globals : Namespace) : Context :=
  ⟨{ isFunction, limit }, { locals, globals }⟩

/-- Evaluate a node. -/
def eval (context : Context) (program : Program) (fuel : Nat) (id : NodeId) :
    Option (Marked × Context) :=
  (Arbor.eval program fuel context.frame id context.state).map fun reached =>
    (reached.1, { context with state := reached.2 })

/-- The variable of that name, locals first. -/
def lookup (context : Context) (name : String) : Option Marked :=
  context.state.lookup name

/-- Bind a local variable. -/
def saveLocal (context : Context) (name : String) (m : Marked) : Context :=
  { context with state := { context.state with locals := context.state.locals.save name m } }

/-- Bind a global variable. -/
def saveGlobal (context : Context) (name : String) (m : Marked) : Context :=
  { context with state := { context.state with globals := context.state.globals.save name m } }

/-- Record a fault. -/
def record (context : Context) (fault : Located Fault) : Context :=
  { context with state := context.state.record fault }

/-- A context for a statement sequence, over the same scopes, without faults. -/
def nested (context : Context) : Context :=
  ⟨context.frame.sequence, { context.state with faults := #[] }⟩

/-- Go on after a nested context: its scopes are kept, and its faults come behind the own ones
if they are absorbed. -/
def resume (context inner : Context) (absorb : Bool) : Context :=
  { context with state := { inner.state with
      faults := context.state.faults ++ (if absorb then inner.state.faults else #[]) } }

end Context

end Arbor

import Arbor.Typing

/-!
# Sessions

A session is a program with named declarations and the globals that all calls
share.  A function declared under a name is also bound as a global of that name,
so that calls inside the program find it.  Calling a function binds the
arguments as locals and runs the body; whatever faults were recorded come back
together with the value.
-/

namespace Arbor

/-- A program with its declarations and its global variables. -/
structure Session where
  program : Program
  declarations : NameMap Ty := ∅
  globals : Namespace := ∅
  /-- The most calls that may be active inside a call by the host, if there is a limit. -/
  callLimit : Option Nat := none

/-- Why a call by the host has no plain result. -/
inductive CallError where
  | functionNotFound (name : String)
  | notAFunction (name : String)
  /-- The body ran and recorded faults. -/
  | execution (result : Marked) (faults : Array (Located Fault))

namespace CallError

/-- The message. -/
def message : CallError → String
  | .functionNotFound name => "function not found: " ++ name
  | .notAFunction name => "declaration " ++ name ++ " is not a function"
  | .execution _ faults => toString faults.size ++ " execution errors"

/-- The value of the body, if it ran; otherwise undefined. -/
def result : CallError → Marked
  | .execution result _ => result
  | _ => .undefined

/-- The faults that the body recorded. -/
def faults : CallError → Array (Located Fault)
  | .execution _ faults => faults
  | _ => #[]

end CallError

namespace Session

/-- A session without declarations and globals. -/
def ofProgram (program : Program) : Session := { program }

/-- Bind a global. -/
def bind (session : Session) (name : String) (m : Marked) : Session :=
  { session with globals := session.globals.save name m }

/-- Declare a function, which is also bound as a global. -/
def declareFunction (session : Session) (name : String) (signature : Signature) : Session :=
  { session.bind name (.plain (.function signature)) with
    declarations := session.declarations.insert name signature.ty }

/-- Declare a name of any type; a name of function type is a function. -/
def declare (session : Session) (name : String) (ty : Ty) : Session :=
  match ty.signature? with
  | some signature => session.declareFunction name signature
  | none => { session with declarations := session.declarations.insert name ty }

/-- Bind a global to the default value of a type. -/
def bindDefault (session : Session) (fuel : Nat) (name : String) (ty : Ty) : Sizing Session := do
  let zero ← defaultValue (staticLength (eval session.program fuel)) ty
  pure (session.bind name zero)

/-- Limit the number of calls that may be active inside a call by the host. -/
def limitCalls (session : Session) (limit : Nat) : Session :=
  { session with callLimit := some limit }

/-- Forget a global. -/
def unbind (session : Session) (name : String) : Session :=
  { session with globals := session.globals.erase name }

/-- The declared type of a name. -/
def declaration? (session : Session) (name : String) : Option Ty :=
  session.declarations.get? name

/-- The signature of the function declared under a name. -/
def function (session : Session) (name : String) : Except CallError Signature :=
  match session.declaration? name with
  | none => .error (.functionNotFound name)
  | some ty =>
    match ty.signature? with
    | none => .error (.notAFunction name)
    | some signature => .ok signature

/-- Run a function's body over named arguments; of two with one name the later wins. -/
def run (session : Session) (fuel : Nat) (signature : Signature) (args : Entries Marked) :
    Option (Marked × State) :=
  eval session.program fuel { isFunction := true, limit := session.callLimit } signature.body
    { locals := .ofPairs args, globals := session.globals }

/-- Call the function declared under a name. -/
def call (session : Session) (fuel : Nat) (name : String) (args : Entries Marked) :
    Option (Except CallError Marked × Session) :=
  match session.function name with
  | .error error => some (.error error, session)
  | .ok signature => do
    let (m, state) ← session.run fuel signature args
    let result := m.cleaned
    let outcome :=
      if state.faults.isEmpty then .ok result else .error (.execution result state.faults)
    pure (outcome, { session with globals := state.globals })

/-- Check the function declared under a name. -/
def typecheck (session : Session) (fuel : Nat) (name : String) :
    Option (Except CallError (Array (Located Mismatch))) :=
  match session.function name with
  | .error error => some (.error error)
  | .ok signature => (checkFunction session.program fuel signature).map .ok

end Session

end Arbor

import Arbor.Eval.Default
import Arbor.Node

/-!
# Composite literals

An array literal gives no element, and then all of them are defaults, or exactly
as many as its type is long.  A record literal fills the fields of its type in
declaration order, each from the first initializer of its name or, if there is
none, from its default; initializers that name no field are not evaluated.
-/

namespace Arbor.Eval

/-- An array literal. -/
def arrayLiteral (ev : Evaluator) (frame : Frame) (id : NodeId) (elem : Ty) (length : NodeId)
    (elements : List NodeId) : Run Marked := do
  match ← Run.sizing (staticLength ev length) with
  | .error cause => Run.fail (.literalLength cause) id
  | .ok n =>
    if elements.isEmpty then do
      match ← Run.sizing (defaultItems (staticLength ev) elem n) with
      | .error cause => Run.fail (.elementDefault elem cause) id
      | .ok items => pure (.list elem length items)
    else if elements.length ≠ n then Run.fail (.elementCount n elements.length) id
    else do
      let items ← elements.mapM (ev frame)
      pure (.list elem length items)

/-- One field of a record literal: initialized, or else its default. -/
def literalField (ev : Evaluator) (frame : Frame) (id : NodeId) (inits : List FieldInit)
    (name : String) (ty : Ty) : Run Marked :=
  match inits.find? (·.name == name) with
  | some init => ev frame init.value
  | none => do
    match ← Run.sizing (defaultValue (staticLength ev) ty) with
    | .error cause => Run.fail (.fieldDefault name ty cause) id
    | .ok zero => pure zero

/-- A record literal. -/
def recordLiteral (ev : Evaluator) (frame : Frame) (id : NodeId) (fields : Entries Ty)
    (inits : List FieldInit) : Run Marked := do
  let values ← fields.mapM fun field => do
    let value ← literalField ev frame id inits field.1 field.2
    pure (field.1, value)
  pure (.record fields values)

end Arbor.Eval

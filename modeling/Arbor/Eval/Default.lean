import Arbor.Eval.Run

/-!
# Array lengths and default values

The length of an array type is a node, evaluated with nothing in scope.  It
must come out as an integer from zero to `maxValues` without recording a fault
(`staticLength`).

The default value of a type is zero, the empty string, false or undefined, the
record of the defaults of its fields, or as many copies of the element's default
as the array is long.  No list in a default value may hold more than
`maxValues` values, counting nested ones.  An array of length zero does not ask
for its element's default.

* `filled_eq_ok_iff` — filling succeeds exactly within the cap;
* `defaultValue_array` — the default of an array is made of the default items.
-/

namespace Arbor

/-- The most values a default list may hold, nested values included. -/
def maxValues : Nat := 1048576

/-- A computation that may fail for want of a default value, or lack fuel. -/
abbrev Sizing := ExceptT DefaultFault Option

/-- Read an evaluated length: no fault may have been recorded, and the value must be an
integer in range. -/
def settledLength (m : Marked) (faults : Array (Located Fault)) : Except DefaultFault Nat :=
  match faults[0]? with
  | some first => .error (.lengthNotStatic first.cause)
  | none =>
    if m.unresolved then .error .lengthUnresolved
    else
      match m.value.int? with
      | none => .error (.lengthNotInteger m.value.kind)
      | some n =>
        if n.toInt < 0 then .error (.negativeLength n)
        else if maxValues < n.toInt.toNat then .error (.lengthTooLarge n.toInt.toNat)
        else .ok n.toInt.toNat

/-- The length that a node computes with nothing in scope. -/
def staticLength (ev : Evaluator) (length : NodeId) : Sizing Nat :=
  (ev {} length {}).map fun reached => settledLength reached.1 reached.2.faults

/-- So many copies of a value, if together they hold no more than `maxValues` values. -/
def filled (zero : Marked) (length : Nat) : Except DefaultFault (List Marked) :=
  if maxValues < length * zero.value.size then .error (.lengthTooLarge length)
  else .ok (List.replicate length zero)

theorem filled_eq_ok_iff {zero : Marked} {length : Nat} {items : List Marked} :
    filled zero length = .ok items ↔
      length * zero.value.size ≤ maxValues ∧ items = List.replicate length zero := by
  unfold filled
  split
  · next h => simp [Nat.not_le.mpr h]
  · next h => simp [Nat.not_lt.mp h, eq_comm]

mutual

/-- The default value of a type, given the lengths of arrays. -/
def defaultValue (lengthOf : NodeId → Sizing Nat) : Ty → Sizing Marked
  | .int => pure (.plain (.int 0))
  | .string => pure (.plain (.string ""))
  | .bool => pure (.plain (.bool false))
  | .undefined => pure .undefined
  | .array elem length => do
    let n ← lengthOf length
    if n = 0 then pure (.list elem length [])
    else do
      let zero ← defaultValue lengthOf elem
      let items ← MonadExcept.ofExcept (filled zero n)
      pure (.list elem length items)
  | .record fields => do
    let values ← defaultFields lengthOf fields
    pure (.record fields values)
  | .function .. => throw (.noDefault .function)
  | .unknown => throw (.noDefault .unknown)
termination_by structural ty => ty

/-- The default values of listed fields. -/
def defaultFields (lengthOf : NodeId → Sizing Nat) : List (String × Ty) → Sizing (Entries Marked)
  | [] => pure []
  | (name, ty) :: rest => do
    let zero ← defaultValue lengthOf ty
    let values ← defaultFields lengthOf rest
    pure ((name, zero) :: values)
termination_by structural fields => fields

end

/-- The elements of a default array of that length. -/
def defaultItems (lengthOf : NodeId → Sizing Nat) (elem : Ty) (n : Nat) : Sizing (List Marked) :=
  if n = 0 then pure []
  else do
    let zero ← defaultValue lengthOf elem
    MonadExcept.ofExcept (filled zero n)

theorem defaultValue_array (lengthOf : NodeId → Sizing Nat) (elem : Ty) (length : NodeId) :
    defaultValue lengthOf (.array elem length) = (do
      let n ← lengthOf length
      let items ← defaultItems lengthOf elem n
      pure (.list elem length items)) := by
  rw [defaultValue]
  congr 1
  funext n
  by_cases hn : n = 0 <;> simp [defaultItems, hn]

namespace Run

/-- Compute a length or a default beside the state. -/
def sizing {α : Type} (computed : Sizing α) : Run (Except DefaultFault α) :=
  aside computed.run

end Run

end Arbor

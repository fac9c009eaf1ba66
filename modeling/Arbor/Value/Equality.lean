import Arbor.Ty.Agreement
import Arbor.Value.Basic

/-!
# Equality of values

Two values are equal when their types agree and their contents do: scalars by
value, lists element by element, records field by field, functions by type
alone.  Control marks take no part, at any depth.  Since record fields are kept
in order of name, comparing them from left to right compares them as finite
maps.
-/

namespace Arbor.Value

mutual

/-- Whether two values are equal. -/
def equal : Value → Value → Bool
  | .int n, .int n' => n == n'
  | .string s, .string s' => s == s'
  | .bool b, .bool b' => b == b'
  | .undefined, .undefined => true
  | .list elem _ items, .list elem' _ items' =>
    elem.agrees elem' && equalItems items items'
  | .record shape fields, .record shape' fields' =>
    (Ty.record shape).agrees (.record shape') && equalFields fields fields'
  | .function signature, .function signature' => signature.ty.agrees signature'.ty
  | _, _ => false
termination_by structural v => v

/-- Whether two lists have the same length and equal elements. -/
def equalItems : List Marked → List Marked → Bool
  | [], [] => true
  | ⟨v, _, _⟩ :: rest, ⟨v', _, _⟩ :: rest' => v.equal v' && equalItems rest rest'
  | _, _ => false
termination_by structural items => items

/-- Whether two lists of fields have the same names and equal values. -/
def equalFields : List (String × Marked) → List (String × Marked) → Bool
  | [], [] => true
  | (name, ⟨v, _, _⟩) :: rest, (name', ⟨v', _, _⟩) :: rest' =>
    name == name' && v.equal v' && equalFields rest rest'
  | _, _ => false
termination_by structural fields => fields

end

end Arbor.Value

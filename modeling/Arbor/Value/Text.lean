import Arbor.Text.Quoted
import Arbor.Ty.Text
import Arbor.Value.Basic

/-!
# The written form of values

Integers in decimal, strings quoted, lists in brackets, records in braces with
their fields by ascending name, functions as their type.  Field names are
written as they are.
-/

namespace Arbor.Value

mutual

/-- What is written already, followed by the written form of a value. -/
def write : Value → String → String
  | .int n, written => written ++ toString n.toInt
  | .string s, written => written ++ Text.quoted s
  | .bool b, written => written ++ (if b then "true" else "false")
  | .undefined, written => written ++ "undefined"
  | .list _ _ items, written => writeItems items "" (written ++ "[") ++ "]"
  | .record _ fields, written => writeFields fields "" (written ++ "\x7b") ++ "\x7d"
  | .function signature, written => written ++ signature.ty.text
termination_by structural v => v

/-- Elements, each behind a separator: the given one before the first, a comma after that. -/
def writeItems : List Marked → String → String → String
  | [], _, written => written
  | ⟨v, _, _⟩ :: rest, separator, written => writeItems rest ", " (v.write (written ++ separator))
termination_by structural items => items

/-- Fields, each as its name, a colon and its value, separated like elements. -/
def writeFields : List (String × Marked) → String → String → String
  | [], _, written => written
  | (name, ⟨v, _, _⟩) :: rest, separator, written =>
    writeFields rest ", " (v.write (written ++ separator ++ name ++ ": "))
termination_by structural fields => fields

end

/-- The written form of a value. -/
def text (v : Value) : String :=
  v.write ""

end Arbor.Value

import Arbor.Fault

/-!
# Mismatches

What the type checker complains about, by cause.  As with runtime faults, the
kind, the code and the wording follow from the cause.
-/

namespace Arbor

/-- The class of a checker's complaint. -/
inductive MismatchKind where
  /-- A tree that no front end should produce. -/
  | internal
  /-- Types that do not go together. -/
  | incompatible
  /-- A named part that does not exist. -/
  | notFound
  /-- An array literal of the wrong length. -/
  | bounds
  deriving DecidableEq, Inhabited

namespace MismatchKind

/-- How the class is named. -/
def text : MismatchKind → String
  | .internal => "internal"
  | .incompatible => "incompatible types"
  | .notFound => "not found"
  | .bounds => "bounds"

/-- The code a host sees. -/
def code : MismatchKind → DiagnosticCode
  | .incompatible => .incompatibleTypes
  | .notFound => .elementNotFound
  | .bounds => .literalLength
  | .internal => .checkerInternal

/-- All classes. -/
def all : List MismatchKind := [.internal, .incompatible, .notFound, .bounds]

/-- The class with this name. -/
def ofText? (s : String) : Option MismatchKind :=
  all.find? (·.text == s)

end MismatchKind

/-- What is wrong with the types at a node. -/
inductive Mismatch where
  /-- There is no node of this number. -/
  | missingNode (id : NodeId)
  /-- A variable without a resolved type. -/
  | untypedVariable (name : String)
  | result (expected given : Ty)
  | testNotBool (ty : Ty)
  | assignment (value target : Ty)
  | operands (left right : Ty)
  | operatorUndefined (op : Operator) (kind : Kind)
  | negation (kind : Kind)
  | indexNotInt (ty : Ty)
  | notIndexable (ty : Ty)
  | noField (field : String)
  | notSelectable (ty : Ty)
  | notCallable (ty : Ty)
  | argumentCount (arity given : Nat)
  | argument (param given : Ty)
  | element (given elem : Ty)
  | elementCount (given length : Nat)
  /-- The length of an array literal's type cannot be computed. -/
  | literalLength (cause : DefaultFault)
  /-- A record literal initializes a field that its type lacks. -/
  | noInitField (field : String)
  | initializer (given field : Ty)
  /-- Reported by the host, in its own words. -/
  | reported (kind : MismatchKind) (message : String)

namespace Mismatch

/-- The class of a complaint. -/
def kind : Mismatch → MismatchKind
  | .missingNode _ | .untypedVariable _ => .internal
  | .noField _ | .noInitField _ => .notFound
  | .elementCount .. => .bounds
  | .reported kind _ => kind
  | _ => .incompatible

/-- The message. -/
def message : Mismatch → String
  | .missingNode id => "Cannot typecheck missing node " ++ id.text
  | .untypedVariable name => "Variable reference " ++ name ++ " has no resolved type"
  | .result expected given =>
    "Returned value does not match return type " ++ expected.text ++ ". Got type " ++ given.text
  | .testNotBool ty => "If condition must be bool - got type " ++ ty.text
  | .assignment value target =>
    "Cannot assign value of type " ++ value.text ++ " to target of type " ++ target.text
  | .operands left right => "Invalid types for operands: " ++ left.text ++ " and " ++ right.text
  | .operatorUndefined op kind =>
    "Invalid operation for " ++ kind.text ++ " operands: " ++ op.symbol
  | .negation kind =>
    "Invalid operation for " ++ kind.text ++ " operand: " ++ Operator.notSymbol
  | .indexNotInt ty => "Cannot subscript with non-integer index - got type: " ++ ty.text
  | .notIndexable ty => "Cannot subscript non-array type " ++ ty.text
  | .noField field => "Cannot find sub-element " ++ field
  | .notSelectable ty => "Cannot select non-struct type " ++ ty.text
  | .notCallable ty => "Cannot perform function invocation on type " ++ ty.text
  | .argumentCount arity given =>
    "Wrong number of arguments: function takes " ++ toString arity ++ " but was called with " ++
      toString given
  | .argument param given =>
    "Parameter type mismatch: parameter has type " ++ param.text ++ " but was called with " ++
      given.text
  | .element given elem =>
    "Invalid array literal - cannot have value of type " ++ given.text ++ " in array of " ++
      elem.text
  | .elementCount given length =>
    "Invalid array literal - " ++ toString given ++ " elements given for an array of length " ++
      toString length
  | .literalLength cause => "Invalid array literal - " ++ cause.message
  | .noInitField field => "Invalid struct literal - no field named " ++ field
  | .initializer given field =>
    "Invalid struct literal - cannot have value of type " ++ given.text ++
      " when the field is typed " ++ field.text
  | .reported _ message => message

/-- A located complaint as it is shown to a user. -/
def diagnostic (mismatch : Located Mismatch) : Diagnostic :=
  ⟨mismatch.cause.kind.code, mismatch.cause.message, mismatch.node⟩

end Mismatch

end Arbor

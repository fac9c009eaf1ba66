import Arbor.Arithmetic
import Arbor.Diagnostic

/-!
# Faults

Why running a program went wrong at some node.  A fault never stops evaluation:
it is recorded, and the node yields undefined.  Faults are told apart by their
cause; the kind, the code and the wording follow from the cause.

Asking a type for its default value can fail too (`DefaultFault`), and one way
to fail is that computing an array length recorded a fault, so the two kinds of
causes are defined together.
-/

namespace Arbor

/-- The class of a runtime problem. -/
inductive FaultKind where
  /-- A value of the wrong kind. -/
  | type
  /-- An index or a length out of range. -/
  | bounds
  /-- An unbound variable or a missing field. -/
  | notFound
  /-- A tree shape that cannot be run. -/
  | invalidTree
  /-- Something that a well-formed program cannot cause. -/
  | internal
  | notSupported
  /-- Division by zero or a result that no word holds. -/
  | arithmetic
  deriving DecidableEq, Inhabited

namespace FaultKind

/-- How messages name the class. -/
def text : FaultKind → String
  | .type => "type"
  | .bounds => "bounds"
  | .notFound => "not found"
  | .invalidTree => "invalid tree"
  | .internal => "internal"
  | .notSupported => "not supported"
  | .arithmetic => "arithmetic"

/-- The code a host sees. -/
def code : FaultKind → DiagnosticCode
  | .type => .runtimeType
  | .bounds => .outOfBounds
  | .notFound => .notFound
  | .arithmetic => .arithmetic
  | .notSupported => .notSupported
  | .invalidTree => .invalidTree
  | .internal => .evaluatorInternal

/-- All classes. -/
def all : List FaultKind :=
  [.type, .bounds, .notFound, .invalidTree, .internal, .notSupported, .arithmetic]

/-- The class with this name. -/
def ofText? (s : String) : Option FaultKind :=
  all.find? (·.text == s)

end FaultKind

mutual

/-- Why a node could not be evaluated. -/
inductive Fault where
  /-- There is no node of this number. -/
  | missingNode (id : NodeId)
  /-- The target of an assignment is a number that no node has. -/
  | missingTarget (id : NodeId)
  /-- The target of an assignment is not a variable, subscript or selector. -/
  | unassignable (construct : String)
  /-- The base of a composite target is not a variable, subscript or selector. -/
  | unassignableBase (construct : String)
  | testNotBool (ty : Ty)
  | operator (error : OperatorError)
  | unresolvedSubscriptBase
  | unresolvedSelectorBase
  | unresolvedCallee
  /-- The variable that a composite target starts from is bound nowhere. -/
  | unresolvedRoot (name : String)
  | notIndexable (ty : Ty)
  | indexNotInt (ty : Ty)
  | indexOutOfBounds (index : Int64) (length : Nat)
  | notSelectable (field : String) (ty : Ty)
  | noField (field : String)
  | notCallable (ty : Ty)
  | argumentCount (signature : Signature) (given : Nat)
  /-- One more call would exceed the limit on nested calls. -/
  | callDepth (limit : Nat)
  /-- The length of an array literal's type cannot be computed. -/
  | literalLength (cause : DefaultFault)
  /-- An array literal lists neither none nor all of its elements. -/
  | elementCount (length given : Nat)
  /-- The elements an array literal leaves out have no default value. -/
  | elementDefault (elem : Ty) (cause : DefaultFault)
  /-- A field that a record literal leaves out has no default value. -/
  | fieldDefault (field : String) (ty : Ty) (cause : DefaultFault)
  /-- Reported by the host, in its own words. -/
  | reported (kind : FaultKind) (message : String)

/-- Why a type has no default value. -/
inductive DefaultFault where
  /-- Computing the array length recorded faults, of which this is the first. -/
  | lengthNotStatic (first : Fault)
  /-- The array length is an unbound variable, which all variables are here. -/
  | lengthUnresolved
  | lengthNotInteger (kind : Kind)
  | negativeLength (length : Int64)
  /-- The array, counting nested values, would hold too many values. -/
  | lengthTooLarge (length : Nat)
  /-- Types of this kind have no default value at all. -/
  | noDefault (kind : Kind)

end

instance : Inhabited Fault := ⟨.unresolvedCallee⟩

/-- Whether a default failed because an array would have become too large. -/
def DefaultFault.isTooLarge : DefaultFault → Bool
  | .lengthTooLarge _ => true
  | _ => false

/-- The class of a fault. A length or a default that fails for being too large is a matter of
bounds; a record field's default that fails is internal in any case. -/
def Fault.kind : Fault → FaultKind
  | .missingNode _ | .missingTarget _ | .argumentCount .. => .invalidTree
  | .unassignable _ | .unassignableBase _ => .notSupported
  | .testNotBool _ | .notIndexable _ | .indexNotInt _ | .notSelectable .. | .notCallable _ => .type
  | .operator error => if error.isArithmetic then .arithmetic else .type
  | .unresolvedSubscriptBase | .unresolvedSelectorBase | .unresolvedCallee | .unresolvedRoot _
  | .noField _ => .notFound
  | .indexOutOfBounds .. | .elementCount .. => .bounds
  | .callDepth _ | .fieldDefault .. => .internal
  | .literalLength cause => if cause.isTooLarge then .bounds else .type
  | .elementDefault _ cause => if cause.isTooLarge then .bounds else .internal
  | .reported kind _ => kind

mutual

/-- The message of a fault. -/
def Fault.message : Fault → String
  | .missingNode id => "node " ++ id.text ++ " does not exist in this program"
  | .missingTarget id => "assignment target " ++ id.text ++ " does not exist"
  | .unassignable construct => "Cannot assign to " ++ construct
  | .unassignableBase construct => "Cannot assign through " ++ construct
  | .testNotBool ty => "if condition must be bool, got " ++ ty.text
  | .operator error => error.message
  | .unresolvedSubscriptBase => "Could not resolve a value/variable for subscript base"
  | .unresolvedSelectorBase => "Could not resolve a value/variable for selector base"
  | .unresolvedCallee => "Could not resolve function for call"
  | .unresolvedRoot name => "Could not resolve variable " ++ name
  | .notIndexable ty => "Cannot perform subscript operation on type " ++ ty.text
  | .indexNotInt ty => "Subscript index must be int, got " ++ ty.text
  | .indexOutOfBounds index length =>
    "Subscript out of bounds: index " ++ toString index.toInt ++ ", length " ++ toString length
  | .notSelectable field ty => "Cannot select field " ++ field ++ " on type " ++ ty.text
  | .noField field => "No field named " ++ field
  | .notCallable ty => "Cannot call value of type " ++ ty.text
  | .argumentCount signature given =>
    "function " ++ signature.ty.text ++ " expects " ++ toString signature.arity ++
      " arguments, got " ++ toString given
  | .callDepth limit => "maximum call depth of " ++ toString limit ++ " exceeded"
  | .literalLength cause => cause.message
  | .elementCount length given =>
    "Literal used in array assignment does not match the size of the underlying array (" ++
      toString length ++ " elements, got " ++ toString given ++ ")"
  | .elementDefault elem cause =>
    if cause.isTooLarge then cause.message
    else "Failed to create default array element of type " ++ elem.text ++ ": " ++ cause.message
  | .fieldDefault field ty cause =>
    "Failed to create default value to populate field '" ++ field ++ "' with type " ++ ty.text ++
      ": " ++ cause.message
  | .reported _ message => message
termination_by structural fault => fault

/-- The message of a failed default. -/
def DefaultFault.message : DefaultFault → String
  | .lengthNotStatic first => "array length is not statically resolvable: " ++ first.message
  | .lengthUnresolved =>
    "array length is not statically resolvable: length refers to a variable"
  | .lengthNotInteger kind => "array length is not an integer (got " ++ kind.text ++ ")"
  | .negativeLength length => "array length is negative (" ++ toString length.toInt ++ ")"
  | .lengthTooLarge length => "array length " ++ toString length ++ " is too large"
  | .noDefault kind => "type of kind " ++ kind.text ++ " has no default value"
termination_by structural cause => cause

end

namespace Fault

/-- The text a fault shows by itself. -/
def text (fault : Fault) : String :=
  fault.kind.text ++ " error: " ++ fault.message

/-- A located fault as it is shown to a user. -/
def diagnostic (fault : Located Fault) : Diagnostic :=
  ⟨fault.cause.kind.code, fault.cause.message, fault.node⟩

end Fault

end Arbor

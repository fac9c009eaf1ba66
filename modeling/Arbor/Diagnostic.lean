import Arbor.NodeId

/-!
# Diagnostics

What a host shows to its user: a stable code, a message, and the node the
message is about.  Codes are grouped by their first digit: `E2` for the type
checker, `E6` for running programs, `E9` for trees that should not exist.
-/

namespace Arbor

/-- The stable code of a class of problems. -/
inductive DiagnosticCode where
  | incompatibleTypes
  | elementNotFound
  | literalLength
  | runtimeType
  | outOfBounds
  | notFound
  | arithmetic
  | notSupported
  | invalidTree
  | checkerInternal
  | evaluatorInternal
  deriving DecidableEq, Inhabited

namespace DiagnosticCode

/-- All codes, in the order of their texts. -/
def all : List DiagnosticCode :=
  [.incompatibleTypes, .elementNotFound, .literalLength, .runtimeType, .outOfBounds, .notFound,
    .arithmetic, .notSupported, .invalidTree, .checkerInternal, .evaluatorInternal]

/-- The code as it is shown. -/
def text : DiagnosticCode → String
  | .incompatibleTypes => "E2001"
  | .elementNotFound => "E2002"
  | .literalLength => "E2003"
  | .runtimeType => "E6001"
  | .outOfBounds => "E6002"
  | .notFound => "E6003"
  | .arithmetic => "E6004"
  | .notSupported => "E6005"
  | .invalidTree => "E6006"
  | .checkerInternal => "E9001"
  | .evaluatorInternal => "E9002"

/-- What the code stands for, in a few words. -/
def description : DiagnosticCode → String
  | .incompatibleTypes => "incompatible types"
  | .elementNotFound => "named element not found"
  | .literalLength => "array literal length mismatch"
  | .runtimeType => "runtime type error"
  | .outOfBounds => "out of bounds"
  | .notFound => "not found"
  | .arithmetic => "arithmetic error"
  | .notSupported => "not supported"
  | .invalidTree => "invalid program tree"
  | .checkerInternal => "internal type checker error"
  | .evaluatorInternal => "internal evaluator error"

/-- Whether the code belongs to the type checker. -/
def isTypeError : DiagnosticCode → Bool
  | .incompatibleTypes | .elementNotFound | .literalLength => true
  | _ => false

/-- Whether the code belongs to running programs. -/
def isRuntimeError : DiagnosticCode → Bool
  | .runtimeType | .outOfBounds | .notFound | .arithmetic | .notSupported | .invalidTree => true
  | _ => false

/-- Whether the code tells of a tree that should not exist. -/
def isInternal : DiagnosticCode → Bool
  | .checkerInternal | .evaluatorInternal => true
  | _ => false

/-- The code with this text, read without regard to case. Only the letter `E` has a case, and
no character outside ASCII has it as its upper case. -/
def ofText? (s : String) : Option DiagnosticCode :=
  all.find? fun code => code.text == s.map Char.toUpper

end DiagnosticCode

/-- A problem as it is shown to a user. -/
structure Diagnostic where
  code : DiagnosticCode
  message : String
  node : NodeId

namespace Diagnostic

/-- The line that is shown; the node is named unless it is the reserved number. -/
def text (d : Diagnostic) : String :=
  "error[" ++ d.code.text ++ "]: " ++ d.message ++
    (if d.node.isValid then " (at node " ++ d.node.text ++ ")" else "")

end Diagnostic

/-- A cause together with the node it is about. -/
structure Located (cause : Type) where
  cause : cause
  node : NodeId

end Arbor

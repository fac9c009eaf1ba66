import Arbor.NameMap
import Arbor.NodeId

/-!
# Types

A type describes the shape of a value.  Arrays carry the node that computes
their length, and functions carry the node of their body, so a function value
needs nothing beside its type.  `unknown` is the type of an expression that the
checker has already complained about; running a program never produces it.

Fields and parameters are listed in declaration order, and a name may be
listed twice.

* `Ty.induct` — induction over types, with a hypothesis for every field and
  parameter.
-/

namespace Arbor

/-- A resolved type. -/
inductive Ty where
  | int
  | string
  | bool
  | undefined
  | unknown
  | array (elem : Ty) (length : NodeId)
  | record (fields : List (String × Ty))
  | function (params : List (String × Ty)) (result : Ty) (body : NodeId)
  deriving Inhabited

/-- The outermost shape of a type. -/
inductive Kind where
  | int | string | bool | array | record | function | undefined | unknown
  deriving DecidableEq, Inhabited

/-- How messages name a kind. -/
def Kind.text : Kind → String
  | .int => "int"
  | .string => "string"
  | .bool => "bool"
  | .array => "array"
  | .record => "struct"
  | .function => "function"
  | .undefined => "undefined"
  | .unknown => "unknown"

/-- What a function takes and yields, and where its body is. -/
structure Signature where
  params : Entries Ty
  result : Ty
  body : NodeId
  deriving Inhabited

/-- The function type with this signature. -/
def Signature.ty (signature : Signature) : Ty :=
  .function signature.params signature.result signature.body

/-- The number of parameters. -/
def Signature.arity (signature : Signature) : Nat :=
  signature.params.length

namespace Ty

/-- The outermost shape. -/
def kind : Ty → Kind
  | .int => .int
  | .string => .string
  | .bool => .bool
  | .undefined => .undefined
  | .unknown => .unknown
  | .array .. => .array
  | .record .. => .record
  | .function .. => .function

/-- The element type of an array; any other type is its own base. -/
def base : Ty → Ty
  | .array elem _ => elem
  | ty => ty

/-- Whether this is `unknown`. -/
def isUnknown : Ty → Bool
  | .unknown => true
  | _ => false

/-- The signature of a function type. -/
def signature? : Ty → Option Signature
  | .function params result body => some ⟨params, result, body⟩
  | _ => none

/-- The type of the first field called `name`, for records. -/
def field? (name : String) : Ty → Option Ty
  | .record fields => Entries.get? name fields
  | _ => none

theorem signature?_eq_some_iff {ty : Ty} {signature : Signature} :
    ty.signature? = some signature ↔ ty = signature.ty := by
  obtain ⟨params, result, body⟩ := signature
  cases ty <;> simp [signature?, Signature.ty]

@[simp] theorem signature?_ty (signature : Signature) :
    signature.ty.signature? = some signature :=
  signature?_eq_some_iff.mpr rfl

theorem isUnknown_iff {ty : Ty} : ty.isUnknown = true ↔ ty = .unknown := by
  cases ty <;> simp [isUnknown]

/-- Induction over types: a composite type may assume the statement for its element, for
each of its fields, or for each parameter and the result. -/
@[elab_as_elim]
theorem induct {motive : Ty → Prop} (int : motive .int) (string : motive .string)
    (bool : motive .bool) (undefined : motive .undefined) (unknown : motive .unknown)
    (array : ∀ elem length, motive elem → motive (.array elem length))
    (record : ∀ fields : Entries Ty, (∀ field ∈ fields, motive field.2) →
      motive (.record fields))
    (function : ∀ (params : Entries Ty) (result : Ty) (body : NodeId),
      (∀ param ∈ params, motive param.2) → motive result →
      motive (.function params result body))
    (ty : Ty) : motive ty :=
  @Ty.rec motive (fun fields => ∀ field ∈ fields, motive field.2) (fun field => motive field.2)
    int string bool undefined unknown array record function
    (fun _ h => nomatch h)
    (fun _ _ hhead htail => List.forall_mem_cons.mpr ⟨hhead, htail⟩)
    (fun _ _ h => h) ty

end Ty

end Arbor

import Arbor.Proofs.Accepted
import Arbor.Proofs.Conformance

/-!
# Function bodies

The bodies that the checker vouches for are made of expressions and statements
in their places, with one type for each variable name.  Calls are left out, and
so is the literal that yields undefined, which the checker lets pass anywhere.

Bodies are described by the nodes of a program (`Expression`, `Target`,
`Statement`), independently of any types found for them.  Types that are written
down in a body, or belong to a variable, have to be proper.

* `Expression.proper` — then the types that the checker finds are proper too, so
  it never passes over a comparison.
-/

namespace Arbor

section Bodies

variable (program : Program) (G : String → Ty) (named : String → Prop)

/-- The nodes that may stand where a value is needed. The variables among them are named, and
each carries the type of its name. -/
inductive Expression : NodeId → Prop where
  | int {id : NodeId} {n : Int64} (hnode : program.node? id = some (.int n)) : Expression id
  | string {id : NodeId} {s : String} (hnode : program.node? id = some (.string s)) :
    Expression id
  | bool {id : NodeId} {b : Bool} (hnode : program.node? id = some (.bool b)) : Expression id
  /-- Elements that are left out have a default value. -/
  | arrayLiteral {id : NodeId} {elem : Ty} {length : NodeId} {elements : Span NodeId}
    (hnode : program.node? id = some (.arrayLiteral elem length elements)) (helem : elem.Proper)
    (helements : ∀ element ∈ program.children elements, Expression element)
    (hdefault : program.children elements = [] →
      ∃ zero, HasDefault program (.array elem length) zero) : Expression id
  /-- Fields that are left out have a default value. -/
  | recordLiteral {id : NodeId} {fields : Entries Ty} {inits : Span FieldInit}
    (hnode : program.node? id = some (.recordLiteral fields inits))
    (hfields : (Ty.record fields).Proper)
    (hinits : ∀ init ∈ program.fieldInits inits, Expression init.value)
    (hdefault : ∀ field ∈ fields, (∀ init ∈ program.fieldInits inits, init.name ≠ field.1) →
      ∃ zero, HasDefault program field.2 zero) : Expression id
  | binary {id : NodeId} {op : Operator} {left right : NodeId}
    (hnode : program.node? id = some (.binary op left right)) (hleft : Expression left)
    (hright : Expression right) : Expression id
  | not {id operand : NodeId} (hnode : program.node? id = some (.not operand))
    (hoperand : Expression operand) : Expression id
  | var {id : NodeId} {name : String} (hnode : program.node? id = some (.var name (G name)))
    (hnamed : named name) (hty : (G name).Proper) : Expression id
  | subscript {id base index : NodeId}
    (hnode : program.node? id = some (.subscript base index)) (hbase : Expression base)
    (hindex : Expression index) : Expression id
  | select {id base : NodeId} {name : String}
    (hnode : program.node? id = some (.select base name)) (hbase : Expression base) :
    Expression id

/-- The nodes that may be assigned to. -/
inductive Target : NodeId → Prop where
  | var {id : NodeId} {name : String} (hnode : program.node? id = some (.var name (G name)))
    (hnamed : named name) (hty : (G name).Proper) : Target id
  | subscript {id base index : NodeId}
    (hnode : program.node? id = some (.subscript base index)) (hbase : Target base)
    (hindex : Expression program G named index) : Target id
  | select {id base : NodeId} {name : String}
    (hnode : program.node? id = some (.select base name)) (hbase : Target base) : Target id

/-- The nodes that may stand where a statement is expected. -/
inductive Statement : NodeId → Prop where
  | expression {id : NodeId} (h : Expression program G named id) : Statement id
  | block {id : NodeId} {body : Span NodeId} (hnode : program.node? id = some (.block body))
    (hbody : ∀ statement ∈ program.children body, Statement statement) : Statement id
  | cond {id test thenBranch : NodeId} {init elseBranch : Option NodeId}
    (hnode : program.node? id = some (.cond init test thenBranch elseBranch))
    (hinit : ∀ statement ∈ init, Statement statement) (htest : Expression program G named test)
    (hthen : Statement thenBranch) (helse : ∀ statement ∈ elseBranch, Statement statement) :
    Statement id
  | ret {id value : NodeId} (hnode : program.node? id = some (.ret value))
    (hvalue : Expression program G named value) : Statement id
  | assign {id target value : NodeId} {declares : Bool}
    (hnode : program.node? id = some (.assign target value declares))
    (htarget : Target program G named target) (hvalue : Expression program G named value) :
    Statement id

end Bodies

variable {program : Program} {G : String → Ty} {named : String → Prop} {result : Option Ty}
  {id : NodeId} {ty : Ty}

theorem Target.expression (h : Target program G named id) : Expression program G named id := by
  induction h with
  | var hnode hnamed hty => exact .var hnode hnamed hty
  | subscript hnode _ hindex ih => exact .subscript hnode ih hindex
  | select hnode _ ih => exact .select hnode ih

/-- A compared type that is known agrees with the one asked for. -/
theorem Ty.Proper.agrees_of_compared {asked : Ty} (hty : ty.Proper)
    (h : (ty.isUnknown || ty.agrees asked) = true) : ty.agrees asked = true := by
  rwa [hty.isUnknown_eq_false, Bool.false_or] at h

/-- The checker finds proper types only. -/
theorem Expression.proper (h : Expression program G named id)
    (haccepts : Accepts program result id ty) : ty.Proper := by
  induction h generalizing ty with
  | int hnode => exact haccepts.int hnode ▸ .int
  | string hnode => exact haccepts.string hnode ▸ .string
  | bool hnode => exact haccepts.bool hnode ▸ .bool
  | arrayLiteral hnode helem => exact (haccepts.arrayLiteral hnode).1 ▸ .array helem
  | recordLiteral hnode hfields => exact (haccepts.recordLiteral hnode).1 ▸ hfields
  | binary hnode _ _ ihleft ihright =>
    obtain ⟨t, t', hleft, hright, hty⟩ := haccepts.binary hnode
    obtain ⟨-, -, rfl⟩ := Typing.binaryType_eq_ok (ihleft hleft).isUnknown_eq_false
      (ihright hright).isUnknown_eq_false hty
    split
    · exact .bool
    · exact ihleft hleft
  | not hnode _ ih =>
    obtain ⟨t, hoperand, hty⟩ := haccepts.not hnode
    obtain ⟨-, rfl⟩ := Typing.negationType_eq_ok (ih hoperand).isUnknown_eq_false hty
    exact .bool
  | var hnode _ hty => exact Typing.variableType_eq_ok (haccepts.var hnode) ▸ hty
  | subscript hnode _ _ ihbase _ =>
    obtain ⟨-, t, hbase, hty⟩ := haccepts.subscript hnode
    obtain ⟨length, rfl⟩ := Typing.elementType_eq_ok (ihbase hbase).isUnknown_eq_false hty
    cases ihbase hbase with
    | array helem => exact helem
  | select hnode _ ih =>
    obtain ⟨t, hbase, hty⟩ := haccepts.select hnode
    obtain ⟨fields, rfl, hfield⟩ := Typing.fieldType_eq_ok (ih hbase).isUnknown_eq_false hty
    cases ih hbase with
    | record _ hfields => exact hfields _ (Entries.mem_of_get?_eq_some hfield)

end Arbor

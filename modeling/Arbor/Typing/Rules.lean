import Arbor.Eval.Default
import Arbor.Program
import Arbor.Typing.Mismatch

/-!
# Typing rules

Checking a node computes the type its value would have and records every
mismatch on the way; it never stops.  A node that had a mismatch has the type
`unknown`, which fits everywhere, so one mistake above a node does not repeat
what was said below it.

Each rule checks all children of its node, in a fixed order, before it looks at
any of their types.  The rules are given over any way to check other nodes, and
are tied to themselves in `Arbor.Typing`.
-/

namespace Arbor

/-- A computation that records mismatches; without a result when the fuel is too little. -/
abbrev Checking := StateT (Array (Located Mismatch)) Option

/-- A way to check nodes. -/
abbrev Checker := NodeId → Checking Ty

namespace Typing

/-- Record a mismatch at a node. -/
def report (mismatch : Mismatch) (node : NodeId) : Checking Unit :=
  modify (·.push ⟨mismatch, node⟩)

/-- Record a mismatch at a node, whose type is unknown from then on. -/
def reject (mismatch : Mismatch) (node : NodeId) : Checking Ty := do
  report mismatch node
  pure .unknown

/-- Record a mismatch unless the type is unknown or agrees with what is asked for. -/
def expect (ty asked : Ty) (mismatch : Mismatch) (node : NodeId) : Checking Unit :=
  if ty.isUnknown || ty.agrees asked then pure () else report mismatch node

/-- The given type, or unknown if anything was recorded while a literal was checked. -/
def unlessReported (ty : Ty) (check : Checking Unit) : Checking Ty := do
  let before := (← get).size
  check
  let after := (← get).size
  pure (if after = before then ty else .unknown)

/-- Whether an operator is defined for two operands of that kind. -/
def isDefinedFor (op : Operator) : Kind → Bool
  | .int => op.isArithmetic || op == .eq
  | .string => op == .add || op == .eq
  | .bool => op.isLogical || op == .eq
  | _ => false

/-- Record a mismatch unless the length of an array literal's type can be computed, and there are
no elements or as many as it says. -/
def compareLength (id length : NodeId) (given : Nat) (outcome : Except DefaultFault Nat) :
    Checking Unit :=
  match outcome with
  | .ok n => if given = 0 || given = n then pure () else report (.elementCount given n) id
  | .error cause => report (.literalLength cause) length

/-- An array literal. -/
def arrayLiteral (check : Checker) (lengthOf : NodeId → Sizing Nat) (id : NodeId) (elem : Ty)
    (length : NodeId) (elements : List NodeId) : Checking Ty :=
  unlessReported (.array elem length) do
    elements.forM fun element => do
      let ty ← check element
      expect ty elem (.element ty elem) element
    let outcome ← liftM (lengthOf length).run
    compareLength id length elements.length outcome

/-- Record a mismatch unless an initializer of that type initializes a field. -/
def initializes (id : NodeId) (fields : Entries Ty) (init : FieldInit) (ty : Ty) : Checking Unit :=
  match Entries.get? init.name fields with
  | none => report (.noInitField init.name) id
  | some field => expect ty field (.initializer ty field) init.value

/-- A record literal. -/
def recordLiteral (check : Checker) (id : NodeId) (fields : Entries Ty) (inits : List FieldInit) :
    Checking Ty :=
  unlessReported (.record fields) do
    inits.forM fun init => do
      let ty ← check init.value
      initializes id fields init ty

/-- The type of a node, or the mismatch recorded at it. -/
def settle (id : NodeId) (verdict : Except Mismatch Ty) : Checking Ty :=
  match verdict with
  | .ok ty => pure ty
  | .error mismatch => reject mismatch id

/-- The type of a return, against the result type of the enclosing function if there is one. -/
def returnType (result : Option Ty) (ty : Ty) : Except Mismatch Ty :=
  match result with
  | none => .ok ty
  | some asked =>
    if ty.isUnknown || asked.isUnknown || ty.agrees asked then .ok ty
    else .error (.result asked ty)

/-- The type of an assignment. -/
def assignmentType (value target : Ty) : Except Mismatch Ty :=
  if value.isUnknown || target.isUnknown then .ok .unknown
  else if value.agrees target then .ok target
  else .error (.assignment value target)

/-- The type of a binary operation. -/
def binaryType (op : Operator) (left right : Ty) : Except Mismatch Ty :=
  if left.isUnknown || right.isUnknown then .ok .unknown
  else if !left.agrees right then .error (.operands left right)
  else if !isDefinedFor op left.kind then .error (.operatorUndefined op left.kind)
  else .ok (if op = .eq then .bool else left)

/-- The type of a negation. -/
def negationType : Ty → Except Mismatch Ty
  | .unknown => .ok .unknown
  | .bool => .ok .bool
  | ty => .error (.negation ty.kind)

/-- The type of an element. -/
def elementType : Ty → Except Mismatch Ty
  | .unknown => .ok .unknown
  | .array elem _ => .ok elem
  | ty => .error (.notIndexable ty)

/-- The type of a field. -/
def fieldType (name : String) : Ty → Except Mismatch Ty
  | .unknown => .ok .unknown
  | .record fields =>
    match Entries.get? name fields with
    | some ty => .ok ty
    | none => .error (.noField name)
  | ty => .error (.notSelectable ty)

/-- The type of a variable, which has to be attached. -/
def variableType (name : String) (ty : Ty) : Except Mismatch Ty :=
  if ty.isUnknown then .error (.untypedVariable name) else .ok ty

section Verdicts

variable {ty left right : Ty}

/-- Two known types are compared and the operator is looked up. -/
theorem binaryType_eq_ok {op : Operator} (hleft : left.isUnknown = false)
    (hright : right.isUnknown = false) (h : binaryType op left right = .ok ty) :
    left.agrees right = true ∧ isDefinedFor op left.kind = true ∧
      ty = if op = .eq then .bool else left := by
  unfold binaryType at h
  rw [hleft, hright] at h
  cases hagree : left.agrees right with
  | false => simp [hagree] at h
  | true =>
    cases hdefined : isDefinedFor op left.kind with
    | false => simp [hagree, hdefined] at h
    | true => simpa [hagree, hdefined, eq_comm] using h

theorem negationType_eq_ok {operand : Ty} (hoperand : operand.isUnknown = false)
    (h : negationType operand = .ok ty) : operand = .bool ∧ ty = .bool := by
  cases operand with
  | bool =>
    cases h
    exact ⟨rfl, rfl⟩
  | unknown => cases hoperand
  | _ => cases h

theorem elementType_eq_ok {base : Ty} (hbase : base.isUnknown = false)
    (h : elementType base = .ok ty) : ∃ length, base = .array ty length := by
  cases base with
  | array elem length =>
    cases h
    exact ⟨length, rfl⟩
  | unknown => cases hbase
  | _ => cases h

theorem fieldType_eq_ok {base : Ty} {name : String} (hbase : base.isUnknown = false)
    (h : fieldType name base = .ok ty) :
    ∃ fields, base = .record fields ∧ Entries.get? name fields = some ty := by
  cases base with
  | record fields =>
    unfold fieldType at h
    cases hty : Entries.get? name fields with
    | none => simp [hty] at h
    | some ty' =>
      simp only [hty, Except.ok.injEq] at h
      exact ⟨fields, rfl, h ▸ hty⟩
  | unknown => cases hbase
  | _ => cases h

theorem variableType_eq_ok {name : String} {attached : Ty}
    (h : variableType name attached = .ok ty) : attached = ty := by
  unfold variableType at h
  split at h
  · cases h
  · exact Except.ok.inj h

theorem assignmentType_eq_ok {value target : Ty} (hvalue : value.isUnknown = false)
    (htarget : target.isUnknown = false) (h : assignmentType value target = .ok ty) :
    value.agrees target = true := by
  unfold assignmentType at h
  rw [hvalue, htarget] at h
  cases hagree : value.agrees target with
  | false => simp [hagree] at h
  | true => rfl

theorem returnType_eq_ok {value asked : Ty} (hvalue : value.isUnknown = false)
    (hasked : asked.isUnknown = false) (h : returnType (some asked) value = .ok ty) :
    value.agrees asked = true := by
  unfold returnType at h
  cases hagree : value.agrees asked with
  | false => simp [hvalue, hasked, hagree] at h
  | true => rfl

end Verdicts

/-- Check an optional statement. -/
def optionally (check : Checker) (statement : Option NodeId) : Checking Unit :=
  match statement with
  | some statement => discard (check statement)
  | none => pure ()

/-- A conditional; a wrong test is reported at the test. -/
def conditional (check : Checker) (init : Option NodeId) (test thenBranch : NodeId)
    (elseBranch : Option NodeId) : Checking Ty := do
  optionally check init
  let ty ← check test
  expect ty .bool (.testNotBool ty) test
  discard (check thenBranch)
  optionally check elseBranch
  pure .undefined

/-- An assignment; the value is checked before the target. -/
def assignment (check : Checker) (id target value : NodeId) : Checking Ty := do
  let value ← check value
  let target ← check target
  settle id (assignmentType value target)

/-- A binary operator. -/
def binary (check : Checker) (id : NodeId) (op : Operator) (left right : NodeId) :
    Checking Ty := do
  let left ← check left
  let right ← check right
  settle id (binaryType op left right)

/-- A subscript; the index is checked before the base, and reported by itself. -/
def subscript (check : Checker) (id base index : NodeId) : Checking Ty := do
  let ty ← check index
  expect ty .int (.indexNotInt ty) index
  let base ← check base
  settle id (elementType base)

/-- A call: the callee and all arguments are checked first. -/
def call (check : Checker) (id callee : NodeId) (args : List NodeId) : Checking Ty := do
  let callee ← check callee
  let types ← args.mapM check
  match callee with
  | .unknown => pure .unknown
  | .function params result _ =>
    if params.length ≠ types.length then reject (.argumentCount params.length types.length) id
    else do
      ((params.zip types).zip args).forM fun ((param, ty), arg) =>
        expect ty param.2 (.argument param.2 ty) arg
      pure result
  | ty => reject (.notCallable ty) id

/-- What checking one node does, given how other nodes are checked and lengths computed. -/
def rule (program : Program) (result : Option Ty) (lengthOf : NodeId → Sizing Nat)
    (check : Checker) : Checker := fun id =>
  match program.node? id with
  | none => reject (.missingNode id) id
  | some node =>
    match node with
    | .int _ => pure .int
    | .string _ => pure .string
    | .bool _ => pure .bool
    | .nil => pure .unknown
    | .arrayLiteral elem length elements =>
      arrayLiteral check lengthOf id elem length (program.children elements)
    | .recordLiteral fields inits => recordLiteral check id fields (program.fieldInits inits)
    | .block body => do
      (program.children body).forM fun statement => discard (check statement)
      pure .undefined
    | .ret value => do
      let ty ← check value
      settle id (returnType result ty)
    | .cond init test thenBranch elseBranch => conditional check init test thenBranch elseBranch
    | .assign target value _ => assignment check id target value
    | .binary op left right => binary check id op left right
    | .not operand => do
      let ty ← check operand
      settle id (negationType ty)
    | .var name ty => settle id (variableType name ty)
    | .subscript base index => subscript check id base index
    | .select base name => do
      let ty ← check base
      settle id (fieldType name ty)
    | .call callee args => call check id callee (program.children args)

end Typing

end Arbor

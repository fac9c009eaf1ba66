import Arbor.Proofs.Cascade
import Arbor.Proofs.Parallel

/-!
# Other annotations

A variable carries the type that was attached to it.  Evaluation never looks at it,
so programs that differ in such annotations only evaluate alike, and the lengths of
their array types are the same.  Checking looks at it, but it makes no difference
which of two types that agree is attached.

* `Program.Reannotates.eval_eq` — evaluation does not depend on annotations;
* `Typing.rule_parallel` — a rule checks both programs in parallel;
* `check_reannotated` — checking reports the same problems at the same nodes.
-/

namespace Arbor

namespace Program

/-- The programs differ in the types attached to variables only, and these agree. -/
structure Reannotates (program other : Program) : Prop where
  nodes : ∀ id, other.node? id = program.node? id ∨
    ∃ name ty ty', program.node? id = some (.var name ty) ∧
      other.node? id = some (.var name ty') ∧ ty.agrees ty' = true
  childCells : other.childCells = program.childCells
  initCells : other.initCells = program.initCells

/-- One annotation is replaced. -/
theorem reannotates_replaceNode {program : Program} {id : NodeId} {name : String} {ty ty' : Ty}
    (hnode : program.node? id = some (.var name ty)) (hagree : ty.agrees ty' = true) :
    program.Reannotates (program.replaceNode id (.var name ty')) := by
  refine ⟨fun ref => ?_, rfl, rfl⟩
  by_cases href : ref = id
  · subst href
    obtain ⟨hin, -⟩ := Array.getElem?_eq_some_iff.mp hnode
    exact .inr ⟨name, ty, ty', hnode, Array.getElem?_setIfInBounds_self_of_lt hin, hagree⟩
  · exact .inl (program.readsAlike_replaceNode _ href).node

namespace Reannotates

variable {program other : Program} (h : program.Reannotates other)
include h

theorem children_eq (span : Span NodeId) : other.children span = program.children span := by
  rw [children, h.childCells, children]

theorem fieldInits_eq (span : Span FieldInit) :
    other.fieldInits span = program.fieldInits span := by
  rw [fieldInits, h.initCells, fieldInits]

/-! ### Evaluation -/

theorem resolve_eq (ev : Evaluator) (frame : Frame) (fuel : Nat) (id : NodeId) :
    Eval.resolve other ev frame fuel id = Eval.resolve program ev frame fuel id := by
  induction fuel generalizing id with
  | zero => rfl
  | succ fuel ih =>
    unfold Eval.resolve
    rcases h.nodes id with hsame | ⟨name, ty, ty', hnode, hother, -⟩
    · simp only [hsame, ih]
    · rw [hnode, hother]

theorem assign_eq (ev : Evaluator) (fuel : Nat) (frame : Frame) (id target value : NodeId)
    (declares : Bool) :
    Eval.assign other ev fuel frame id target value declares =
      Eval.assign program ev fuel frame id target value declares := by
  unfold Eval.assign Eval.assignPlace
  rcases h.nodes target with hsame | ⟨name, ty, ty', hnode, hother, -⟩
  · rw [hsame, h.resolve_eq]
  · rw [hnode, hother]

theorem rule_eq (ev : Evaluator) (fuel : Nat) (frame : Frame) (id : NodeId) :
    Eval.rule other ev fuel frame id = Eval.rule program ev fuel frame id := by
  unfold Eval.rule
  rcases h.nodes id with hsame | ⟨name, ty, ty', hnode, hother, -⟩
  · simp only [hsame, h.children_eq, h.fieldInits_eq, h.assign_eq]
  · rw [hnode, hother]

/-- Evaluation does not depend on the types attached to variables. -/
theorem eval_eq (fuel : Nat) : eval other fuel = eval program fuel := by
  induction fuel with
  | zero => rfl
  | succ fuel ih =>
    funext frame id
    rw [eval_succ, eval_succ, ih, h.rule_eq]

end Reannotates

end Program

/-! ### Checking -/

open Checking

/-- A rule checks both programs in parallel, if the nodes below are. -/
theorem Typing.rule_parallel {program other : Program} (h : program.Reannotates other)
    {result result' : Option Ty} (hresult : Option.Rel Ty.Alike result result')
    {lengthOf : NodeId → Sizing Nat} {check check' : Checker}
    (hcheck : ∀ id, Parallel Ty.Alike (check id) (check' id)) (id : NodeId) :
    Parallel Ty.Alike (rule program result lengthOf check id)
      (rule other result' lengthOf check' id) := by
  unfold rule
  rcases h.nodes id with hsame | ⟨name, ty, ty', hnode, hother, hagree⟩
  · rw [hsame]
    cases program.node? id with
    | none => exact parallel_reject rfl id
    | some node =>
      cases node with
      | int n => exact parallel_pure (.refl .int)
      | string s => exact parallel_pure (.refl .string)
      | bool b => exact parallel_pure (.refl .bool)
      | nil => exact parallel_pure (.refl .unknown)
      | arrayLiteral elem length elements =>
        dsimp only
        rw [h.children_eq]
        exact arrayLiteral_parallel hcheck id elem length _
      | recordLiteral fields inits =>
        dsimp only
        rw [h.fieldInits_eq]
        exact recordLiteral_parallel hcheck id fields _
      | block body =>
        dsimp only
        rw [h.children_eq]
        exact (Parallel.forM (List.forall₂_same.mpr fun statement _ =>
          discard_parallel hcheck statement)).bind_pure fun _ _ _ => Ty.Alike.refl .undefined
      | ret value =>
        exact (hcheck value).bind fun _ _ hty =>
          parallel_settle id (returnType_alike hresult hty)
      | cond init test thenBranch elseBranch =>
        exact conditional_parallel hcheck init test thenBranch elseBranch
      | assign target value declares =>
        exact (hcheck value).bind fun _ _ hvalue => (hcheck target).bind fun _ _ htarget =>
          parallel_settle id (assignmentType_alike hvalue htarget)
      | binary op left right =>
        exact (hcheck left).bind fun _ _ hleft => (hcheck right).bind fun _ _ hright =>
          parallel_settle id (binaryType_alike op hleft hright)
      | not operand =>
        exact (hcheck operand).bind fun _ _ hty => parallel_settle id (negationType_alike hty)
      | var name ty => exact parallel_settle id (.refl _)
      | subscript base index => exact subscript_parallel hcheck id base index
      | select base name =>
        exact (hcheck base).bind fun _ _ hty => parallel_settle id (fieldType_alike name hty)
      | call callee args =>
        dsimp only
        rw [h.children_eq]
        exact call_parallel hcheck id callee _
  · rw [hnode, hother]
    exact parallel_settle id (variableType_alike name (.inr hagree))

theorem check_parallel {program other : Program} (h : program.Reannotates other)
    {result result' : Option Ty} (hresult : Option.Rel Ty.Alike result result') (fuel : Nat)
    (id : NodeId) :
    Parallel Ty.Alike (check program result fuel id) (check other result' fuel id) := by
  induction fuel generalizing id with
  | zero => exact fun _ _ _ => .none
  | succ fuel ih =>
    rw [check_succ, check_succ, h.eval_eq]
    exact Typing.rule_parallel h hresult ih id

/-- **Checking respects agreement.**  Replace the types attached to variables by types that agree,
and the result type too.  With any fuel, checking a node ends in both cases or in neither.  It
reports as many mismatches, of the same classes and at the same nodes, one by one, and the type
that it yields is the same or agrees. -/
theorem check_reannotated {program other : Program} (h : program.Reannotates other)
    {result result' : Option Ty} (hresult : Option.Rel Ty.Alike result result') (fuel : Nat)
    (root : NodeId) :
    Option.Rel (fun reached reached' => reached.1.Alike reached'.1 ∧
        Mismatch.AllAlike reached.2 reached'.2)
      (check program result fuel root #[]) (check other result' fuel root #[]) :=
  check_parallel h hresult fuel root #[] #[] .nil

/-- A field is listed twice, so this type does not agree with itself. -/
def oddType : Ty :=
  .record [("a", .int), ("a", .bool)]

/-- A call of a function that takes a record, with something of the odd type. -/
def pairCallProgram : Program where
  nodes := #[.var "f" (.function [("pair", .record [("a", .int), ("b", .bool)])]
    (.array .int ⟨3⟩) ⟨4⟩), .var "odd" oddType, .call ⟨0⟩ ⟨0, 1⟩]
  childCells := #[⟨1⟩]

/-- Lists the fields in another order; the parameter, the length and the body differ as well. -/
def swappedPairType : Ty :=
  .function [("p", .record [("b", .bool), ("a", .int)])] (.array .int ⟨5⟩) ⟨6⟩

/-- The argument is rejected in both cases, with messages that show the fields in another order. -/
theorem check_reannotated_pairCallProgram :
    let other := pairCallProgram.replaceNode ⟨0⟩ (.var "f" swappedPairType)
    let rejected : Mismatch := .argument (.record [("a", .int), ("b", .bool)]) oddType
    let rejected' : Mismatch := .argument (.record [("b", .bool), ("a", .int)]) oddType
    pairCallProgram.Reannotates other ∧
    check pairCallProgram none 2 ⟨2⟩ #[] = some (.array .int ⟨3⟩, #[⟨rejected, ⟨1⟩⟩]) ∧
    check other none 2 ⟨2⟩ #[] = some (.array .int ⟨5⟩, #[⟨rejected', ⟨1⟩⟩]) ∧
    (Ty.array .int ⟨3⟩).Alike (.array .int ⟨5⟩) ∧
    Mismatch.AllAlike #[⟨rejected, ⟨1⟩⟩] #[⟨rejected', ⟨1⟩⟩] := by
  intro other rejected rejected'
  have hother : pairCallProgram.Reannotates other :=
    Program.reannotates_replaceNode rfl (by decide)
  have hcheck : check pairCallProgram none 2 ⟨2⟩ #[] =
      some (.array .int ⟨3⟩, #[⟨rejected, ⟨1⟩⟩]) := rfl
  have hcheck' : check other none 2 ⟨2⟩ #[] =
      some (.array .int ⟨5⟩, #[⟨rejected', ⟨1⟩⟩]) := rfl
  have hrel := check_reannotated hother (.none : Option.Rel Ty.Alike none none) 2 ⟨2⟩
  rw [hcheck, hcheck'] at hrel
  cases hrel with
  | some halike => exact ⟨hother, hcheck, hcheck', halike.1, halike.2⟩

end Arbor

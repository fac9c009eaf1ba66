import Arbor.Program
import Mathlib.Logic.Relation

/-!
# What a node refers to

A node refers to the nodes below it in two ways.  Its children are evaluated, or
checked, as part of it.  A composite literal carries a type as well, and the
lengths of the array types in it are nodes, evaluated by themselves.

Programs are plain tables, so nothing keeps references from running in circles.
In a *descending* program they do not: every node refers to smaller numbers only,
or to numbers that no node carries.

* `Program.ReadsAlike.children_eq` — two programs that hold the same node, over
  the same lists, agree on its children;
* `Program.EndsWithin` — how long paths along references are at most;
* `Program.Descending.rank_lt` — in a descending program, a measure of nodes that
  falls along every reference.
-/

namespace Arbor

/-! ### Children and lengths -/

namespace Ty

mutual

/-- The length nodes that a default value of the type may ask for. A function type has no
default, so the lengths inside of it are never asked for. -/
def lengths : Ty → List NodeId
  | .array elem length => length :: elem.lengths
  | .record fields => fieldLengths fields
  | _ => []
termination_by structural ty => ty

/-- The length nodes of listed fields. -/
def fieldLengths : List (String × Ty) → List NodeId
  | [] => []
  | (_, ty) :: rest => ty.lengths ++ fieldLengths rest
termination_by structural fields => fields

end

theorem mem_fieldLengths {fields : Entries Ty} {field : String × Ty} {length : NodeId}
    (hfield : field ∈ fields) (h : length ∈ field.2.lengths) : length ∈ fieldLengths fields := by
  induction fields with
  | nil => cases hfield
  | cons head rest ih =>
    rw [fieldLengths, List.mem_append]
    rcases List.mem_cons.mp hfield with rfl | hrest
    · exact .inl h
    · exact .inr (ih hrest)

end Ty

namespace Node

/-- The nodes directly below this one. -/
def children (program : Program) : Node → List NodeId
  | .arrayLiteral _ _ elements => program.children elements
  | .recordLiteral _ inits => (program.fieldInits inits).map (·.value)
  | .block body => program.children body
  | .ret value => [value]
  | .cond init test thenBranch elseBranch =>
    init.toList ++ [test, thenBranch] ++ elseBranch.toList
  | .assign target value _ => [target, value]
  | .binary _ left right => [left, right]
  | .not operand => [operand]
  | .subscript base index => [base, index]
  | .select base _ => [base]
  | .call callee args => callee :: program.children args
  | _ => []

/-- The length nodes in the type of a composite literal. -/
def lengths : Node → List NodeId
  | .arrayLiteral elem length _ => (Ty.array elem length).lengths
  | .recordLiteral fields _ => (Ty.record fields).lengths
  | _ => []

/-- All nodes that this one refers to. -/
def references (program : Program) (node : Node) : List NodeId :=
  node.children program ++ node.lengths

/-- The lists of children that a node names. -/
def lists : Node → List (Span NodeId)
  | .arrayLiteral _ _ elements => [elements]
  | .block body => [body]
  | .call _ args => [args]
  | _ => []

/-- The lists of field initializers that a node names. -/
def initLists : Node → List (Span FieldInit)
  | .recordLiteral _ inits => [inits]
  | _ => []

end Node

namespace Program

variable {program other : Program} {id : NodeId} {node : Node}

/-- The node `child` is directly below the node `id`. -/
def HasChild (program : Program) (id child : NodeId) : Prop :=
  ∃ node, program.node? id = some node ∧ child ∈ node.children program

/-- `part` is `id` itself or is reached from it through children. -/
def Contains (program : Program) (id part : NodeId) : Prop :=
  Relation.ReflTransGen program.HasChild id part

/-- The node `id` refers to `ref`. -/
def Refers (program : Program) (id ref : NodeId) : Prop :=
  ∃ node, program.node? id = some node ∧ ref ∈ node.references program

/-- `target` is `id` itself or is reached from it along references. -/
def Reaches (program : Program) (id target : NodeId) : Prop :=
  Relation.ReflTransGen program.Refers id target

theorem refers_of_child {child : NodeId} (hnode : program.node? id = some node)
    (h : child ∈ node.children program) : program.Refers id child :=
  ⟨node, hnode, List.mem_append_left _ h⟩

theorem refers_of_length {length : NodeId} (hnode : program.node? id = some node)
    (h : length ∈ node.lengths) : program.Refers id length :=
  ⟨node, hnode, List.mem_append_right _ h⟩

/-! ### Programs that agree at a node -/

/-- Both programs hold the same node at `id`, and read the same lists for it. -/
structure ReadsAlike (program other : Program) (id : NodeId) : Prop where
  node : other.node? id = program.node? id
  lists : ∀ node, program.node? id = some node →
    ∀ span ∈ node.lists, other.children span = program.children span
  inits : ∀ node, program.node? id = some node →
    ∀ span ∈ node.initLists, other.fieldInits span = program.fieldInits span

theorem ReadsAlike.refl (program : Program) (id : NodeId) : program.ReadsAlike program id :=
  ⟨rfl, fun _ _ _ _ => rfl, fun _ _ _ _ => rfl⟩

theorem ReadsAlike.symm (h : program.ReadsAlike other id) : other.ReadsAlike program id :=
  ⟨h.node.symm, fun node hnode span hspan => (h.lists node (h.node ▸ hnode) span hspan).symm,
    fun node hnode span hspan => (h.inits node (h.node ▸ hnode) span hspan).symm⟩

theorem ReadsAlike.children_eq (h : program.ReadsAlike other id)
    (hnode : program.node? id = some node) : node.children other = node.children program := by
  have hlists := h.lists node hnode
  have hinits := h.inits node hnode
  cases node with
  | arrayLiteral elem length elements => exact hlists elements (List.mem_singleton.mpr rfl)
  | recordLiteral fields inits =>
    exact congrArg (List.map (·.value)) (hinits inits (List.mem_singleton.mpr rfl))
  | block body => exact hlists body (List.mem_singleton.mpr rfl)
  | call callee args =>
    exact congrArg (List.cons callee) (hlists args (List.mem_singleton.mpr rfl))
  | _ => rfl

theorem ReadsAlike.refers_iff (h : program.ReadsAlike other id) {ref : NodeId} :
    other.Refers id ref ↔ program.Refers id ref := by
  unfold Refers
  rw [h.node]
  refine exists_congr fun node => and_congr_right fun hnode => ?_
  rw [Node.references, Node.references, h.children_eq hnode]

/-! ### Paths of references -/

/-- No path along references from the node visits more than `depth` nodes. -/
def EndsWithin (program : Program) : Nat → NodeId → Prop
  | 0, _ => False
  | depth + 1, id => ∀ ref, program.Refers id ref → program.EndsWithin depth ref

theorem EndsWithin.mono {depth depth' : Nat} (hdepth : depth ≤ depth')
    (h : program.EndsWithin depth id) : program.EndsWithin depth' id := by
  induction depth generalizing depth' id with
  | zero => exact h.elim
  | succ depth ih =>
    obtain ⟨depth', rfl⟩ : ∃ n, depth' = n + 1 := ⟨depth' - 1, by omega⟩
    exact fun ref hrefers => ih (by omega) (h ref hrefers)

/-- What a node refers to ends within the same depth, and even earlier. -/
theorem EndsWithin.of_refers {depth : Nat} {ref : NodeId} (h : program.EndsWithin depth id)
    (hrefers : program.Refers id ref) : program.EndsWithin depth ref := by
  cases depth with
  | zero => exact h.elim
  | succ depth => exact (h ref hrefers).mono (Nat.le_succ depth)

/-! ### Descending programs -/

/-- Every node refers to smaller numbers only, or to numbers past the last node. -/
def Descending (program : Program) : Prop :=
  ∀ id ref, program.Refers id ref → ref.index < id.index ∨ program.size ≤ ref.index.toNat

/-- It is enough to look at the nodes one by one. -/
theorem descending_of_forall (h : ∀ (i : Nat) (hi : i < program.size),
    ∀ ref ∈ program.nodes[i].references program,
      ref.index.toNat < i ∨ program.size ≤ ref.index.toNat) : program.Descending := by
  intro id ref hrefers
  obtain ⟨node, hnode, href⟩ := hrefers
  obtain ⟨hi, rfl⟩ := Array.getElem?_eq_some_iff.mp hnode
  exact (h id.index.toNat hi ref href).imp_left UInt32.lt_iff_toNat_lt.mpr

theorem node?_eq_none_iff : program.node? id = none ↔ program.size ≤ id.index.toNat :=
  Array.getElem?_eq_none_iff

/-- A measure of nodes: missing nodes come first, all others in the order of their numbers. -/
def rank (program : Program) (id : NodeId) : Nat :=
  if program.size ≤ id.index.toNat then 1 else id.index.toNat + 2

theorem rank_pos (program : Program) (id : NodeId) : 0 < program.rank id := by
  unfold rank
  split <;> omega

theorem rank_le (program : Program) (id : NodeId) : program.rank id ≤ program.size + 1 := by
  unfold rank
  split <;> omega

/-- In a descending program the measure falls along every reference. -/
theorem Descending.rank_lt (h : program.Descending) {ref : NodeId}
    (hrefers : program.Refers id ref) : program.rank ref < program.rank id := by
  obtain ⟨node, hnode, href⟩ := hrefers
  have hpresent : ¬ program.size ≤ id.index.toNat := by
    rw [← node?_eq_none_iff, hnode]
    exact nofun
  unfold rank
  rw [if_neg hpresent]
  rcases h id ref ⟨node, hnode, href⟩ with hlt | hmissing
  · have hlt' : ref.index.toNat < id.index.toNat := UInt32.lt_iff_toNat_lt.mp hlt
    split <;> omega
  · rw [if_pos hmissing]
    omega

/-- In a descending program, a node has no longer paths than its measure. -/
theorem Descending.endsWithin (h : program.Descending) {depth : Nat}
    (hdepth : program.rank id ≤ depth) : program.EndsWithin depth id := by
  induction depth generalizing id with
  | zero => exact absurd (program.rank_pos id) (by omega)
  | succ depth ih =>
    intro ref hrefers
    have hlt := h.rank_lt hrefers
    exact ih (by omega)

end Program

end Arbor

import Arbor.Node

/-!
# Programs

A program is three storages that only grow: its nodes, the children of all its
lists, and the initializers of all its record literals.  Adding to a storage
answers where the addition was put, as a number or a span of 32-bit words.

* `Program.node?_addNode_self` — a new number denotes the node it was given for;
* `Program.children_addList_self`, `Program.fieldInits_addInits_self` — the same
  for spans.

All three hold as long as the storage stays below `UInt32.size` cells, the most a
32-bit word can address.
-/

namespace Arbor

/-- A program tree in flat storage. -/
structure Program where
  /-- The nodes, by number. -/
  nodes : Array Node := #[]
  /-- The cells of all lists of children. -/
  childCells : Array NodeId := #[]
  /-- The cells of all lists of field initializers. -/
  initCells : Array FieldInit := #[]
  deriving Inhabited

namespace Program

/-- The program without nodes. -/
def empty : Program := {}

/-- The node of that number. -/
def node? (program : Program) (id : NodeId) : Option Node :=
  program.nodes[id.index.toNat]?

/-- The list of children that the span denotes. -/
def children (program : Program) (span : Span NodeId) : List NodeId :=
  span.cells program.childCells

/-- The list of field initializers that the span denotes. -/
def fieldInits (program : Program) (span : Span FieldInit) : List FieldInit :=
  span.cells program.initCells

/-- The number of nodes. -/
def size (program : Program) : Nat :=
  program.nodes.size

/-- Whether there are no nodes. -/
def isEmpty (program : Program) : Bool :=
  program.nodes.isEmpty

/-- The span of `count` cells appended to a storage of `size` cells. -/
def appendedSpan (α : Type) (size count : Nat) : Span α :=
  ⟨UInt32.ofNat size, UInt32.ofNat (size + count) - UInt32.ofNat size⟩

/-- Add a node; the answer is its number. -/
def addNode (program : Program) (node : Node) : NodeId × Program :=
  (⟨UInt32.ofNat program.nodes.size⟩, { program with nodes := program.nodes.push node })

/-- Add a list of children; the answer is its span. -/
def addList (program : Program) (ids : List NodeId) : Span NodeId × Program :=
  (appendedSpan NodeId program.childCells.size ids.length,
    { program with childCells := program.childCells ++ ids })

/-- Add a list of field initializers; the answer is its span. -/
def addInits (program : Program) (inits : List FieldInit) : Span FieldInit × Program :=
  (appendedSpan FieldInit program.initCells.size inits.length,
    { program with initCells := program.initCells ++ inits })

theorem node?_addNode_self (program : Program) (node : Node) (h : program.size < UInt32.size) :
    (program.addNode node).2.node? (program.addNode node).1 = some node := by
  have hid : (UInt32.ofNat program.nodes.size).toNat = program.nodes.size :=
    UInt32.toNat_ofNat_of_lt' h
  rw [addNode, node?, hid]
  exact Array.getElem?_push_size

theorem appendedSpan_start (α : Type) {size count : Nat} (h : size + count < UInt32.size) :
    (appendedSpan α size count).start.toNat = size :=
  UInt32.toNat_ofNat_of_lt' (Nat.lt_of_le_of_lt (Nat.le_add_right size count) h)

theorem appendedSpan_length (α : Type) {size count : Nat} (h : size + count < UInt32.size) :
    (appendedSpan α size count).length.toNat = count := by
  have hstart : (UInt32.ofNat size).toNat = size := appendedSpan_start α h
  have hstop : (UInt32.ofNat (size + count)).toNat = size + count := UInt32.toNat_ofNat_of_lt' h
  have hle : UInt32.ofNat size ≤ UInt32.ofNat (size + count) := by
    rw [UInt32.le_iff_toNat_le, hstart, hstop]
    exact Nat.le_add_right size count
  rw [appendedSpan, UInt32.toNat_sub_of_le _ _ hle, hstart, hstop]
  exact Nat.add_sub_cancel_left size count

/-- The span of an appended list denotes that list. -/
theorem cells_appendedSpan {α : Type} (storage : Array α) (added : List α)
    (h : storage.size + added.length < UInt32.size) :
    (appendedSpan α storage.size added.length).cells (storage ++ added) = added := by
  have hstart := appendedSpan_start α h
  have hlength := appendedSpan_length α h
  have hsize : (storage ++ added).size = storage.size + added.length := by
    rw [← Array.length_toList, Array.toList_appendList, List.length_append, Array.length_toList]
  have hstop : (appendedSpan α storage.size added.length).stop = (storage ++ added).size := by
    rw [hsize, Span.stop, hstart, hlength]
  rw [Span.cells_eq_take_drop (Nat.le_of_eq hstop), hstart, hlength]
  simp

theorem children_addList_self (program : Program) (ids : List NodeId)
    (h : program.childCells.size + ids.length < UInt32.size) :
    (program.addList ids).2.children (program.addList ids).1 = ids :=
  cells_appendedSpan program.childCells ids h

theorem fieldInits_addInits_self (program : Program) (inits : List FieldInit)
    (h : program.initCells.size + inits.length < UInt32.size) :
    (program.addInits inits).2.fieldInits (program.addInits inits).1 = inits :=
  cells_appendedSpan program.initCells inits h

end Program

end Arbor

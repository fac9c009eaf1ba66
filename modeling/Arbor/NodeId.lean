/-!
# Node identifiers and spans

A program is stored flat: nodes refer to each other by number, and to lists of
children by a *span*, a start and a length into a storage shared by all lists.
Both are 32-bit words and may be wrong.  An identifier that no node carries is
simply not found, and a span that leaves its storage reads as the empty list
(`Span.cells`), so reading a damaged program is always defined.

* `Span.cells_eq_take_drop` — a span inside its storage reads as that slice;
* `Span.cells_append` — a span inside its storage reads the same after the
  storage has grown.
-/

namespace Arbor

/-- The number of a node in its program. -/
structure NodeId where
  index : UInt32
  deriving DecidableEq, Inhabited

namespace NodeId

/-- The largest number, reserved for "no node". -/
def invalid : NodeId := ⟨4294967295⟩

/-- Whether this is not the reserved number. -/
def isValid (id : NodeId) : Bool :=
  id.index != invalid.index

/-- How messages name a node. -/
def text (id : NodeId) : String :=
  "#" ++ toString id.index.toNat

/-- The long form, which spells out the reserved number. -/
def longText (id : NodeId) : String :=
  if id.isValid then "NodeId(" ++ toString id.index.toNat ++ ")" else "NodeId::INVALID"

end NodeId

/-- `length` consecutive cells from `start` on, in a storage of `α`. -/
structure Span (α : Type) where
  start : UInt32
  length : UInt32

namespace Span

variable {α : Type}

instance : DecidableEq (Span α) := fun span other =>
  decidable_of_iff (span.start = other.start ∧ span.length = other.length) <| by
    cases span; cases other; simp

instance : Inhabited (Span α) := ⟨⟨0, 0⟩⟩

/-- Whether the span has no cells. -/
def isEmpty (span : Span α) : Bool :=
  span.length == 0

/-- The long form: half-open bounds behind the name of the storage. The upper bound is a
32-bit word as well. -/
def longText (storageName : String) (span : Span α) : String :=
  storageName ++ "(" ++ toString span.start.toNat ++ ".." ++
    toString (span.start + span.length).toNat ++ ")"

/-- One past the last cell, computed without wrapping. -/
def stop (span : Span α) : Nat :=
  span.start.toNat + span.length.toNat

/-- The cells of the span, or none at all if it leaves the storage. -/
def cells (span : Span α) (storage : Array α) : List α :=
  if span.stop ≤ storage.size then (storage.extract span.start.toNat span.stop).toList else []

theorem cells_eq_take_drop {span : Span α} {storage : Array α} (h : span.stop ≤ storage.size) :
    span.cells storage =
      (storage.toList.drop span.start.toNat).take span.length.toNat := by
  have hstop : span.stop - span.start.toNat = span.length.toNat := by simp [stop]
  rw [cells, if_pos h, Array.toList_extract, List.extract_eq_take_drop, hstop]

theorem cells_eq_nil {span : Span α} {storage : Array α} (h : storage.size < span.stop) :
    span.cells storage = [] := by
  simp [cells, Nat.not_le.mpr h]

/-- A span inside the storage keeps its cells when the storage grows. -/
theorem cells_append {span : Span α} {storage : Array α} (h : span.stop ≤ storage.size)
    (more : Array α) : span.cells (storage ++ more) = span.cells storage := by
  have hs : span.start.toNat ≤ storage.toList.length := by
    simp [stop] at h ⊢; omega
  have hl : span.length.toNat ≤ (storage.toList.drop span.start.toNat).length := by
    simp [stop] at h ⊢; omega
  rw [cells_eq_take_drop h, cells_eq_take_drop (by simp; omega), Array.toList_append,
    List.drop_append_of_le_length hs, List.take_append_of_le_length hl]

end Span

end Arbor

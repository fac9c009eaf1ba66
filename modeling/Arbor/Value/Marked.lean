import Arbor.Value.Equality
import Arbor.Value.Text

/-!
# Control marks

Evaluating a node yields a value together with two marks.  `returned` stops the
enclosing statement sequence, and `unresolved` tells that the value stands for a
variable that is bound nowhere.  Marks are transient: values are stripped of
them when they are put into a list, a record or a scope.  Equality and the
written form do not see them.
-/

namespace Arbor

namespace Marked

/-- A value without marks. -/
def plain (v : Value) : Marked := { value := v }

/-- The undefined value without marks. -/
def undefined : Marked := plain .undefined

/-- What looking up an unbound variable yields. -/
def miss : Marked := { value := .undefined, unresolved := true }

/-- The same value without marks. -/
def cleaned (m : Marked) : Marked := plain m.value

/-- The same value, marked as returned; the other mark stays. -/
def asReturn (m : Marked) : Marked := { m with returned := true }

/-- Whether there is no mark. -/
def isClean (m : Marked) : Bool := !m.returned && !m.unresolved

/-- The marks as bits: 1 for a return, 2 for an unresolved variable. -/
def bits (m : Marked) : Nat :=
  (if m.returned then 1 else 0) + (if m.unresolved then 2 else 0)

/-- Whether the values are equal, whatever the marks. -/
def equal (m other : Marked) : Bool :=
  m.value.equal other.value

/-- A list of values, each stripped of its marks. -/
def list (elem : Ty) (length : NodeId) (items : List Marked) : Marked :=
  plain (.list elem length (items.map cleaned))

/-- A record of values, each stripped of its marks. -/
def record (shape : Entries Ty) (fields : Entries Marked) : Marked :=
  plain (.ofFields shape (fields.map fun field => (field.1, field.2.cleaned)))

theorem isClean_iff {m : Marked} :
    m.isClean = true ↔ m.returned = false ∧ m.unresolved = false := by
  simp [isClean]

@[simp] theorem isClean_plain (v : Value) : (plain v).isClean = true := rfl

@[simp] theorem isClean_cleaned (m : Marked) : m.cleaned.isClean = true := rfl

@[simp] theorem value_plain (v : Value) : (plain v).value = v := rfl

@[simp] theorem value_cleaned (m : Marked) : m.cleaned.value = m.value := rfl

end Marked

end Arbor

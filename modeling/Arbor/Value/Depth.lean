import Arbor.Value.Marked

/-!
# Properties at every depth

A list holds its elements and a record its fields, and these may be lists and
records again.  `m.Everywhere P` says that `P` holds of `m` and of whatever is
nested in it, at any depth.  A property is carried through a program in this
form, since any nested value can become the value of a variable.

* `Marked.everywhere_iff` — a property holds everywhere if it holds of the value
  itself and everywhere in its parts;
* `Marked.everywhere_list`, `Marked.everywhere_record` — in a list or a record
  built from values, it is enough that it holds everywhere in these.
-/

namespace Arbor

/-- The elements of a list, or the contents of a record's fields. -/
def Value.parts : Value → List Marked
  | .list _ _ items => items
  | .record _ fields => fields.map (·.2)
  | _ => []

namespace Marked

/-- `inner` is `m` itself or nested in it at some depth. -/
inductive Within (inner : Marked) : Marked → Prop where
  | self : Within inner inner
  | part {m part : Marked} (hpart : part ∈ m.value.parts) (hin : Within inner part) :
    Within inner m

/-- `P` holds of `m` and of everything nested in it. -/
def Everywhere (P : Marked → Prop) (m : Marked) : Prop :=
  ∀ inner, inner.Within m → P inner

variable {P : Marked → Prop} {m : Marked}

theorem everywhere_iff :
    m.Everywhere P ↔ P m ∧ ∀ part ∈ m.value.parts, part.Everywhere P := by
  constructor
  · intro h
    exact ⟨h m .self, fun part hpart inner hin => h inner (.part hpart hin)⟩
  · intro ⟨hself, hparts⟩ inner hin
    cases hin with
    | self => exact hself
    | part hpart hin => exact hparts _ hpart inner hin

theorem Everywhere.self (h : m.Everywhere P) : P m := h m .self

theorem Everywhere.part {part : Marked} (h : m.Everywhere P) (hpart : part ∈ m.value.parts) :
    part.Everywhere P :=
  (everywhere_iff.mp h).2 part hpart

theorem Everywhere.item {elem : Ty} {length : NodeId} {items : List Marked} {item : Marked}
    (h : m.Everywhere P) (hv : m.value = .list elem length items) (hitem : item ∈ items) :
    item.Everywhere P :=
  h.part (by rw [hv]; exact hitem)

theorem Everywhere.field {shape : Entries Ty} {fields : Entries Marked} {name : String}
    {content : Marked} (h : m.Everywhere P) (hv : m.value = .record shape fields)
    (hfield : (name, content) ∈ fields) : content.Everywhere P :=
  h.part (by rw [hv]; exact List.mem_map_of_mem hfield)

/-- Replacing the value by one with no parts asks for nothing but the property itself. -/
theorem everywhere_of_parts_eq_nil (hparts : m.value.parts = []) (h : P m) : m.Everywhere P :=
  everywhere_iff.mpr ⟨h, by simp [hparts]⟩

/-- In a list built from values, the property has to hold of the list and everywhere in their
clean copies. -/
theorem everywhere_list {elem : Ty} {length : NodeId} {items : List Marked}
    (h : P (.list elem length items)) (hitems : ∀ item ∈ items, item.cleaned.Everywhere P) :
    (Marked.list elem length items).Everywhere P := by
  refine everywhere_iff.mpr ⟨h, fun part hpart => ?_⟩
  obtain ⟨item, hitem, rfl⟩ := List.mem_map.mp hpart
  exact hitems item hitem

/-- In a record built from values, the property has to hold of the record and everywhere in
their clean copies. -/
theorem everywhere_record {shape : Entries Ty} {fields : Entries Marked}
    (h : P (.record shape fields))
    (hfields : ∀ field ∈ fields, field.2.cleaned.Everywhere P) :
    (Marked.record shape fields).Everywhere P := by
  refine everywhere_iff.mpr ⟨h, fun part hpart => ?_⟩
  obtain ⟨stored, hstored, rfl⟩ := List.mem_map.mp hpart
  rcases Entries.mem_putAll hstored with hgiven | hnil
  · obtain ⟨field, hfield, rfl⟩ := List.mem_map.mp hgiven
    exact hfields field hfield
  · cases hnil

end Marked

end Arbor

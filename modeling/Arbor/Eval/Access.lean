import Arbor.Eval.Run

/-!
# Reading elements and fields

Reading is a function of values: of what the base and the index came out as. It
yields the slot as it is, marks and all.
A base that stands for an unbound variable is reported as such, before anything
else is looked at.
-/

namespace Arbor.Eval

/-- The position in a list that an integer denotes, if it is in range. -/
def position? (index : Int64) (length : Nat) : Option Nat :=
  if 0 ≤ index.toInt ∧ index.toInt < length then some index.toInt.toNat else none

/-- A position in range is the index itself. -/
theorem position?_eq_some_iff {n : Int64} {length i : Nat} :
    position? n length = some i ↔ n.toInt = i ∧ i < length := by
  unfold position?
  split
  · next h =>
    rw [Option.some.injEq]
    omega
  · next h => simp only [reduceCtorEq, false_iff]; omega

/-- Different indices are different positions. -/
theorem position?_inj {n n' : Int64} {length i : Nat} (h : position? n length = some i)
    (h' : position? n' length = some i) : n = n' := by
  have hn := (position?_eq_some_iff.mp h).1
  have hn' := (position?_eq_some_iff.mp h').1
  exact Int64.toInt_inj.mp (hn.trans hn'.symm)

/-- The element that an index denotes. -/
def element (base index : Value) : Except Fault Marked :=
  match base.items? with
  | none => .error (.notIndexable base.ty)
  | some items =>
    match index.int? with
    | none => .error (.indexNotInt index.ty)
    | some n =>
      match (position? n items.length).bind (items[·]?) with
      | some item => .ok item
      | none => .error (.indexOutOfBounds n items.length)

/-- The field of that name. -/
def field (base : Value) (name : String) : Except Fault Marked :=
  match base.fields? with
  | none => .error (.notSelectable name base.ty)
  | some fields =>
    match fields.get? name with
    | some m => .ok m
    | none => .error (.noField name)

/-- An element is found at a position of a list, by an integer. -/
theorem element_eq_ok_iff {base index : Value} {m : Marked} :
    element base index = .ok m ↔ ∃ elem length items n i, base = .list elem length items ∧
      index = .int n ∧ position? n items.length = some i ∧ items[i]? = some m := by
  constructor
  · intro h
    cases base with
    | list elem length items =>
      cases index with
      | int n =>
        simp only [element, Value.items?, Value.int?] at h
        split at h
        · next item hitem =>
          cases h
          obtain ⟨i, hi, hm⟩ := Option.bind_eq_some_iff.mp hitem
          exact ⟨elem, length, items, n, i, rfl, rfl, hi, hm⟩
        · cases h
      | _ => cases h
    | _ => cases h
  · intro h
    obtain ⟨elem, length, items, n, i, rfl, rfl, hi, hm⟩ := h
    simp [element, Value.items?, Value.int?, hi, hm]

/-- A field is found in a record that holds it. -/
theorem field_eq_ok_iff {base : Value} {name : String} {m : Marked} :
    field base name = .ok m ↔
      ∃ shape fields, base = .record shape fields ∧ Entries.get? name fields = some m := by
  constructor
  · intro h
    cases base with
    | record shape fields =>
      simp only [field, Value.fields?] at h
      split at h
      · next hm =>
        cases h
        exact ⟨shape, fields, rfl, hm⟩
      · cases h
    | _ => cases h
  · intro h
    obtain ⟨shape, fields, rfl, hm⟩ := h
    simp [field, Value.fields?, hm]

/-- The value of a node, or the fault recorded at it. -/
def settle (id : NodeId) (outcome : Except Fault Marked) : Run Marked :=
  match outcome with
  | .ok m => pure m
  | .error fault => Run.fail fault id

/-- `base[index]`; both are evaluated, the base first. -/
def subscript (ev : Evaluator) (frame : Frame) (id base index : NodeId) : Run Marked := do
  let base ← ev frame base
  let index ← ev frame index
  if base.unresolved then Run.fail .unresolvedSubscriptBase id
  else settle id (element base.value index.value)

/-- `base.name`. -/
def select (ev : Evaluator) (frame : Frame) (id base : NodeId) (name : String) : Run Marked := do
  let base ← ev frame base
  if base.unresolved then Run.fail .unresolvedSelectorBase id
  else settle id (field base.value name)

end Arbor.Eval

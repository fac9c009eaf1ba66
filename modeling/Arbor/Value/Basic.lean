import Arbor.Ty.Basic

/-!
# Values

A value carries its own type: scalars by their constructor, lists and records by
the type they were built with, functions entirely.  Wherever a value stands, as
the result of a node, in a scope or inside another value, it carries two control
marks (`Marked`).  What they mean, and where they are stripped, is said in
`Arbor.Value.Marked`.

The fields of a record are kept ascending by name.  A record's type lists its
fields in declaration order; nothing forces the two to name the same fields.

* `Value.induct` — induction over values, with a hypothesis for every element
  and field;
* `Value.size_list`, `Value.size_record` — a value counts as one more than
  everything nested in it.
-/

namespace Arbor

mutual

/-- A runtime value. -/
inductive Value where
  | int (n : Int64)
  | string (s : String)
  | bool (b : Bool)
  | undefined
  | list (elem : Ty) (length : NodeId) (items : List Marked)
  | record (shape : Entries Ty) (fields : List (String × Marked))
  | function (signature : Signature)

/-- A value with its control marks. -/
structure Marked where
  value : Value
  returned : Bool := false
  unresolved : Bool := false

end

instance : Inhabited Value := ⟨.undefined⟩

instance : Inhabited Marked := ⟨{ value := .undefined }⟩

namespace Value

/-- A record of the given fields; of two fields with one name the later wins. -/
def ofFields (shape : Entries Ty) (fields : Entries Marked) : Value :=
  .record shape (Entries.putAll fields [])

/-- The type a value carries. -/
def ty : Value → Ty
  | .int _ => .int
  | .string _ => .string
  | .bool _ => .bool
  | .undefined => .undefined
  | .list elem length _ => .array elem length
  | .record shape _ => .record shape
  | .function signature => signature.ty

/-- The outermost shape of a value. -/
def kind (v : Value) : Kind :=
  v.ty.kind

/-- The integer, if it is one. -/
def int? : Value → Option Int64
  | .int n => some n
  | _ => none

/-- The string, if it is one. -/
def string? : Value → Option String
  | .string s => some s
  | _ => none

/-- The boolean, if it is one. -/
def bool? : Value → Option Bool
  | .bool b => some b
  | _ => none

/-- Whether this is an integer, a string or a boolean. -/
def isScalar : Value → Bool
  | .int _ | .string _ | .bool _ => true
  | _ => false

/-- Whether this is the undefined value. -/
def isUndefined : Value → Bool
  | .undefined => true
  | _ => false

/-- The elements, if it is a list. -/
def items? : Value → Option (List Marked)
  | .list _ _ items => some items
  | _ => none

/-- The fields, if it is a record. -/
def fields? : Value → Option (Entries Marked)
  | .record _ fields => some fields
  | _ => none

/-- The field called `name`, if it is a record that holds one. -/
def field? (v : Value) (name : String) : Option Marked :=
  v.fields?.bind (Entries.get? name)

/-- Only a function has a signature. -/
theorem signature?_ty_eq_some_iff {v : Value} {signature : Signature} :
    v.ty.signature? = some signature ↔ v = .function signature := by
  cases v <;> simp [ty, Ty.signature?, Signature.ty]

/-- Induction over values: a list may assume the statement for its elements, a record for
its fields. -/
@[elab_as_elim]
theorem induct {motive : Value → Prop} (int : ∀ n, motive (.int n))
    (string : ∀ s, motive (.string s)) (bool : ∀ b, motive (.bool b))
    (undefined : motive .undefined)
    (list : ∀ (elem : Ty) (length : NodeId) (items : List Marked),
      (∀ item ∈ items, motive item.value) → motive (.list elem length items))
    (record : ∀ (shape : Entries Ty) (fields : Entries Marked),
      (∀ field ∈ fields, motive field.2.value) → motive (.record shape fields))
    (function : ∀ signature, motive (.function signature)) (v : Value) : motive v :=
  @Value.rec motive (fun m => motive m.value) (fun items => ∀ item ∈ items, motive item.value)
    (fun fields => ∀ field ∈ fields, motive field.2.value) (fun field => motive field.2.value)
    int string bool undefined list record function
    (fun _ _ _ h => h)
    (fun _ h => nomatch h)
    (fun _ _ hhead htail => List.forall_mem_cons.mpr ⟨hhead, htail⟩)
    (fun _ h => nomatch h)
    (fun _ _ hhead htail => List.forall_mem_cons.mpr ⟨hhead, htail⟩)
    (fun _ _ h => h) v

/-! ### Counting values -/

mutual

/-- `counted` and the number of values in this one, itself and everything nested in it. -/
def countOnto : Value → Nat → Nat
  | .list _ _ items, counted => countItemsOnto items (counted + 1)
  | .record _ fields, counted => countFieldsOnto fields (counted + 1)
  | _, counted => counted + 1
termination_by structural v => v

/-- `counted` and the number of values in all of these. -/
def countItemsOnto : List Marked → Nat → Nat
  | [], counted => counted
  | ⟨v, _, _⟩ :: rest, counted => countItemsOnto rest (v.countOnto counted)
termination_by structural items => items

/-- `counted` and the number of values in all of these fields. -/
def countFieldsOnto : List (String × Marked) → Nat → Nat
  | [], counted => counted
  | (_, ⟨v, _, _⟩) :: rest, counted => countFieldsOnto rest (v.countOnto counted)
termination_by structural fields => fields

end

/-- The number of values in this one: itself and everything nested in it. -/
def size (v : Value) : Nat :=
  v.countOnto 0

private theorem countItemsOnto_eq_of {items : List Marked}
    (h : ∀ item ∈ items, ∀ counted, item.value.countOnto counted = counted + item.value.size)
    (counted : Nat) :
    countItemsOnto items counted =
      counted + (items.map fun item => item.value.size).foldr (· + ·) 0 := by
  induction items generalizing counted with
  | nil => rfl
  | cons item rest ih =>
    obtain ⟨v, returned, unresolved⟩ := item
    obtain ⟨hhead, hrest⟩ := List.forall_mem_cons.mp h
    rw [countItemsOnto, hhead, ih hrest]
    simp [Nat.add_assoc]

private theorem countFieldsOnto_eq_of {fields : Entries Marked}
    (h : ∀ field ∈ fields, ∀ counted,
      field.2.value.countOnto counted = counted + field.2.value.size)
    (counted : Nat) :
    countFieldsOnto fields counted =
      counted + (fields.map fun field => field.2.value.size).foldr (· + ·) 0 := by
  induction fields generalizing counted with
  | nil => rfl
  | cons field rest ih =>
    obtain ⟨name, v, returned, unresolved⟩ := field
    obtain ⟨hhead, hrest⟩ := List.forall_mem_cons.mp h
    rw [countFieldsOnto, hhead, ih hrest]
    simp [Nat.add_assoc]

theorem countOnto_eq (v : Value) : ∀ counted, v.countOnto counted = counted + v.size := by
  induction v using Value.induct with
  | int n => intro counted; simp [size, countOnto]
  | string s => intro counted; simp [size, countOnto]
  | bool b => intro counted; simp [size, countOnto]
  | undefined => intro counted; simp [size, countOnto]
  | function signature => intro counted; simp [size, countOnto]
  | list elem length items ih =>
    intro counted
    simp only [size, countOnto, countItemsOnto_eq_of ih]
    omega
  | record shape fields ih =>
    intro counted
    simp only [size, countOnto, countFieldsOnto_eq_of ih]
    omega

theorem size_list (elem : Ty) (length : NodeId) (items : List Marked) :
    (Value.list elem length items).size =
      (items.map fun item => item.value.size).foldr (· + ·) 0 + 1 := by
  rw [size, countOnto, countItemsOnto_eq_of fun item _ => item.value.countOnto_eq]
  omega

theorem size_record (shape : Entries Ty) (fields : Entries Marked) :
    (Value.record shape fields).size =
      (fields.map fun field => field.2.value.size).foldr (· + ·) 0 + 1 := by
  rw [size, countOnto, countFieldsOnto_eq_of fun field _ => field.2.value.countOnto_eq]
  omega

end Value

end Arbor

import Arbor.Proofs.Default
import Arbor.Proofs.Ensures
import Arbor.Proofs.Fuel

/-!
# Properties that evaluation hands on

A property of single values is `Hereditary` in a program if the constants have
it, lists of the length of their type and records of the fields of their type
have it, and neither stripping marks nor replacing an element or a field of a
value takes it away.  Evaluation builds and changes values in these ways only.
So if such a property holds at every depth of every variable, it does so after
any evaluation, and at every depth of the value that comes out.

The value itself is looked at without its marks: evaluation may mark it.

* `Eval.replaceAt_everywhere` — writing to a place inside a value;
* `defaultValue_everywhere` — the default value of a type;
* `Evaluator.HandsOn` — the same for an evaluator.
-/

namespace Arbor

/-- A property of single values that every way to build or change a value keeps. -/
structure Hereditary (program : Program) (P : Marked → Prop) : Prop where
  undefined : P .undefined
  scalar : ∀ v : Value, v.isScalar = true → P (.plain v)
  /-- A list is as long as its type says. -/
  list : ∀ {elem : Ty} {length : NodeId} {items : List Marked},
    HasLength program length items.length → P (.list elem length items)
  /-- A record is given the fields of its type. -/
  record : ∀ {shape : Entries Ty} {fields : Entries Marked},
    fields.names = shape.names → P (.record shape fields)
  cleaned : ∀ {m : Marked}, P m → P m.cleaned
  setItem : ∀ {m : Marked} {elem : Ty} {length : NodeId} {items : List Marked} (i : Nat)
    (item : Marked), m.value = .list elem length items → P m →
      P { m with value := .list elem length (items.set i item) }
  setField : ∀ {m : Marked} {shape : Entries Ty} {fields : Entries Marked} {name : String}
    (content : Marked), m.value = .record shape fields → (fields.get? name).isSome = true →
      P m → P { m with value := .record shape (fields.put name content) }

/-- `P` holds at every depth of every variable. -/
structure State.Everywhere (P : Marked → Prop) (state : State) : Prop where
  locals : state.locals.Everywhere P
  globals : state.globals.Everywhere P

section State

variable {P : Marked → Prop} {state : State}

theorem State.everywhere_empty : State.Everywhere P {} :=
  ⟨Namespace.everywhere_empty, Namespace.everywhere_empty⟩

theorem State.Everywhere.record (h : state.Everywhere P) (fault : Located Fault) :
    (state.record fault).Everywhere P :=
  ⟨h.locals, h.globals⟩

theorem State.Everywhere.lookup (h : state.Everywhere P) {name : String} {m : Marked}
    (hm : state.lookup name = some m) : m.Everywhere P := by
  rcases Option.or_eq_some_iff.mp hm with hlocal | ⟨-, hglobal⟩
  · exact h.locals name m hlocal
  · exact h.globals name m hglobal

theorem State.Everywhere.variables (h : state.Everywhere P) (scope : Eval.Scope) :
    (scope.variables state).Everywhere P := by
  cases scope with
  | «local» => exact h.locals
  | global => exact h.globals

theorem State.Everywhere.update (h : state.Everywhere P) (scope : Eval.Scope)
    {bound : Namespace} (hbound : bound.Everywhere P) :
    (scope.update bound state).Everywhere P := by
  cases scope with
  | «local» => exact ⟨hbound, h.globals⟩
  | global => exact ⟨h.locals, hbound⟩

end State

variable {program : Program} {P : Marked → Prop} {state : State}

namespace Hereditary

theorem everywhere_cleaned (hP : Hereditary program P) {m : Marked} (h : m.Everywhere P) :
    m.cleaned.Everywhere P :=
  Marked.everywhere_iff.mpr ⟨hP.cleaned h.self, fun _ hpart => h.part hpart⟩

theorem everywhere_undefined (hP : Hereditary program P) : Marked.undefined.Everywhere P :=
  Marked.everywhere_of_parts_eq_nil rfl hP.undefined

theorem everywhere_scalar (hP : Hereditary program P) {v : Value} (hv : v.isScalar = true) :
    (Marked.plain v).Everywhere P := by
  refine Marked.everywhere_of_parts_eq_nil ?_ (hP.scalar v hv)
  cases v <;> first | rfl | cases hv

end Hereditary

/-- What is asked of functions only: no way to build or change a value makes a function. -/
theorem hereditary_function (program : Program) (Q : Signature → Prop) :
    Hereditary program fun m => ∀ signature, m.value = .function signature → Q signature where
  undefined := nofun
  scalar v hv := by
    intro signature h
    rw [show v = .function signature from h] at hv
    cases hv
  list _ := nofun
  record _ := nofun
  cleaned h := h
  setItem _ _ _ _ := nofun
  setField _ _ _ _ := nofun

/-! ### Writing into a value -/

/-- Replacing a slot by a value with the property everywhere leaves it everywhere. -/
theorem Eval.replaceAt_everywhere (hP : Hereditary program P) {new : Marked}
    (hnew : new.Everywhere P) {steps : List Step} {m m' : Marked} (hm : m.Everywhere P)
    (h : replaceAt new steps m = .ok m') : m'.Everywhere P := by
  induction steps generalizing m m' with
  | nil =>
    rw [replaceAt_nil, Except.ok.injEq] at h
    exact h ▸ hnew
  | cons step rest ih =>
    cases step with
    | index n node =>
      obtain ⟨elem, length, items, i, item, item', hv, -, hitem, hrest, rfl⟩ :=
        replaceAt_index_eq_ok_iff.mp h
      have hitem' := ih (hm.item hv (List.mem_of_getElem? hitem)) hrest
      refine Marked.everywhere_iff.mpr ⟨hP.setItem i item' hv hm.self, fun part hpart => ?_⟩
      rcases List.mem_or_eq_of_mem_set hpart with hold | rfl
      · exact hm.item hv hold
      · exact hitem'
    | field name node =>
      obtain ⟨shape, fields, old, old', hv, hold, hrest, rfl⟩ := replaceAt_field_eq_ok_iff.mp h
      have hold' := ih (hm.field hv (Entries.mem_of_get?_eq_some hold)) hrest
      refine Marked.everywhere_iff.mpr
        ⟨hP.setField old' hv (by rw [hold]; rfl) hm.self, fun part hpart => ?_⟩
      obtain ⟨entry, hentry, rfl⟩ := List.mem_map.mp hpart
      rcases Entries.mem_put hentry with rfl | hkept
      · exact hold'
      · exact hm.field hv hkept

theorem Eval.Place.store_everywhere (hP : Hereditary program P) {place : Place} {m : Marked}
    {stored : State} (hstate : state.Everywhere P) (hm : m.cleaned.Everywhere P)
    (h : place.store m state = .ok stored) : stored.Everywhere P := by
  unfold store at h
  cases hold : (place.scope.variables state).get? place.root with
  | none => simp [hold] at h
  | some old =>
    cases hnew : replaceAt m.cleaned place.steps old with
    | error fault => simp [hold, hnew, bind, Except.bind] at h
    | ok new =>
      simp only [hold, hnew, bind, Except.bind, Except.ok.injEq] at h
      have hscope := hstate.variables place.scope
      have hnew' := replaceAt_everywhere hP hm (hscope _ _ hold) hnew
      exact h ▸ hstate.update place.scope (hscope.insert hnew' place.root)

/-! ### Default values -/

theorem defaultValue_everywhere (hP : Hereditary program P) {fuel : Nat} {ty : Ty} {zero : Marked}
    (h : (defaultValue (staticLength (eval program fuel)) ty).run = some (.ok zero)) :
    zero.Everywhere P := by
  induction ty using Ty.induct generalizing zero with
  | int =>
    cases h
    exact hP.everywhere_scalar rfl
  | string =>
    cases h
    exact hP.everywhere_scalar rfl
  | bool =>
    cases h
    exact hP.everywhere_scalar rfl
  | undefined =>
    cases h
    exact hP.everywhere_undefined
  | unknown => cases h
  | function => cases h
  | array elem length ih =>
    obtain ⟨n, items, hn, hitems, rfl⟩ := defaultValue_array_eq_ok_iff.mp h
    obtain ⟨hlen, hcopies⟩ := defaultItems_eq_ok hitems
    apply Marked.everywhere_list (hP.list ⟨fuel, by rw [hn, hlen]⟩)
    intro item hitem
    exact hP.everywhere_cleaned (ih (hcopies item hitem))
  | record fields ih =>
    obtain ⟨values, hvalues, rfl⟩ := defaultValue_record_eq_ok_iff.mp h
    have hfields := defaultFields_eq_ok_iff.mp hvalues
    have hnames := Entries.names_eq_of_forall₂ hfields fun _ _ hrel => hrel.1
    apply Marked.everywhere_record (hP.record hnames)
    intro value hvalue
    obtain ⟨field, hfield, -, hzero⟩ := exists_of_mem_right hfields hvalue
    exact hP.everywhere_cleaned (ih field hfield hzero)

/-! ### Evaluators -/

/-- The evaluator hands the property on. -/
def Evaluator.HandsOn (P : Marked → Prop) (ev : Evaluator) : Prop :=
  ∀ frame id state, state.Everywhere P → (ev frame id).Ensures state fun m final =>
    m.cleaned.Everywhere P ∧ final.Everywhere P

/-- What follows a node runs with all that the node hands on. -/
theorem Evaluator.HandsOn.bind {ev : Evaluator} (hev : ev.HandsOn P)
    (hstate : state.Everywhere P) {frame : Frame} {id : NodeId} {α : Type} {next : Marked → Run α}
    {post : α → State → Prop}
    (h : ∀ m middle, m.cleaned.Everywhere P → middle.Everywhere P →
      (next m).Ensures middle post) :
    (ev frame id >>= next).Ensures state post := by
  refine Run.ensures_bind.mpr fun m middle hrun => ?_
  obtain ⟨hm, hmiddle⟩ := hev frame id state hstate m middle hrun
  exact h m middle hm hmiddle

namespace Eval

theorem element_everywhere {base index m : Marked} (hbase : base.cleaned.Everywhere P)
    (h : element base.value index.value = .ok m) : m.Everywhere P := by
  obtain ⟨elem, length, items, n, i, hv, -, -, hitem⟩ := element_eq_ok_iff.mp h
  exact hbase.item hv (List.mem_of_getElem? hitem)

theorem field_everywhere {base m : Marked} {name : String} (hbase : base.cleaned.Everywhere P)
    (h : field base.value name = .ok m) : m.Everywhere P := by
  obtain ⟨shape, fields, hv, hfield⟩ := field_eq_ok_iff.mp h
  exact hbase.field hv (Entries.mem_of_get?_eq_some hfield)

end Eval

end Arbor

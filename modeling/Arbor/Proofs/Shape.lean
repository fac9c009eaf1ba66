import Arbor.Proofs.Effects

/-!
# Values keep the shape of their type

A value carries its type along, and the type promises something about the
payload: how many elements a list has, and which fields a record has.  Types of
elements and fields are not checked at run time, and two array types can agree
although their lengths differ, so the promise is not about the place a value
stands in.  It ties each value to its own type (`WellShaped`).

A list is built when the length of its type is known, and a record from the
fields its type lists.  A write replaces an element or a field that is there
already.  So no step can break the promise, whatever faults it records.

* `hereditary_wellShaped` — the steps one by one;
* `wellShaped_of_evaluates` — whole evaluations.
-/

namespace Arbor

/-- The form of the payload, whatever the type says. -/
def Value.form : Value → Kind
  | .int _ => .int
  | .string _ => .string
  | .bool _ => .bool
  | .undefined => .undefined
  | .list .. => .array
  | .record .. => .record
  | .function _ => .function

/-- The payload of a value is what the type of the value says.  Nested values are not looked
at. -/
structure WellShaped (program : Program) (m : Marked) : Prop where
  form : m.value.form = m.value.ty.kind
  known : m.value.kind ≠ .unknown
  /-- A list has as many elements as the length node of its type computes. -/
  length : ∀ (elem : Ty) (length : NodeId) (items : List Marked), m.value.ty = .array elem length →
    m.value.items? = some items → HasLength program length items.length
  /-- A record has exactly the fields that its type names. -/
  names : ∀ (shape : Entries Ty) (fields : Entries Marked), m.value.ty = .record shape →
    m.value.fields? = some fields → ∀ name, name ∈ fields.names ↔ name ∈ shape.names

variable {program : Program}

theorem Value.form_eq_kind (v : Value) : v.form = v.ty.kind := by
  cases v <;> rfl

theorem Value.kind_ne_unknown (v : Value) : v.kind ≠ .unknown := by
  cases v <;> exact Kind.noConfusion

namespace WellShaped

/-- What has neither elements nor fields is well shaped. -/
theorem of_no_payload {m : Marked} (hitems : m.value.items? = none)
    (hfields : m.value.fields? = none) : WellShaped program m where
  form := m.value.form_eq_kind
  known := m.value.kind_ne_unknown
  length elem length items _ hsome := by
    rw [hitems] at hsome
    cases hsome
  names shape fields _ hsome := by
    rw [hfields] at hsome
    cases hsome

theorem list_iff {m : Marked} {elem : Ty} {length : NodeId} {items : List Marked}
    (hv : m.value = .list elem length items) :
    WellShaped program m ↔ HasLength program length items.length := by
  constructor
  · intro h
    exact h.length elem length items (by rw [hv]; rfl) (by rw [hv]; rfl)
  · intro h
    refine ⟨m.value.form_eq_kind, m.value.kind_ne_unknown, ?_, ?_⟩
    · intro elem' length' items' hty hitems
      rw [hv] at hty hitems
      cases hty
      cases hitems
      exact h
    · intro shape fields hty
      rw [hv] at hty
      cases hty

theorem record_iff {m : Marked} {shape : Entries Ty} {fields : Entries Marked}
    (hv : m.value = .record shape fields) :
    WellShaped program m ↔ ∀ name, name ∈ fields.names ↔ name ∈ shape.names := by
  constructor
  · intro h
    exact h.names shape fields (by rw [hv]; rfl) (by rw [hv]; rfl)
  · intro h
    refine ⟨m.value.form_eq_kind, m.value.kind_ne_unknown, ?_, ?_⟩
    · intro elem length items hty
      rw [hv] at hty
      cases hty
    · intro shape' fields' hty hfields
      rw [hv] at hty hfields
      cases hty
      cases hfields
      exact h

/-- Marks do not matter. -/
theorem cleaned_iff {m : Marked} : WellShaped program m.cleaned ↔ WellShaped program m :=
  ⟨fun ⟨form, known, length, names⟩ => ⟨form, known, length, names⟩,
    fun ⟨form, known, length, names⟩ => ⟨form, known, length, names⟩⟩

end WellShaped

/-- Evaluation builds well-shaped values from well-shaped values only. -/
theorem hereditary_wellShaped (program : Program) :
    Hereditary program (WellShaped program) where
  undefined := .of_no_payload rfl rfl
  scalar v hv := by
    refine .of_no_payload ?_ ?_ <;> cases v <;> first | rfl | cases hv
  list {elem length items} hlength :=
    (WellShaped.list_iff rfl).mpr (by rw [List.length_map]; exact hlength)
  record {shape fields} hnames := by
    apply (WellShaped.record_iff rfl).mpr
    intro name
    rw [Entries.mem_names_putAll, ← hnames]
    simp [Entries.names]
  cleaned := WellShaped.cleaned_iff.mpr
  setItem {m elem length items} i item hv hm := by
    have hlength := (WellShaped.list_iff hv).mp hm
    apply (WellShaped.list_iff rfl).mpr
    rw [List.length_set]
    exact hlength
  setField {m shape fields name} content hv hfield hm := by
    have hnames := (WellShaped.record_iff hv).mp hm
    apply (WellShaped.record_iff rfl).mpr
    intro other
    have hstored := Entries.get?_isSome_iff.mp hfield
    rw [Entries.mem_names_put, ← hnames other]
    exact or_iff_right_of_imp fun heq => heq ▸ hstored

/-- **Values keep the shape of their type.**  If all variables hold values that are well shaped
at every depth, then any evaluation yields such a value and leaves such variables. -/
theorem wellShaped_of_evaluates {frame : Frame} {id : NodeId} {state final : State} {m : Marked}
    (hlocals : state.locals.Everywhere (WellShaped program))
    (hglobals : state.globals.Everywhere (WellShaped program))
    (heval : Evaluates program frame id state m final) :
    m.Everywhere (WellShaped program) ∧ final.locals.Everywhere (WellShaped program) ∧
      final.globals.Everywhere (WellShaped program) := by
  obtain ⟨fuel, heval⟩ := heval
  have hreached := eval_everywhere (hereditary_wellShaped program) fuel _ _ _
    ⟨hlocals, hglobals⟩ _ _ heval
  obtain ⟨hself, hparts⟩ := Marked.everywhere_iff.mp hreached.1
  exact ⟨Marked.everywhere_iff.mpr ⟨WellShaped.cleaned_iff.mp hself, hparts⟩,
    hreached.2.locals, hreached.2.globals⟩

/-- The assignment of 9 to the first of two elements of a global. -/
def overwritingProgram : Program where
  nodes := #[.int 2, .int 0, .int 9, .var "pair" (.array .int ⟨0⟩), .subscript ⟨3⟩ ⟨1⟩,
    .assign ⟨4⟩ ⟨2⟩ false]

/-- The two elements, before the assignment. -/
def pair : Marked := .list .int ⟨0⟩ [.plain (.int 1), .plain (.int 2)]

theorem wellShaped_overwritingProgram :
    ∃ m final,
      Evaluates overwritingProgram {} ⟨5⟩ { globals := .ofPairs [("pair", pair)] } m final ∧
      final.globals.get? "pair" = some (.list .int ⟨0⟩ [.plain (.int 9), .plain (.int 2)]) ∧
      final.globals.Everywhere (WellShaped overwritingProgram) := by
  have hP := hereditary_wellShaped overwritingProgram
  have hpair : pair.Everywhere (WellShaped overwritingProgram) := by
    apply Marked.everywhere_list (hP.list ⟨1, rfl⟩)
    intro item hitem
    rcases List.mem_pair.mp hitem with rfl | rfl <;> exact hP.everywhere_scalar rfl
  have hglobals : (Namespace.ofPairs [("pair", pair)]).Everywhere
      (WellShaped overwritingProgram) := by
    apply Namespace.everywhere_ofPairs
    intro entry hentry
    rw [List.mem_singleton.mp hentry]
    exact hP.everywhere_cleaned hpair
  obtain ⟨m, final, heval, hstored⟩ : ∃ m final, Evaluates overwritingProgram {} ⟨5⟩
      { globals := .ofPairs [("pair", pair)] } m final ∧
      final.globals.get? "pair" = some (.list .int ⟨0⟩ [.plain (.int 9), .plain (.int 2)]) :=
    ⟨_, _, ⟨3, rfl⟩, rfl⟩
  have hshape := wellShaped_of_evaluates Namespace.everywhere_empty hglobals heval
  exact ⟨m, final, heval, hstored, hshape.2.2⟩

end Arbor

import Arbor.Eval.Default
import Mathlib.Data.List.Forall2

/-!
# What a default consists of

A computation of a length or a default succeeds if each of its steps does.  So a
default that exists is made of the defaults of its parts.

* `Entries.names_eq_of_forall₂` — entries that are related name by name list the
  same names;
* `defaultItems_eq_ok_iff` — a default list repeats the default of its elements,
  as often as it is long and within the cap;
* `defaultFields_eq_ok_iff` — default fields are the defaults of the listed types,
  under the listed names;
* `defaultValue_array_eq_ok_iff`, `defaultValue_record_eq_ok_iff` — what the default
  of a composite type is made of.
-/

namespace Arbor

/-- On the right of two related lists stands nothing without a partner on the left. -/
theorem exists_of_mem_right {α β : Type} {Rel : α → β → Prop} {causes : List α}
    {outcomes : List β} (h : List.Forall₂ Rel causes outcomes) {b : β} (hb : b ∈ outcomes) :
    ∃ a ∈ causes, Rel a b := by
  induction h with
  | nil => cases hb
  | cons hhead _ ih =>
    rcases List.mem_cons.mp hb with rfl | hb
    · exact ⟨_, List.mem_cons_self, hhead⟩
    · obtain ⟨a, ha, hab⟩ := ih hb
      exact ⟨a, List.mem_cons_of_mem _ ha, hab⟩

theorem Entries.names_eq_of_forall₂ {α β : Type} {Rel : String × α → String × β → Prop}
    {fields : Entries α} {values : Entries β} (h : List.Forall₂ Rel fields values)
    (hname : ∀ field value, Rel field value → field.1 = value.1) : values.names = fields.names := by
  induction h with
  | nil => rfl
  | cons hhead _ ih =>
    simp only [Entries.names, List.map_cons, List.cons.injEq] at ih ⊢
    exact ⟨(hname _ _ hhead).symm, ih⟩

theorem Sizing.bind_eq_ok_iff {α β : Type} {computed : Sizing α} {next : α → Sizing β} {b : β} :
    (computed >>= next).run = some (.ok b) ↔
      ∃ a, computed.run = some (.ok a) ∧ (next a).run = some (.ok b) := by
  rw [ExceptT.run_bind]
  constructor
  · intro h
    obtain ⟨outcome, houtcome, hnext⟩ := Option.bind_eq_some_iff.mp h
    rcases outcome with cause | a
    · cases hnext
    · exact ⟨a, houtcome, hnext⟩
  · intro h
    obtain ⟨a, ha, hnext⟩ := h
    exact Option.bind_eq_some_iff.mpr ⟨.ok a, ha, hnext⟩

/-- The items of a default array repeat the default of its elements, as often as it is long and
within the cap.  An array of length zero does not ask for it. -/
theorem defaultItems_eq_ok_iff {lengthOf : NodeId → Sizing Nat} {elem : Ty} {n : Nat}
    {items : List Marked} : (defaultItems lengthOf elem n).run = some (.ok items) ↔
      (n = 0 ∧ items = []) ∨ (n ≠ 0 ∧ ∃ zero, (defaultValue lengthOf elem).run = some (.ok zero) ∧
        n * zero.value.size ≤ maxValues ∧ items = List.replicate n zero) := by
  have hlift : ∀ outcome : Except DefaultFault (List Marked),
      (MonadExcept.ofExcept outcome : Sizing (List Marked)).run = some (.ok items) ↔
        outcome = .ok items := by
    intro outcome
    cases outcome with
    | error cause => exact iff_of_false nofun nofun
    | ok filled => exact (Option.some_inj.trans Iff.rfl)
  unfold defaultItems
  split
  · next hn =>
    have hempty : (pure [] : Sizing (List Marked)).run = some (.ok items) ↔ items = [] :=
      ⟨fun h => by cases h; rfl, fun h => by rw [h]; rfl⟩
    rw [hempty]
    simp [hn]
  · next hn =>
    simp only [Sizing.bind_eq_ok_iff, hlift, filled_eq_ok_iff, hn, false_and, false_or, ne_eq,
      not_false_eq_true, true_and]

/-- The items of a default array are copies of the default of its elements, as many as it is
long. -/
theorem defaultItems_eq_ok {lengthOf : NodeId → Sizing Nat} {elem : Ty} {n : Nat}
    {items : List Marked} (h : (defaultItems lengthOf elem n).run = some (.ok items)) :
    items.length = n ∧
      ∀ item ∈ items, (defaultValue lengthOf elem).run = some (.ok item) := by
  rcases defaultItems_eq_ok_iff.mp h with ⟨rfl, rfl⟩ | ⟨-, zero, hzero, -, rfl⟩
  · exact ⟨rfl, nofun⟩
  · refine ⟨List.length_replicate, fun item hitem => ?_⟩
    rw [List.eq_of_mem_replicate hitem]
    exact hzero

/-- Default fields are the defaults of the listed types, under the listed names. -/
theorem defaultFields_eq_ok_iff {lengthOf : NodeId → Sizing Nat} {fields : Entries Ty}
    {values : Entries Marked} : (defaultFields lengthOf fields).run = some (.ok values) ↔
    List.Forall₂ (fun field value => field.1 = value.1 ∧
      (defaultValue lengthOf field.2).run = some (.ok value.2)) fields values := by
  induction fields generalizing values with
  | nil =>
    rw [List.forall₂_nil_left_iff]
    exact ⟨fun h => by cases h; rfl, fun h => by rw [h]; rfl⟩
  | cons field rest ih =>
    obtain ⟨name, ty⟩ := field
    unfold defaultFields
    rw [Sizing.bind_eq_ok_iff, List.forall₂_cons_left_iff]
    constructor
    · intro h
      obtain ⟨zero, hzero, hrest⟩ := h
      obtain ⟨zeros, hzeros, hcons⟩ := Sizing.bind_eq_ok_iff.mp hrest
      cases hcons
      exact ⟨(name, zero), zeros, ⟨rfl, hzero⟩, ih.mp hzeros, rfl⟩
    · intro h
      obtain ⟨⟨name', zero⟩, zeros, ⟨rfl, hzero⟩, hzeros, rfl⟩ := h
      exact ⟨zero, hzero, Sizing.bind_eq_ok_iff.mpr ⟨zeros, ih.mpr hzeros, rfl⟩⟩

theorem defaultValue_array_eq_ok_iff {lengthOf : NodeId → Sizing Nat} {elem : Ty} {length : NodeId}
    {m : Marked} : (defaultValue lengthOf (.array elem length)).run = some (.ok m) ↔
      ∃ n items, (lengthOf length).run = some (.ok n) ∧
        (defaultItems lengthOf elem n).run = some (.ok items) ∧ m = .list elem length items := by
  rw [defaultValue_array, Sizing.bind_eq_ok_iff]
  constructor
  · intro h
    obtain ⟨n, hn, hrest⟩ := h
    obtain ⟨items, hitems, hlist⟩ := Sizing.bind_eq_ok_iff.mp hrest
    cases hlist
    exact ⟨n, items, hn, hitems, rfl⟩
  · intro h
    obtain ⟨n, items, hn, hitems, rfl⟩ := h
    exact ⟨n, hn, Sizing.bind_eq_ok_iff.mpr ⟨items, hitems, rfl⟩⟩

theorem defaultValue_record_eq_ok_iff {lengthOf : NodeId → Sizing Nat} {fields : Entries Ty}
    {m : Marked} : (defaultValue lengthOf (.record fields)).run = some (.ok m) ↔
      ∃ values, (defaultFields lengthOf fields).run = some (.ok values) ∧
        m = .record fields values := by
  rw [defaultValue, Sizing.bind_eq_ok_iff]
  constructor
  · intro h
    obtain ⟨values, hvalues, hrecord⟩ := h
    cases hrecord
    exact ⟨values, hvalues, rfl⟩
  · intro h
    obtain ⟨values, hvalues, rfl⟩ := h
    exact ⟨values, hvalues, rfl⟩

end Arbor

import Arbor.Eval.Place

/-!
# Slots inside values

A list of steps leads to a slot inside a value.  Reading goes on after a fault:
the step that leads nowhere records one and yields undefined, and the later
steps are taken from there (`readAt`).  Writing stops at the first step that
leads nowhere and changes nothing (`replaceAt`).  The two are written
separately; this module ties them together.

A single step reads a part (`Step.read`) and puts a part back (`Step.put`), and
obeys the laws of a lens.  Those for lists of steps follow by induction.

* `replaceAt_eq_ok_of_readAt`, `readAt_faults_of_replaceAt` — a slot can be
  written exactly if it can be read without a fault;
* `readAt_replaceAt_self` — what is written is read back;
* `readAt_replaceAt_of_diverge` — what is read on a path that leaves the written
  one does not change, nor do the faults.
-/

namespace Arbor.Eval

/-- Where a step goes, whichever node takes it. -/
def Step.key : Step → Int64 ⊕ String
  | .index n _ => .inl n
  | .field name _ => .inr name

/-- The part of a value that a step reads. -/
def Step.read (m : Marked) : Step → Except Fault Marked
  | .index n _ =>
    if m.unresolved then .error .unresolvedSubscriptBase else element m.value (.int n)
  | .field name _ =>
    if m.unresolved then .error .unresolvedSelectorBase else Eval.field m.value name

/-- The value with another part where the step goes, if it goes anywhere. -/
def Step.put (part m : Marked) : Step → Marked
  | .index n _ =>
    match m.value with
    | .list elem length items =>
      match position? n items.length with
      | some i => { m with value := .list elem length (items.set i part) }
      | none => m
    | _ => m
  | .field name _ =>
    match m.value with
    | .record shape fields => { m with value := .record shape (Entries.put name part fields) }
    | _ => m

/-- What reading along the steps yields, and the faults it records. -/
def readAt : List Step → Marked → Marked × List (Located Fault)
  | [], m => (m, [])
  | step :: rest, m =>
    match step.read m with
    | .ok part => readAt rest part
    | .error fault =>
      let (reached, faults) := readAt rest .undefined
      (reached, ⟨fault, step.node⟩ :: faults)

/-- Two paths that take different steps at some place that both have. -/
def Diverge (steps others : List Step) : Prop :=
  ∃ (i : Nat) (step other : Step),
    steps[i]? = some step ∧ others[i]? = some other ∧ step.key ≠ other.key

theorem diverge_cons_iff {step other : Step} {rest others : List Step} :
    Diverge (step :: rest) (other :: others) ↔ step.key ≠ other.key ∨ Diverge rest others := by
  constructor
  · intro h
    obtain ⟨i, here, there, hhere, hthere, hkey⟩ := h
    cases i with
    | zero =>
      cases hhere
      cases hthere
      exact .inl hkey
    | succ i => exact .inr ⟨i, here, there, hhere, hthere, hkey⟩
  · intro h
    rcases h with hkey | ⟨i, here, there, hhere, hthere, hkey⟩
    · exact ⟨0, step, other, rfl, rfl, hkey⟩
    · exact ⟨i + 1, here, there, hhere, hthere, hkey⟩

theorem not_diverge_nil {others : List Step} : ¬ Diverge [] others := by
  intro h
  obtain ⟨i, step, other, hstep, -⟩ := h
  cases hstep

theorem not_diverge_nil_right {steps : List Step} : ¬ Diverge steps [] := by
  intro h
  obtain ⟨i, step, other, -, hother, -⟩ := h
  cases hother

/-! ### One step -/

variable {m m' part part' new : Marked} {step other : Step} {rest steps others : List Step}

theorem Step.read_index_eq_ok_iff {n : Int64} {node : NodeId} :
    (Step.index n node).read m = .ok part ↔
      m.unresolved = false ∧ ∃ elem length items i, m.value = .list elem length items ∧
        position? n items.length = some i ∧ items[i]? = some part := by
  rw [Step.read]
  split
  · next h => simp [h]
  · next h =>
    rw [element_eq_ok_iff, Bool.eq_false_iff.mpr h]
    constructor
    · intro h
      obtain ⟨elem, length, items, n', i, hv, hn, hi, hpart⟩ := h
      cases hn
      exact ⟨rfl, elem, length, items, i, hv, hi, hpart⟩
    · intro h
      obtain ⟨-, elem, length, items, i, hv, hi, hpart⟩ := h
      exact ⟨elem, length, items, n, i, hv, rfl, hi, hpart⟩

theorem Step.read_field_eq_ok_iff {name : String} {node : NodeId} :
    (Step.field name node).read m = .ok part ↔
      m.unresolved = false ∧ ∃ shape fields, m.value = .record shape fields ∧
        Entries.get? name fields = some part := by
  rw [Step.read]
  split
  · next h => simp [h]
  · next h => rw [field_eq_ok_iff, Bool.eq_false_iff.mpr h, and_iff_right rfl]

/-- What a step reads is a part. -/
theorem Step.mem_parts_of_read (h : step.read m = .ok part) : part ∈ m.value.parts := by
  cases step with
  | index n node =>
    obtain ⟨-, elem, length, items, i, hv, -, hpart⟩ := read_index_eq_ok_iff.mp h
    rw [hv]
    exact List.mem_of_getElem? hpart
  | field name node =>
    obtain ⟨-, shape, fields, hv, hpart⟩ := read_field_eq_ok_iff.mp h
    rw [hv]
    exact List.mem_map_of_mem (Entries.mem_of_get?_eq_some hpart)

/-- Writing along a path takes the first step, writes along the rest, and puts the part back. -/
theorem replaceAt_cons_eq_ok_iff (hm : m.unresolved = false) :
    replaceAt new (step :: rest) m = .ok m' ↔
      ∃ part part', step.read m = .ok part ∧ replaceAt new rest part = .ok part' ∧
        m' = step.put part' m := by
  cases step with
  | index n node =>
    rw [replaceAt_index_eq_ok_iff]
    constructor
    · intro h
      obtain ⟨elem, length, items, i, part, part', hv, hi, hpart, hrest, rfl⟩ := h
      refine ⟨part, part', ?_, hrest, by simp [Step.put, hv, hi]⟩
      exact Step.read_index_eq_ok_iff.mpr ⟨hm, elem, length, items, i, hv, hi, hpart⟩
    · intro h
      obtain ⟨part, part', hread, hrest, rfl⟩ := h
      obtain ⟨-, elem, length, items, i, hv, hi, hpart⟩ := Step.read_index_eq_ok_iff.mp hread
      exact ⟨elem, length, items, i, part, part', hv, hi, hpart, hrest, by simp [Step.put, hv, hi]⟩
  | field name node =>
    rw [replaceAt_field_eq_ok_iff]
    constructor
    · intro h
      obtain ⟨shape, fields, part, part', hv, hpart, hrest, rfl⟩ := h
      refine ⟨part, part', ?_, hrest, by simp [Step.put, hv]⟩
      exact Step.read_field_eq_ok_iff.mpr ⟨hm, shape, fields, hv, hpart⟩
    · intro h
      obtain ⟨part, part', hread, hrest, rfl⟩ := h
      obtain ⟨-, shape, fields, hv, hpart⟩ := Step.read_field_eq_ok_iff.mp hread
      exact ⟨shape, fields, part, part', hv, hpart, hrest, by simp [Step.put, hv]⟩

/-- What is put is read. -/
theorem Step.read_put_self (h : step.read m = .ok part) :
    step.read (step.put part' m) = .ok part' := by
  cases step with
  | index n node =>
    obtain ⟨hm, elem, length, items, i, hv, hi, hpart⟩ := read_index_eq_ok_iff.mp h
    have hlt : i < items.length := (position?_eq_some_iff.mp hi).2
    rw [read_index_eq_ok_iff]
    simp only [put, hv, hi]
    refine ⟨hm, elem, length, items.set i part', i, rfl, ?_, ?_⟩
    · rw [List.length_set]
      exact hi
    · rw [List.getElem?_set_self hlt]
  | field name node =>
    obtain ⟨hm, shape, fields, hv, hpart⟩ := read_field_eq_ok_iff.mp h
    rw [read_field_eq_ok_iff]
    simp only [put, hv]
    exact ⟨hm, shape, Entries.put name part' fields, rfl, Entries.get?_put_self name part' fields⟩

/-- Putting a part does not change what other steps read, or why they fail. -/
theorem Step.read_put_of_ne (hkey : step.key ≠ other.key) (h : step.read m = .ok part) :
    other.read (step.put part' m) = other.read m := by
  cases step with
  | index n node =>
    obtain ⟨hm, elem, length, items, i, hv, hi, hpart⟩ := read_index_eq_ok_iff.mp h
    have hput : (Step.index n node).put part' m =
        { m with value := .list elem length (items.set i part') } := by
      simp [put, hv, hi]
    rw [hput]
    cases other with
    | index n' node' =>
      have hother : (position? n' items.length).bind ((items.set i part')[·]?) =
          (position? n' items.length).bind (items[·]?) := by
        cases hi' : position? n' items.length with
        | none => rfl
        | some i' =>
          have hne : i ≠ i' := by
            intro heq
            subst heq
            exact hkey (congrArg Sum.inl (position?_inj hi hi'))
          exact List.getElem?_set_ne hne
      simp [read, element, hm, hv, Value.items?, Value.int?, hother]
    | field name' node' => simp [read, Eval.field, hm, hv, Value.fields?, Value.ty]
  | field name node =>
    obtain ⟨hm, shape, fields, hv, hpart⟩ := read_field_eq_ok_iff.mp h
    have hput : (Step.field name node).put part' m =
        { m with value := .record shape (Entries.put name part' fields) } := by
      simp [put, hv]
    rw [hput]
    cases other with
    | index n' node' => simp [read, element, hm, hv, Value.items?, Value.ty]
    | field name' node' =>
      have hne : name' ≠ name := fun heq => hkey (congrArg Sum.inr heq.symm)
      simp [read, Eval.field, hm, hv, Value.fields?, Entries.get?_put_of_ne hne]

/-! ### Paths -/

theorem readAt_cons_of_ok (h : step.read m = .ok part) :
    readAt (step :: rest) m = readAt rest part := by
  rw [readAt, h]

theorem readAt_cons_of_error {fault : Fault} (h : step.read m = .error fault) :
    readAt (step :: rest) m =
      ((readAt rest .undefined).1, ⟨fault, step.node⟩ :: (readAt rest .undefined).2) := by
  rw [readAt, h]

/-- Reading along a path and one step more. -/
theorem readAt_concat : readAt (steps ++ [step]) m =
    match step.read (readAt steps m).1 with
    | .ok part => (part, (readAt steps m).2)
    | .error fault => (.undefined, (readAt steps m).2 ++ [⟨fault, step.node⟩]) := by
  induction steps generalizing m with
  | nil =>
    cases hstep : step.read m with
    | ok part =>
      rw [List.nil_append, readAt_cons_of_ok hstep]
      simp [readAt, hstep]
    | error fault =>
      rw [List.nil_append, readAt_cons_of_error hstep]
      simp [readAt, hstep]
  | cons first rest ih =>
    rw [List.cons_append]
    cases hfirst : first.read m with
    | ok part => rw [readAt_cons_of_ok hfirst, readAt_cons_of_ok hfirst, ih]
    | error fault =>
      rw [readAt_cons_of_error hfirst, readAt_cons_of_error hfirst, ih]
      cases step.read (readAt rest .undefined).1 <;> rfl

/-- In clean values, a path is written step by step. -/
theorem replaceAt_cons_eq_ok_iff_of_clean (hm : m.Everywhere (·.isClean = true)) :
    replaceAt new (step :: rest) m = .ok m' ↔
      ∃ part part', (step.read m = .ok part ∧ part.Everywhere (·.isClean = true)) ∧
        replaceAt new rest part = .ok part' ∧ m' = step.put part' m := by
  rw [replaceAt_cons_eq_ok_iff (Marked.isClean_iff.mp hm.self).2]
  refine exists_congr fun part => exists_congr fun part' => and_congr_left fun _ => ?_
  exact (and_iff_left_of_imp fun hread => hm.part (Step.mem_parts_of_read hread)).symm

/-- A slot that is read without a fault can be written. -/
theorem replaceAt_eq_ok_of_readAt (hm : m.Everywhere (·.isClean = true))
    (h : (readAt steps m).2 = []) (new : Marked) : ∃ m', replaceAt new steps m = .ok m' := by
  induction steps generalizing m with
  | nil => exact ⟨new, replaceAt_nil new m⟩
  | cons step rest ih =>
    cases hread : step.read m with
    | ok part =>
      rw [readAt_cons_of_ok hread] at h
      have hpart := hm.part (Step.mem_parts_of_read hread)
      obtain ⟨part', hrest⟩ := ih hpart h
      exact ⟨step.put part' m, (replaceAt_cons_eq_ok_iff_of_clean hm).mpr
        ⟨part, part', ⟨hread, hpart⟩, hrest, rfl⟩⟩
    | error fault =>
      rw [readAt_cons_of_error hread] at h
      cases h

/-- What can be written is read without a fault. -/
theorem readAt_faults_of_replaceAt (hm : m.Everywhere (·.isClean = true))
    (h : replaceAt new steps m = .ok m') : (readAt steps m).2 = [] := by
  induction steps generalizing m m' with
  | nil => rfl
  | cons step rest ih =>
    obtain ⟨part, part', ⟨hread, hpart⟩, hrest, -⟩ :=
      (replaceAt_cons_eq_ok_iff_of_clean hm).mp h
    rw [readAt_cons_of_ok hread]
    exact ih hpart hrest

/-- **Reading back.**  Along the path of a write, the new value is read. -/
theorem readAt_replaceAt_self (hm : m.Everywhere (·.isClean = true))
    (h : replaceAt new steps m = .ok m') : readAt steps m' = (new, []) := by
  induction steps generalizing m m' with
  | nil =>
    cases h
    rfl
  | cons step rest ih =>
    obtain ⟨part, part', ⟨hread, hpart⟩, hrest, rfl⟩ :=
      (replaceAt_cons_eq_ok_iff_of_clean hm).mp h
    rw [readAt_cons_of_ok (Step.read_put_self hread)]
    exact ih hpart hrest

/-- What a step reads depends on where it goes, apart from the fault's node. -/
theorem Step.read_eq_of_key_eq (hkey : step.key = other.key) : step.read m = other.read m := by
  cases step <;> cases other <;> cases hkey <;> rfl

/-- **Reading elsewhere.**  Along a path that leaves the written one, the same value is read,
with the same faults. -/
theorem readAt_replaceAt_of_diverge (hm : m.Everywhere (·.isClean = true))
    (h : replaceAt new steps m = .ok m') (hdiverge : Diverge steps others) :
    readAt others m' = readAt others m := by
  induction steps generalizing m m' others with
  | nil => exact absurd hdiverge not_diverge_nil
  | cons step rest ih =>
    obtain ⟨part, part', ⟨hread, hpart⟩, hrest, rfl⟩ :=
      (replaceAt_cons_eq_ok_iff_of_clean hm).mp h
    cases others with
    | nil => exact absurd hdiverge not_diverge_nil_right
    | cons other others =>
      by_cases hkey : step.key = other.key
      · -- The paths still agree, so they part in the part that is read here.
        have hrests := (diverge_cons_iff.mp hdiverge).resolve_left (not_not_intro hkey)
        have hother : other.read m = .ok part := Step.read_eq_of_key_eq hkey ▸ hread
        have hother' : other.read (step.put part' m) = .ok part' :=
          Step.read_eq_of_key_eq hkey ▸ Step.read_put_self hread
        rw [readAt_cons_of_ok hother, readAt_cons_of_ok hother']
        exact ih hpart hrest hrests
      · rw [readAt, readAt, Step.read_put_of_ne hkey hread]

end Arbor.Eval

import Arbor.Proofs.Lockstep

/-!
# Defaults are zero values

What the zero value of a type should be can be said without computing anything
but lengths (`IsZero`): scalars are zero, empty or false, an array repeats the zero
value of its elements, and a record holds under each of its names the zero value of
the last field called so.

An array asks for the zero value of its elements only if it has some, and no list
may hold more values than the cap.  Both are decided while values are built, level
by level; what is counted are the values, so fields that were replaced do not count.

* `hasDefault_iff_isZero` — the default of a type is its zero value;
* `exists_isZero_iff` — which types have one;
* `IsZero.everywhere` — nothing in it is marked, and no list in it exceeds the cap;
* `filled_eq_tally` — counting in words that stick at their top decides the same;
* `default_is_zero` — these together: either there is the zero value, or a cause.
-/

namespace Arbor

open Filter

/-! ### What a zero value is -/

/-- The zero value of a type, where the type has one. -/
inductive IsZero (program : Program) : Ty → Value → Prop where
  | int : IsZero program .int (.int 0)
  | string : IsZero program .string (.string "")
  | bool : IsZero program .bool (.bool false)
  | undefined : IsZero program .undefined .undefined
  /-- Without elements, there need not be a zero value for them. -/
  | empty {elem : Ty} {length : NodeId} (hlength : HasLength program length 0) :
    IsZero program (.array elem length) (.list elem length [])
  /-- All elements together are no more values than the cap. -/
  | array {elem : Ty} {length : NodeId} {n : Nat} {v : Value} (hlength : HasLength program length n)
    (helem : IsZero program elem v) (hcap : n * v.size ≤ maxValues) :
    IsZero program (.array elem length) (.list elem length (List.replicate n (.plain v)))
  /-- All fields have a zero value, and each name keeps that of the last field called so. -/
  | record {fields : Entries Ty} {values : Entries Marked} (zero : Ty → Value)
    (hfields : ∀ field ∈ fields, IsZero program field.2 (zero field.2))
    (hascending : Ascending values)
    (hvalues : ∀ name, Entries.get? name values =
      (Entries.get? name fields.reverse).map fun ty => .plain (zero ty)) :
    IsZero program (.record fields) (.record fields values)

/-- The types that have a zero value within the cap. -/
def Ty.Defaultable (program : Program) : Ty → Prop
  | .array elem length => ∃ n, HasLength program length n ∧
      (n = 0 ∨ ∃ v, IsZero program elem v ∧ n * v.size ≤ maxValues)
  | .record fields => ∀ field ∈ fields, ∃ v, IsZero program field.2 v
  | .int | .string | .bool | .undefined => True
  | .function .. | .unknown => False

/-- If it is a list, it holds no more values than the cap, nested ones included. -/
def Marked.Capped (m : Marked) : Prop :=
  ∀ (elem : Ty) (length : NodeId) (items : List Marked), m.value = .list elem length items →
    (items.map fun item => item.value.size).foldr (· + ·) 0 ≤ maxValues

variable {program : Program} {ty : Ty} {v : Value} {m : Marked}

/-! ### Records of zero values -/

theorem Marked.record_eq_plain {fields : Entries Ty} {values : Entries Marked} {zero : Ty → Value}
    (hascending : Ascending values)
    (hvalues : ∀ name, Entries.get? name values =
      (Entries.get? name fields.reverse).map fun ty => .plain (zero ty)) :
    Marked.record fields (fields.map fun field => (field.1, .plain (zero field.2))) =
      .plain (.record fields values) := by
  have hcleaned : (fields.map fun field => (field.1, Marked.plain (zero field.2))).map
      (fun field => (field.1, field.2.cleaned)) =
      fields.map fun field => (field.1, Marked.plain (zero field.2)) :=
    List.map_map
  rw [Marked.record, Value.ofFields, hcleaned]
  congr 2
  refine (Ascending.nil.putAll _).eq_of_get?_eq hascending fun name => ?_
  rw [hvalues, Entries.get?_putAll_map (fun ty => Marked.plain (zero ty)) fields]

/-! ### Defaults and zero values -/

/-- A zero value is computed, with enough fuel for all lengths. -/
theorem IsZero.hasDefault (h : IsZero program ty v) : HasDefault program ty (.plain v) := by
  induction h with
  | int => exact ⟨0, rfl⟩
  | string => exact ⟨0, rfl⟩
  | bool => exact ⟨0, rfl⟩
  | undefined => exact ⟨0, rfl⟩
  | empty hlength =>
    obtain ⟨fuel, hlength⟩ := hlength
    exact ⟨fuel, defaultValue_array_eq_ok_iff.mpr
      ⟨0, [], hlength, defaultItems_eq_ok_iff.mpr (.inl ⟨rfl, rfl⟩), rfl⟩⟩
  | @array elem length n v hlength helem hcap ih =>
    obtain ⟨fuel, hn, hzero⟩ := (hlength.eventually.and ih.eventually).exists
    have hitems : (defaultItems (staticLength (eval program fuel)) elem n).run =
        some (.ok (List.replicate n (.plain v))) := by
      apply defaultItems_eq_ok_iff.mpr
      by_cases h : n = 0
      · exact .inl ⟨h, by rw [h]; rfl⟩
      · exact .inr ⟨h, .plain v, hzero, hcap, rfl⟩
    refine ⟨fuel, defaultValue_array_eq_ok_iff.mpr ⟨n, _, hn, hitems, ?_⟩⟩
    rw [Marked.list, List.map_replicate]
    rfl
  | @record fields values zero _ hascending hvalues ih =>
    have hall := eventually_forall_mem fields fun field hfield => (ih field hfield).eventually
    obtain ⟨fuel, hall⟩ := hall.exists
    have hzeros : (defaultFields (staticLength (eval program fuel)) fields).run =
        some (.ok (fields.map fun field => (field.1, .plain (zero field.2)))) := by
      apply defaultFields_eq_ok_iff.mpr
      rw [List.forall₂_map_right_iff, List.forall₂_same]
      exact fun field hfield => ⟨rfl, hall field hfield⟩
    refine ⟨fuel, defaultValue_record_eq_ok_iff.mpr ⟨_, hzeros, ?_⟩⟩
    rw [Marked.record_eq_plain hascending hvalues]

/-- A type has one default, so a function tells the values of all of them. -/
theorem exists_value_of_defaultValue (lengthOf : NodeId → Sizing Nat) :
    ∃ zero : Ty → Value, ∀ ty m, (defaultValue lengthOf ty).run = some (.ok m) →
      m.value = zero ty := by
  refine ⟨fun ty => ((defaultValue lengthOf ty).run.bind Except.toOption).elim .undefined (·.value),
    fun ty m h => ?_⟩
  dsimp only
  rw [h]
  rfl

/-- What is computed as a default is the zero value. -/
theorem isZero_of_defaultValue {fuel : Nat}
    (h : (defaultValue (staticLength (eval program fuel)) ty).run = some (.ok m)) :
    ∃ v, m = .plain v ∧ IsZero program ty v := by
  induction ty using Ty.induct generalizing m with
  | int =>
    cases h
    exact ⟨_, rfl, .int⟩
  | string =>
    cases h
    exact ⟨_, rfl, .string⟩
  | bool =>
    cases h
    exact ⟨_, rfl, .bool⟩
  | undefined =>
    cases h
    exact ⟨_, rfl, .undefined⟩
  | unknown => cases h
  | function => cases h
  | array elem length ih =>
    obtain ⟨n, items, hn, hitems, rfl⟩ := defaultValue_array_eq_ok_iff.mp h
    rcases defaultItems_eq_ok_iff.mp hitems with ⟨rfl, rfl⟩ | ⟨-, item, hitem, hcap, rfl⟩
    · exact ⟨_, rfl, .empty ⟨fuel, hn⟩⟩
    · obtain ⟨v, rfl, hv⟩ := ih hitem
      refine ⟨_, ?_, .array ⟨fuel, hn⟩ hv hcap⟩
      rw [Marked.list, List.map_replicate]
      rfl
  | record fields ih =>
    obtain ⟨values, hvalues, rfl⟩ := defaultValue_record_eq_ok_iff.mp h
    have hzeros := defaultFields_eq_ok_iff.mp hvalues
    -- fields of one type have one default, so what the fields hold depends on their types alone
    obtain ⟨zero, hzero⟩ := exists_value_of_defaultValue (staticLength (eval program fuel))
    have hall : List.Forall₂ (fun field value => IsZero program field.2 (zero field.2) ∧
        (field.1, Marked.plain (zero field.2)) = value) fields values := by
      have hparts := (List.forall₂_and_left fields values).mpr
        ⟨fun field hfield => @ih field hfield, hzeros⟩
      refine hparts.imp fun field value hrel => ?_
      obtain ⟨hisZero, hname, hdefault⟩ := hrel
      obtain ⟨v, hplain, hv⟩ := hisZero hdefault
      have hvalue : v = zero field.2 := by rw [← hzero field.2 value.2 hdefault, hplain]; rfl
      exact ⟨hvalue ▸ hv, Prod.ext hname (by rw [hplain, hvalue])⟩
    obtain ⟨hfields, hmap⟩ := (List.forall₂_and_left fields values).mp hall
    have hvalues : fields.map (fun field => (field.1, Marked.plain (zero field.2))) = values :=
      List.forall₂_eq_eq_eq ▸ List.forall₂_map_left_iff.mpr hmap
    subst hvalues
    have hstored := Entries.get?_putAll_map (fun ty => Marked.plain (zero ty)) fields
    exact ⟨_, Marked.record_eq_plain (Ascending.nil.putAll _) hstored,
      .record zero hfields (Ascending.nil.putAll _) hstored⟩

/-- **The default of a type is its zero value.** -/
theorem hasDefault_iff_isZero :
    HasDefault program ty m ↔ ∃ v, m = .plain v ∧ IsZero program ty v := by
  constructor
  · intro h
    obtain ⟨fuel, h⟩ := h
    exact isZero_of_defaultValue h
  · intro h
    obtain ⟨v, rfl, hv⟩ := h
    exact hv.hasDefault

/-- A type has at most one zero value. -/
theorem IsZero.unique {w : Value} (h : IsZero program ty v) (h' : IsZero program ty w) : v = w :=
  congrArg Marked.value (h.hasDefault.unique h'.hasDefault)

/-! ### Which types have a zero value -/

theorem exists_isZero_iff : (∃ v, IsZero program ty v) ↔ ty.Defaultable program := by
  cases ty with
  | int => exact iff_of_true ⟨_, .int⟩ trivial
  | string => exact iff_of_true ⟨_, .string⟩ trivial
  | bool => exact iff_of_true ⟨_, .bool⟩ trivial
  | undefined => exact iff_of_true ⟨_, .undefined⟩ trivial
  | unknown => exact iff_of_false nofun nofun
  | function params result body => exact iff_of_false nofun nofun
  | array elem length =>
    constructor
    · intro h
      obtain ⟨v, hv⟩ := h
      cases hv with
      | empty hlength => exact ⟨0, hlength, .inl rfl⟩
      | array hlength helem hcap => exact ⟨_, hlength, .inr ⟨_, helem, hcap⟩⟩
    · intro h
      obtain ⟨n, hlength, rfl | ⟨v, helem, hcap⟩⟩ := h
      · exact ⟨_, .empty hlength⟩
      · exact ⟨_, .array hlength helem hcap⟩
  | record fields =>
    constructor
    · intro h
      obtain ⟨v, hv⟩ := h
      cases hv with
      | record zero hfields => exact fun field hfield => ⟨_, hfields field hfield⟩
    · intro h
      have hchoice : ∀ ty, ∃ v, (∃ w, IsZero program ty w) → IsZero program ty v := by
        intro ty
        by_cases hty : ∃ w, IsZero program ty w
        · exact hty.imp fun w hw _ => hw
        · exact ⟨.undefined, fun hw => absurd hw hty⟩
      choose zero hzero using hchoice
      have hstored := Entries.get?_putAll_map (fun ty => Marked.plain (zero ty)) fields
      exact ⟨_, .record zero (fun field hfield => hzero field.2 (h field hfield))
        (Ascending.nil.putAll _) hstored⟩

/-! ### What a zero value is made of -/

theorem IsZero.ty_eq (h : IsZero program ty v) : v.ty = ty := by
  cases h <;> rfl

/-- Whatever is nested in a zero value is unmarked, and within the cap. -/
theorem IsZero.everywhere (h : IsZero program ty v) :
    (Marked.plain v).Everywhere fun inner => inner.isClean = true ∧ inner.Capped := by
  induction h with
  | int => exact Marked.everywhere_of_parts_eq_nil rfl ⟨rfl, nofun⟩
  | string => exact Marked.everywhere_of_parts_eq_nil rfl ⟨rfl, nofun⟩
  | bool => exact Marked.everywhere_of_parts_eq_nil rfl ⟨rfl, nofun⟩
  | undefined => exact Marked.everywhere_of_parts_eq_nil rfl ⟨rfl, nofun⟩
  | empty hlength =>
    refine Marked.everywhere_of_parts_eq_nil rfl ⟨rfl, fun elem length items heq => ?_⟩
    cases heq
    exact Nat.zero_le _
  | @array elem length n v hlength helem hcap ih =>
    refine Marked.everywhere_iff.mpr ⟨⟨rfl, fun elem length items heq => ?_⟩, fun part hpart => ?_⟩
    · cases heq
      rw [List.map_replicate]
      exact List.sum_replicate_nat.trans_le hcap
    · rw [List.eq_of_mem_replicate hpart]
      exact ih
  | @record fields values zero hfields hascending hvalues ih =>
    refine Marked.everywhere_iff.mpr ⟨⟨rfl, nofun⟩, fun part hpart => ?_⟩
    obtain ⟨entry, hentry, rfl⟩ := List.mem_map.mp hpart
    have hfound := Entries.get?_eq_some_of_mem hascending.nodup_names hentry
    rw [hvalues] at hfound
    obtain ⟨ty, hty, heq⟩ := Option.map_eq_some_iff.mp hfound
    rw [← heq]
    exact ih (entry.1, ty) (List.mem_reverse.mp (Entries.mem_of_get?_eq_some hty))

/-! ### Counting in words -/

namespace Value

mutual

/-- The number of values in this one, counted in words that stick at `top`. -/
def tally (top : Nat) : Value → Nat
  | .list _ _ items => min (tallyItems top items 0 + 1) top
  | .record _ fields => min (tallyFields top fields 0 + 1) top
  | _ => min (0 + 1) top
termination_by structural v => v

/-- `counted` and the numbers of values in all of these. -/
def tallyItems (top : Nat) : List Marked → Nat → Nat
  | [], counted => counted
  | ⟨v, _, _⟩ :: rest, counted => tallyItems top rest (min (counted + v.tally top) top)
termination_by structural items => items

/-- `counted` and the numbers of values in all of these fields. -/
def tallyFields (top : Nat) : List (String × Marked) → Nat → Nat
  | [], counted => counted
  | (_, ⟨v, _, _⟩) :: rest, counted => tallyFields top rest (min (counted + v.tally top) top)
termination_by structural fields => fields

end

variable {top : Nat}

private theorem tallyItems_eq_of {items : List Marked}
    (h : ∀ item ∈ items, item.value.tally top = min item.value.size top) {counted : Nat}
    (hcounted : counted ≤ top) : tallyItems top items counted =
      min (counted + (items.map fun item => item.value.size).foldr (· + ·) 0) top := by
  induction items generalizing counted with
  | nil => exact (Nat.min_eq_left hcounted).symm
  | cons item rest ih =>
    obtain ⟨v, returned, unresolved⟩ := item
    obtain ⟨hhead, hrest⟩ := List.forall_mem_cons.mp h
    rw [tallyItems, ih hrest (Nat.min_le_right _ _), hhead, List.map_cons, List.foldr_cons]
    omega

private theorem tallyFields_eq_of {fields : Entries Marked}
    (h : ∀ field ∈ fields, field.2.value.tally top = min field.2.value.size top) {counted : Nat}
    (hcounted : counted ≤ top) : tallyFields top fields counted =
      min (counted + (fields.map fun field => field.2.value.size).foldr (· + ·) 0) top := by
  induction fields generalizing counted with
  | nil => exact (Nat.min_eq_left hcounted).symm
  | cons field rest ih =>
    obtain ⟨name, v, returned, unresolved⟩ := field
    obtain ⟨hhead, hrest⟩ := List.forall_mem_cons.mp h
    rw [tallyFields, ih hrest (Nat.min_le_right _ _), hhead, List.map_cons, List.foldr_cons]
    omega

/-- Words that stick tell the number of values up to their top. -/
theorem tally_eq (v : Value) : v.tally top = min v.size top := by
  induction v using Value.induct with
  | int => rfl
  | string => rfl
  | bool => rfl
  | undefined => rfl
  | function => rfl
  | list elem length items ih =>
    rw [tally, tallyItems_eq_of ih (Nat.zero_le _), size_list]
    omega
  | record shape fields ih =>
    rw [tally, tallyFields_eq_of ih (Nat.zero_le _), size_record]
    omega

end Value

/-- **Counting in words that stick at their top decides the same as exact arithmetic**, if the
cap is below the top. -/
theorem filled_eq_tally {top : Nat} (htop : maxValues < top) (zero : Marked) (n : Nat) :
    filled zero n =
      if maxValues < min (n * zero.value.tally top) top then .error (.lengthTooLarge n)
      else .ok (List.replicate n zero) := by
  rw [Value.tally_eq]
  refine if_congr ?_ rfl rfl
  rcases Nat.le_total zero.value.size top with hsize | hsize
  · rw [Nat.min_eq_left hsize]
    omega
  · rw [Nat.min_eq_right hsize]
    rcases Nat.eq_zero_or_pos n with rfl | hn
    · simp
    · have hexact : zero.value.size ≤ n * zero.value.size := Nat.le_mul_of_pos_left _ hn
      have hstuck : top ≤ n * top := Nat.le_mul_of_pos_left _ hn
      omega

/-! ### Either the zero value or a cause -/

/-- Lengths that can be evaluated are known with enough fuel. -/
theorem eventually_lengths_isSome
    (hlengths : ∀ length ∈ ty.lengths, ∃ m final, Evaluates program {} length {} m final) :
    ∀ᶠ fuel in atTop, ∀ length ∈ ty.lengths,
      (staticLength (eval program fuel) length).run.isSome := by
  refine eventually_forall_mem ty.lengths fun length hlength => ?_
  obtain ⟨m, final, h⟩ := hlengths length hlength
  filter_upwards [evaluates_iff_eventually.mp h] with fuel hfuel
  rw [staticLength, hfuel]
  rfl

/-- Where the lengths can be evaluated, a type has a default or there is a cause why not. -/
theorem exists_default_or_cause
    (hlengths : ∀ length ∈ ty.lengths, ∃ m final, Evaluates program {} length {} m final) :
    (∃ m, HasDefault program ty m) ∨ ∃ cause, LacksDefault program ty cause := by
  obtain ⟨fuel, hfuel⟩ := (eventually_lengths_isSome hlengths).exists
  obtain ⟨outcome, houtcome⟩ :=
    Option.isSome_iff_exists.mp (defaultValue_isSome_of_lengths hfuel)
  cases outcome with
  | error cause => exact .inr ⟨cause, fuel, houtcome⟩
  | ok m => exact .inl ⟨m, fuel, houtcome⟩

/-- **The default of a type is its zero value, within the cap.**  Where the lengths in the type
can be evaluated, the default exists if the type has a zero value and fails for a cause if not.
It is of the type, has no marks, and neither it nor a list in it holds more values than the cap. -/
theorem default_is_zero
    (hlengths : ∀ length ∈ ty.lengths, ∃ m final, Evaluates program {} length {} m final) :
    (∀ m, HasDefault program ty m ↔ ∃ v, m = .plain v ∧ IsZero program ty v) ∧
    ((∃ m, HasDefault program ty m) ↔ ty.Defaultable program) ∧
    ((∃ cause, LacksDefault program ty cause) ↔ ¬ ty.Defaultable program) ∧
    ∀ m, HasDefault program ty m →
      m.value.ty = ty ∧ m.Everywhere fun inner => inner.isClean = true ∧ inner.Capped := by
  have hdefaultable : (∃ m, HasDefault program ty m) ↔ ty.Defaultable program := by
    rw [← exists_isZero_iff]
    constructor
    · intro h
      obtain ⟨m, hm⟩ := h
      exact (hasDefault_iff_isZero.mp hm).imp fun v hv => hv.2
    · intro h
      obtain ⟨v, hv⟩ := h
      exact ⟨_, hv.hasDefault⟩
  refine ⟨fun m => hasDefault_iff_isZero, hdefaultable, ?_, fun m hm => ?_⟩
  · rw [← hdefaultable]
    constructor
    · intro h hzero
      obtain ⟨cause, hcause⟩ := h
      obtain ⟨m, hm⟩ := hzero
      exact hcause.not_hasDefault hm
    · intro h
      exact (exists_default_or_cause hlengths).resolve_left h
  · obtain ⟨v, rfl, hv⟩ := hasDefault_iff_isZero.mp hm
    exact ⟨hv.ty_eq, hv.everywhere⟩

/-- Two lengths. -/
def gridProgram : Program where
  nodes := #[.int 2, .int 3]

/-- Three rows of two integers each, between two fields of one name. -/
def gridType : Ty :=
  .record [("a", .int), ("grid", .array (.array .int ⟨0⟩) ⟨1⟩), ("a", .string)]

/-- The later field keeps its name, and the rows are copies of one. -/
def gridZero : Value :=
  let row : Value := .list .int ⟨0⟩ [.plain (.int 0), .plain (.int 0)]
  .record [("a", .int), ("grid", .array (.array .int ⟨0⟩) ⟨1⟩), ("a", .string)]
    [("a", .plain (.string "")),
      ("grid", .plain (.list (.array .int ⟨0⟩) ⟨1⟩ [.plain row, .plain row, .plain row]))]

/-- Twelve values: the record, its list of three rows of two, and the string. -/
theorem default_is_zero_gridProgram :
    (∀ length ∈ gridType.lengths, ∃ m final, Evaluates gridProgram {} length {} m final) ∧
    HasDefault gridProgram gridType (.plain gridZero) ∧ gridType.Defaultable gridProgram ∧
    IsZero gridProgram gridType gridZero ∧ gridZero.size = 12 ∧
    (Marked.plain gridZero).Everywhere fun inner => inner.isClean = true ∧ inner.Capped := by
  have hlengths : ∀ length ∈ gridType.lengths,
      ∃ m final, Evaluates gridProgram {} length {} m final := by
    have heq : gridType.lengths = [⟨1⟩, ⟨0⟩] := rfl
    rw [heq]
    exact List.forall_mem_cons.mpr ⟨⟨_, _, 1, rfl⟩, List.forall_mem_singleton.mpr ⟨_, _, 1, rfl⟩⟩
  have hdefault : HasDefault gridProgram gridType (.plain gridZero) := ⟨1, rfl⟩
  obtain ⟨hzero, hdefaultable, -, hmade⟩ := default_is_zero hlengths
  obtain ⟨v, heq, hv⟩ := (hzero _).mp hdefault
  cases heq
  exact ⟨hlengths, hdefault, hdefaultable.mp ⟨_, hdefault⟩, hv, rfl, (hmade _ hdefault).2⟩

end Arbor

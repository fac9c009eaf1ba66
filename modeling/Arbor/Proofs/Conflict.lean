import Arbor.Ty.Agreement
import Mathlib.Data.List.Pairwise

/-!
# Types in conflict with themselves

Agreement of types is symmetric and transitive, but not every type agrees with
itself.  A field is looked up by its name, and the first one of that name is
found.  So a record agrees with itself if each of its fields agrees with the
first of the same name, and a type does if all records inside it do, at any depth.

* `Ty.agrees_self_iff` — a type agrees with itself if nothing in it is in conflict;
* `Ty.field?_rel_of_agrees` — what a name finds in two types that agree;
* `agrees_partialEquivalence` — the laws of agreement together.
-/

namespace Arbor

namespace Ty

/-! ### Records inside a type -/

/-- The types that a type is directly made of. -/
def parts : Ty → List Ty
  | .array elem _ => [elem]
  | .record fields => fields.map (·.2)
  | .function params result _ => params.map (·.2) ++ [result]
  | _ => []

/-- `inner` is the type itself or occurs in it at some depth. -/
inductive Within (inner : Ty) : Ty → Prop where
  | self : Within inner inner
  | part {ty part : Ty} (hpart : part ∈ ty.parts) (hin : Within inner part) : Within inner ty

/-- Any two fields of one name have types that agree. -/
def FieldsAgree (fields : Entries Ty) : Prop :=
  fields.Pairwise fun field other => field.1 = other.1 → field.2.agrees other.2 = true

/-- In every record inside the type, any two fields of one name agree. -/
def ConflictFree (ty : Ty) : Prop :=
  ∀ fields : Entries Ty, Within (.record fields) ty → FieldsAgree fields

/-- No record inside the type lists a name twice. -/
def DistinctlyNamed (ty : Ty) : Prop :=
  ∀ fields : Entries Ty, Within (.record fields) ty → fields.names.Nodup

/-- Induction over types, whatever they are made of. -/
theorem induct_parts {motive : Ty → Prop}
    (step : ∀ ty : Ty, (∀ part ∈ ty.parts, motive part) → motive ty) (ty : Ty) : motive ty := by
  induction ty using Ty.induct with
  | array elem length ih =>
    apply step
    intro part hpart
    exact List.mem_singleton.mp hpart ▸ ih
  | record fields ih =>
    apply step
    intro part hpart
    obtain ⟨field, hfield, rfl⟩ := List.mem_map.mp hpart
    exact ih field hfield
  | function params result body ih ihresult =>
    apply step
    intro part hpart
    rcases List.mem_append.mp hpart with hparam | hresult
    · obtain ⟨param, hmem, rfl⟩ := List.mem_map.mp hparam
      exact ih param hmem
    · exact List.mem_singleton.mp hresult ▸ ihresult
  | _ => exact step _ nofun

/-- A record inside a type is the type itself or a record inside one of its parts. -/
theorem forall_record_within_iff {P : Entries Ty → Prop} {ty : Ty} :
    (∀ fields, Within (.record fields) ty → P fields) ↔
      (∀ fields, ty = .record fields → P fields) ∧
        ∀ part ∈ ty.parts, ∀ fields, Within (.record fields) part → P fields := by
  constructor
  · intro h
    refine ⟨fun fields heq => h fields (heq ▸ .self), fun part hpart fields hin => ?_⟩
    exact h fields (.part hpart hin)
  · intro h fields hin
    cases hin with
    | self => exact h.1 fields rfl
    | part hpart hin => exact h.2 _ hpart fields hin

theorem conflictFree_iff_parts {ty : Ty} :
    ty.ConflictFree ↔ (∀ fields, ty = .record fields → FieldsAgree fields) ∧
      ∀ part ∈ ty.parts, part.ConflictFree :=
  forall_record_within_iff

theorem DistinctlyNamed.conflictFree {ty : Ty} (h : ty.DistinctlyNamed) : ty.ConflictFree := by
  intro fields hin
  have hnames := List.pairwise_map.mp (h fields hin)
  exact hnames.imp fun hne heq => absurd heq hne

/-! ### Types that agree with themselves -/

/-- If fields of one name agree, each field agrees with the one that its name finds. -/
theorem exists_get?_of_fieldsAgree {fields : Entries Ty} (h : FieldsAgree fields)
    (hself : ∀ field ∈ fields, field.2.agrees field.2 = true) :
    ∀ field ∈ fields, ∃ found, fields.get? field.1 = some found ∧ field.2.agrees found = true := by
  induction fields with
  | nil => exact nofun
  | cons head rest ih =>
    obtain ⟨hhead, hrest⟩ := List.pairwise_cons.mp h
    obtain ⟨hselfHead, hselfRest⟩ := List.forall_mem_cons.mp hself
    intro field hfield
    rw [Entries.get?_cons]
    rcases List.mem_cons.mp hfield with rfl | hmem
    · exact ⟨field.2, if_pos rfl, hselfHead⟩
    · by_cases hname : head.1 = field.1
      · exact ⟨head.2, if_pos hname, agrees_symm (hhead field hmem hname)⟩
      · rw [if_neg hname]
        exact ih hrest hselfRest field hmem

/-- A record agrees with itself if its fields do, each with itself and with all others of its
name. -/
theorem agrees_self_record_iff {fields : Entries Ty} :
    (Ty.record fields).agrees (.record fields) = true ↔
      FieldsAgree fields ∧ ∀ field ∈ fields, field.2.agrees field.2 = true := by
  rw [agrees_record_iff]
  constructor
  · intro h
    have hfound := h.1
    have hagree : ∀ field ∈ fields, ∀ other ∈ fields, field.1 = other.1 →
        field.2.agrees other.2 = true := by
      intro field hfield other hother hname
      obtain ⟨found, hget, hto⟩ := hfound field hfield
      obtain ⟨found', hget', hto'⟩ := hfound other hother
      rw [← hname, hget] at hget'
      cases hget'
      exact agrees_trans hto (agrees_symm hto')
    exact ⟨List.pairwise_of_forall_mem_list hagree,
      fun field hfield => hagree field hfield field hfield rfl⟩
  · intro h
    obtain ⟨hagree, hself⟩ := h
    have hfound := exists_get?_of_fieldsAgree hagree hself
    refine ⟨hfound, fun field hfield => ?_⟩
    obtain ⟨found, hget, hto⟩ := hfound field hfield
    exact ⟨found, hget, agrees_symm hto⟩

theorem pairwiseAgree_self_iff {params : Entries Ty} :
    pairwiseAgree params params = true ↔ ∀ param ∈ params, param.2.agrees param.2 = true := by
  induction params with
  | nil => simp [pairwiseAgree]
  | cons param rest ih => simp [pairwiseAgree, ih]

/-- One level of agreement with itself. -/
theorem agrees_self_iff_parts {ty : Ty} :
    ty.agrees ty = true ↔ (∀ fields, ty = .record fields → FieldsAgree fields) ∧
      ∀ part ∈ ty.parts, part.agrees part = true := by
  cases ty with
  | array elem length => simp [agrees, parts]
  | record fields =>
    rw [agrees_self_record_iff, parts, List.forall_mem_map]
    exact and_congr_left fun _ => ⟨fun h _ heq => Ty.record.inj heq ▸ h, fun h => h fields rfl⟩
  | function params result body =>
    simp only [agrees, parts, Bool.and_eq_true, pairwiseAgree_self_iff, reduceCtorEq,
      false_implies, implies_true, true_and, List.forall_mem_append, List.forall_mem_map,
      List.forall_mem_singleton]
  | _ => simp [agrees, parts]

/-- **A type agrees with itself exactly if no record inside it is in conflict.** -/
theorem agrees_self_iff {ty : Ty} : ty.agrees ty = true ↔ ty.ConflictFree := by
  induction ty using induct_parts with
  | step ty ih =>
    rw [agrees_self_iff_parts, conflictFree_iff_parts]
    exact and_congr_right fun _ => forall₂_congr ih

instance (ty : Ty) : Decidable ty.ConflictFree :=
  decidable_of_iff _ agrees_self_iff

/-- In types that agree, a name finds types that agree, or no field on either side. -/
theorem field?_rel_of_agrees {ty other : Ty} (h : ty.agrees other = true) (name : String) :
    Option.Rel (fun found found' => found.agrees found' = true) (ty.field? name)
      (other.field? name) := by
  cases ty with
  | record fields =>
    cases other with
    | record fields' =>
      obtain ⟨hto, hback⟩ := agrees_record_iff.mp h
      show Option.Rel _ (Entries.get? name fields) (Entries.get? name fields')
      cases hfound : Entries.get? name fields with
      | some found =>
        obtain ⟨found', hfound', hagree⟩ := hto _ (Entries.mem_of_get?_eq_some hfound)
        rw [hfound']
        exact .some hagree
      | none =>
        cases hfound' : Entries.get? name fields' with
        | none => exact .none
        | some found' =>
          obtain ⟨found, hget, -⟩ := hback _ (Entries.mem_of_get?_eq_some hfound')
          cases hfound.symm.trans hget
    | _ => cases h
  | _ => cases other <;> first | exact .none | cases h

end Ty

open Ty

/-- **Agreement is a partial equivalence.**  It is symmetric and transitive, and a type agrees with
itself exactly if any two fields of one name agree, in every record inside it.  So it is an
equivalence on the types that list no name twice.  And in types that agree, every name finds types
that agree. -/
theorem agrees_partialEquivalence :
    (∀ ty other : Ty, ty.agrees other = true → other.agrees ty = true) ∧
    (∀ ty middle other : Ty, ty.agrees middle = true → middle.agrees other = true →
      ty.agrees other = true) ∧
    (∀ ty : Ty, ty.agrees ty = true ↔ ty.ConflictFree) ∧
    (Equivalence fun ty other : { ty : Ty // ty.DistinctlyNamed } =>
      ty.1.agrees other.1 = true) ∧
    ∀ ty other : Ty, ty.agrees other = true → ∀ name,
      Option.Rel (fun found found' => found.agrees found' = true) (ty.field? name)
        (other.field? name) := by
  refine ⟨fun _ _ => agrees_symm, fun _ _ _ => agrees_trans, fun _ => agrees_self_iff, ?_,
    fun _ _ => field?_rel_of_agrees⟩
  exact ⟨fun ty => agrees_self_iff.mpr ty.2.conflictFree, agrees_symm, agrees_trans⟩

/-- Lists one field twice, with arrays that agree although their lengths may differ. -/
def repeatingType : Ty :=
  .function [("p", .record [("a", .array .int ⟨0⟩), ("b", .bool), ("a", .array .int ⟨1⟩)])] .int ⟨5⟩

/-- Lists that field once, and in another order. -/
def plainType : Ty :=
  .function [("q", .record [("b", .bool), ("a", .array .int ⟨2⟩)])] .int ⟨6⟩

theorem agrees_partialEquivalence_repeatingType :
    repeatingType.agrees plainType = true ∧ plainType.agrees repeatingType = true ∧
    repeatingType.agrees repeatingType = true ∧ repeatingType.ConflictFree := by
  obtain ⟨hsymm, htrans, hself, -, -⟩ := agrees_partialEquivalence
  have hagree : repeatingType.agrees plainType = true := by decide
  have hback := hsymm repeatingType plainType hagree
  have hrefl := htrans repeatingType plainType repeatingType hagree hback
  exact ⟨hagree, hback, hrefl, (hself repeatingType).mp hrefl⟩

/-- Two fields of one name that do not agree, deep inside a type. -/
example : ¬ (Ty.array (.record [("a", .int), ("a", .string)]) ⟨0⟩).ConflictFree := by decide

end Arbor

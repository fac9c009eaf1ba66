import Arbor.Proofs.Conflict
import Arbor.Proofs.Functionless
import Arbor.Proofs.Pointwise
import Arbor.Value.Marked

/-!
# Equality of values

Equality compares, at every level of two values, their types and what they hold, and
goes on with the values nested in them, one by one.  What a value holds, apart from
these, is its outline.  So the laws of equality are those of agreement, of the plain
equality of outlines, and of pairs of lists.

The outline does not tell two functions apart, whose text is the text of their type.
All other values are written from their outline and the texts of their parts.

Fields are stored in order of their names, so it does not matter in which order they
were given: two records are equal if every name finds equal values in both.

* `Value.equal_iff` — one level of equality;
* `Marked.equal_self_iff` — a value equals itself if the types in it agree with
  themselves;
* `Value.text_eq_of_equal` — equal values without functions have one text;
* `Marked.equal_record_iff` — equality of records, by lookups;
* `equal_partialEquivalence` — the laws of equality together.
-/

namespace Arbor

/-! ### One level of a value -/

/-- What a value holds, apart from its type and from the values nested in it. -/
inductive Outline where
  | int (n : Int64)
  | string (s : String)
  | bool (b : Bool)
  | undefined
  | list
  | record (names : List String)
  | function

namespace Value

/-- What the value holds itself. -/
def outline : Value → Outline
  | .int n => .int n
  | .string s => .string s
  | .bool b => .bool b
  | .undefined => .undefined
  | .list .. => .list
  | .record _ fields => .record (Entries.names fields)
  | .function _ => .function

theorem equalItems_iff {items items' : List Marked} : equalItems items items' = true ↔
    List.Forall₂ (fun m m' => m.equal m' = true) items items' := by
  induction items generalizing items' with
  | nil => cases items' <;> simp [equalItems]
  | cons item rest ih =>
    obtain ⟨v, returned, unresolved⟩ := item
    cases items' with
    | nil => simp [equalItems]
    | cons item' rest' =>
      obtain ⟨v', returned', unresolved'⟩ := item'
      simp [equalItems, Marked.equal, ih]

/-- Fields are compared as the entries of finite maps are. -/
theorem equalFields_eq_agreeBy (fields fields' : Entries Marked) :
    equalFields fields fields' = Entries.agreeBy Marked.equal fields fields' := by
  induction fields generalizing fields' with
  | nil => cases fields' <;> rfl
  | cons field rest ih =>
    obtain ⟨name, v, returned, unresolved⟩ := field
    cases fields' with
    | nil => rfl
    | cons field' rest' =>
      obtain ⟨name', v', returned', unresolved'⟩ := field'
      simp [equalFields, Entries.agreeBy, Marked.equal, ih]

/-- Values are equal if their types agree, they hold the same, and their parts are equal one by
one. -/
theorem equal_iff {v w : Value} : v.equal w = true ↔
    v.ty.agrees w.ty = true ∧ v.outline = w.outline ∧
      List.Forall₂ (fun m m' => m.equal m' = true) v.parts w.parts := by
  cases v with
  | list elem length items =>
    cases w with
    | list elem' length' items' => simp [equal, equalItems_iff, ty, Ty.agrees, outline, parts]
    | _ => simp [equal, outline]
  | record shape fields =>
    cases w with
    | record shape' fields' =>
      rw [equal, equalFields_eq_agreeBy, Bool.and_eq_true, Entries.agreeBy_iff_forall₂,
        Entries.forall₂_paired_iff]
      simp [ty, outline, parts]
    | _ => simp [equal, outline]
  | function signature =>
    cases w with
    | function signature' => simp [equal, ty, outline, parts]
    | _ => simp [equal, outline]
  | _ => cases w <;> simp [equal, ty, Ty.agrees, outline, parts]

end Value

namespace Marked

/-- Induction over values, whatever is nested in them. -/
theorem induct_parts {motive : Marked → Prop}
    (step : ∀ m : Marked, (∀ part ∈ m.value.parts, motive part) → motive m) (m : Marked) :
    motive m := by
  suffices h : ∀ v : Value, ∀ m : Marked, m.value = v → motive m from h m.value m rfl
  intro v
  induction v using Value.induct with
  | list elem length items ih =>
    rintro m hm
    apply step
    rw [hm]
    exact fun part hpart => ih part hpart part rfl
  | record shape fields ih =>
    rintro m hm
    apply step
    rw [hm]
    intro part hpart
    obtain ⟨field, hfield, rfl⟩ := List.mem_map.mp hpart
    exact ih field hfield field.2 rfl
  | _ =>
    intro m hm
    apply step
    rw [hm]
    exact nofun

/-! ### The laws -/

theorem equal_symm {m w : Marked} (h : m.equal w = true) : w.equal m = true := by
  induction m using induct_parts generalizing w with
  | step m ih =>
    obtain ⟨htypes, houtline, hparts⟩ := Value.equal_iff.mp h
    refine Value.equal_iff.mpr ⟨Ty.agrees_symm htypes, houtline.symm, List.Forall₂.flip ?_⟩
    have hboth := (List.forall₂_and_left _ _).mpr ⟨ih, hparts⟩
    exact hboth.imp fun part other hpart => hpart.1 hpart.2

theorem equal_trans {m middle w : Marked} (h : m.equal middle = true)
    (h' : middle.equal w = true) : m.equal w = true := by
  induction m using induct_parts generalizing middle w with
  | step m ih =>
    obtain ⟨htypes, houtline, hparts⟩ := Value.equal_iff.mp h
    obtain ⟨htypes', houtline', hparts'⟩ := Value.equal_iff.mp h'
    refine Value.equal_iff.mpr ⟨Ty.agrees_trans htypes htypes', houtline.trans houtline', ?_⟩
    have hboth := (List.forall₂_and_left _ _).mpr ⟨ih, hparts⟩
    exact forall₂_comp (fun _ _ _ hpart hpart' => hpart.1 hpart.2 hpart') hboth hparts'

/-- A value equals itself exactly if every type in it agrees with itself. -/
theorem equal_self_iff {m : Marked} :
    m.equal m = true ↔ m.Everywhere fun inner => inner.value.ty.agrees inner.value.ty = true := by
  induction m using induct_parts with
  | step m ih =>
    rw [equal, Value.equal_iff, everywhere_iff, List.forall₂_same]
    refine and_congr_right fun _ => ?_
    rw [and_iff_right rfl]
    exact forall₂_congr ih

/-- Two records built from fields are equal if their types agree and every name finds equal values
in both, the last one that was given under it, or none. -/
theorem equal_record_iff {shape shape' : Entries Ty} {fields fields' : Entries Marked} :
    (Marked.record shape fields).equal (.record shape' fields') = true ↔
      (Ty.record shape).agrees (.record shape') = true ∧
        ∀ name, Option.Rel (fun m w => m.equal w = true) (Entries.get? name fields.reverse)
          (Entries.get? name fields'.reverse) := by
  have hcleaned : ∀ {found found' : Option Marked},
      Option.Rel (fun m w => m.equal w = true) (found.map cleaned) (found'.map cleaned) ↔
        Option.Rel (fun m w => m.equal w = true) found found' := by
    intro found found'
    cases found <;> cases found' <;> simp [equal]
  rw [equal, record, record, value_plain, value_plain, Value.ofFields, Value.ofFields, Value.equal,
    Bool.and_eq_true, Value.equalFields_eq_agreeBy, Entries.agreeBy_iff_forall₂,
    (Ascending.nil.putAll _).forall₂_iff_get?_rel (Ascending.nil.putAll _)]
  simp only [Entries.get?_putAll_map cleaned, hcleaned]

end Marked

/-! ### Texts -/

namespace Value

/-- What is written for a value after what was written before, whatever that is. -/
def WrittenAlike (m w : Marked) : Prop :=
  ∀ written, m.value.write written = w.value.write written

theorem writeItems_eq {items items' : List Marked} (h : List.Forall₂ WrittenAlike items items')
    (separator written : String) :
    writeItems items separator written = writeItems items' separator written := by
  induction h generalizing separator written with
  | nil => rfl
  | @cons m w rest rest' hhead _ ih =>
    obtain ⟨v, returned, unresolved⟩ := m
    obtain ⟨v', returned', unresolved'⟩ := w
    rw [writeItems, writeItems, ih]
    exact congrArg _ (hhead _)

theorem writeFields_eq {fields fields' : Entries Marked}
    (h : List.Forall₂ (Entries.Paired WrittenAlike) fields fields') (separator written : String) :
    writeFields fields separator written = writeFields fields' separator written := by
  induction h generalizing separator written with
  | nil => rfl
  | cons hpaired _ ih =>
    cases hpaired with
    | @intro name m w hhead =>
      obtain ⟨v, returned, unresolved⟩ := m
      obtain ⟨v', returned', unresolved'⟩ := w
      rw [writeFields, writeFields, ih]
      exact congrArg _ (hhead _)

/-- Apart from functions, a value is written from its outline and its parts. -/
theorem write_eq {v w : Value} (hfunction : v.outline ≠ .function)
    (houtline : v.outline = w.outline) (hparts : List.Forall₂ WrittenAlike v.parts w.parts)
    (written : String) :
    v.write written = w.write written := by
  cases v with
  | function signature => exact absurd rfl hfunction
  | list elem length items =>
    cases w with
    | list elem' length' items' =>
      have hitems : List.Forall₂ WrittenAlike items items' := hparts
      rw [write, write, writeItems_eq hitems]
    | _ => cases houtline
  | record shape fields =>
    cases w with
    | record shape' fields' =>
      have hfields := Entries.forall₂_paired_iff.mpr ⟨Outline.record.inj houtline, hparts⟩
      rw [write, write, writeFields_eq hfields]
    | _ => cases houtline
  | _ =>
    cases w <;> cases houtline
    rfl

end Value

/-- Equal values are written alike, if there are no functions in them. -/
theorem Marked.writtenAlike_of_equal {m w : Marked} (h : m.equal w = true)
    (hfunctions : m.Everywhere NotFunction) : Value.WrittenAlike m w := by
  induction m using induct_parts generalizing w with
  | step m ih =>
    obtain ⟨-, houtline, hparts⟩ := Value.equal_iff.mp h
    have hself : m.value.outline ≠ .function := by
      have hnot := hfunctions.self
      cases hm : m.value with
      | function signature => exact absurd hm (hnot signature)
      | _ => exact nofun
    have halike : ∀ part ∈ m.value.parts, ∀ {other : Marked}, part.equal other = true →
        Value.WrittenAlike part other :=
      fun part hpart _ hequal => ih part hpart hequal (hfunctions.part hpart)
    have hboth := (List.forall₂_and_left _ _).mpr ⟨halike, hparts⟩
    exact Value.write_eq hself houtline (hboth.imp fun part other hpart => hpart.1 hpart.2)

/-- **Equality of values is a partial equivalence, blind to marks.**  It is symmetric and
transitive, marks make no difference, and a value equals itself exactly if all types in it agree
with themselves.  Equal values that hold no function have one text.  Two records are equal if their
types agree and every name finds equal values in both, in whatever order the fields were given. -/
theorem equal_partialEquivalence :
    (∀ m w : Marked, m.equal w = true → w.equal m = true) ∧
    (∀ m middle w : Marked, m.equal middle = true → middle.equal w = true → m.equal w = true) ∧
    (∀ m m' w w' : Marked, m'.value = m.value → w'.value = w.value → m'.equal w' = m.equal w) ∧
    (∀ m : Marked, m.equal m = true ↔
      m.Everywhere fun inner => inner.value.ty.agrees inner.value.ty = true) ∧
    (∀ m w : Marked, m.equal w = true → m.Everywhere Marked.NotFunction →
      m.value.text = w.value.text) ∧
    ∀ (shape shape' : Entries Ty) (fields fields' : Entries Marked),
      (Marked.record shape fields).equal (.record shape' fields') = true ↔
        (Ty.record shape).agrees (.record shape') = true ∧
          ∀ name, Option.Rel (fun m w => m.equal w = true) (Entries.get? name fields.reverse)
            (Entries.get? name fields'.reverse) := by
  refine ⟨fun _ _ => Marked.equal_symm, fun _ _ _ => Marked.equal_trans, ?_,
    fun _ => Marked.equal_self_iff, ?_, fun _ _ _ _ => Marked.equal_record_iff⟩
  · intro m m' w w' hm hw
    rw [Marked.equal, hm, hw, Marked.equal]
  · intro m w h hfunctions
    exact Marked.writtenAlike_of_equal h hfunctions ""

/-- A labelled number, given twice. -/
def labelled : Marked :=
  .record [("n", .int), ("label", .array .string ⟨0⟩)]
    [("n", .plain (.int 9)), ("label", .list .string ⟨0⟩ [.plain (.string "a")]),
      ("n", .plain (.int 1))]

/-- The same with the fields in another order, and returned. -/
def relabelled : Marked :=
  (Marked.record [("label", .array .string ⟨4⟩), ("n", .int)]
    [("label", .list .string ⟨4⟩ [(Marked.plain (.string "a")).asReturn]),
      ("n", .plain (.int 1))]).asReturn

theorem equal_partialEquivalence_labelled :
    labelled.equal relabelled = true ∧ relabelled.equal labelled = true ∧
    labelled.equal labelled = true ∧ labelled.equal relabelled.cleaned = true ∧
    (labelled.Everywhere fun inner => inner.value.ty.agrees inner.value.ty = true) ∧
    labelled.value.text = relabelled.value.text := by
  obtain ⟨hsymm, htrans, hmarks, hself, htext, -⟩ := equal_partialEquivalence
  have hequal : labelled.equal relabelled = true := by decide
  have hback := hsymm labelled relabelled hequal
  have hrefl := htrans labelled relabelled labelled hequal hback
  have hscalar : ∀ {v : Value}, v.isScalar = true →
      (Marked.plain v).Everywhere Marked.NotFunction := by
    intro v hv
    refine Marked.everywhere_of_parts_eq_nil ?_ ?_
    · cases v <;> first | rfl | cases hv
    · intro signature heq
      cases heq
      cases hv
  have hfunctions : labelled.Everywhere Marked.NotFunction := by
    refine Marked.everywhere_record (fun _ heq => Value.noConfusion heq) ?_
    refine List.forall_mem_cons.mpr ⟨hscalar rfl, List.forall_mem_cons.mpr ⟨?_, ?_⟩⟩
    · refine Marked.everywhere_list (fun _ heq => Value.noConfusion heq) ?_
      exact List.forall_mem_singleton.mpr (hscalar rfl)
    · exact List.forall_mem_singleton.mpr (hscalar rfl)
  refine ⟨hequal, hback, hrefl, ?_, (hself labelled).mp hrefl,
    htext labelled relabelled hequal hfunctions⟩
  rw [hmarks labelled labelled relabelled relabelled.cleaned rfl rfl]
  exact hequal

end Arbor

import Arbor.Proofs.Exact
import Arbor.Proofs.Heredity
import Arbor.Proofs.Marks
import Arbor.Typing

/-!
# Values of a type

A value conforms to a type when it may stand where the type is asked for.  The
type it carries itself need not be that type: elements and fields are only
looked at one by one, the length of a list is not compared at all, and functions
only have to agree.

Conformance is what survives agreement of types, so it is enough that the
checker compares types up to agreement (`Value.Conforms.of_agrees`).

The operations on values then either yield a value of the type that the checker
expects, or fail for a reason that no checker can exclude: an arithmetic failure
or an index out of range (`Fault.Excusable`).

* `Operator.apply_yields`, `Marked.Fits.element`, `Marked.Fits.field` —
  operators and access;
* `Marked.Fits.replaceAt` — replacing a slot;
* `Marked.fits_default` — default values.
-/

namespace Arbor

/-- No part of the type is unknown, and no record lists a field twice. -/
inductive Ty.Proper : Ty → Prop where
  | int : Proper .int
  | string : Proper .string
  | bool : Proper .bool
  | undefined : Proper .undefined
  | array {elem : Ty} {length : NodeId} (helem : Proper elem) : Proper (.array elem length)
  | record {fields : Entries Ty} (hnames : fields.names.Nodup)
    (hfields : ∀ field ∈ fields, Proper field.2) : Proper (.record fields)
  | function {params : Entries Ty} {result : Ty} {body : NodeId}
    (hparams : ∀ param ∈ params, Proper param.2) (hresult : Proper result) :
    Proper (.function params result body)

theorem Ty.Proper.isUnknown_eq_false {ty : Ty} (h : ty.Proper) : ty.isUnknown = false := by
  cases h <;> rfl

/-- The value may stand where the type is asked for. -/
inductive Value.Conforms : Value → Ty → Prop where
  | int (n : Int64) : Conforms (.int n) .int
  | string (s : String) : Conforms (.string s) .string
  | bool (b : Bool) : Conforms (.bool b) .bool
  | undefined : Conforms .undefined .undefined
  | list {elem elem' : Ty} {length length' : NodeId} {items : List Marked}
    (hitems : ∀ item ∈ items, Conforms item.value elem') :
    Conforms (.list elem length items) (.array elem' length')
  /-- The record has exactly the fields of the type. -/
  | record {shape shape' : Entries Ty} {fields : Entries Marked}
    (hnames : ∀ name, name ∈ fields.names ↔ name ∈ shape'.names)
    (hfields : ∀ field ∈ fields, ∀ ty, shape'.get? field.1 = some ty →
      Conforms field.2.value ty) :
    Conforms (.record shape fields) (.record shape')
  | function {signature signature' : Signature}
    (hagree : signature.ty.agrees signature'.ty = true) :
    Conforms (.function signature) signature'.ty

/-- Why a checked program may still fail: arithmetic, or an index or length out of range. -/
def Fault.Excusable (fault : Fault) : Prop :=
  fault.kind = .arithmetic ∨ fault.kind = .bounds

/-- A value of the type, without marks at any depth. -/
structure Marked.Fits (m : Marked) (ty : Ty) : Prop where
  conforms : m.value.Conforms ty
  clean : m.Everywhere (·.isClean = true)

/-- Records whose types agree have the same names. -/
theorem Ty.mem_names_of_agrees {fields fields' : Entries Ty}
    (h : (Ty.record fields).agrees (.record fields') = true) (name : String) :
    name ∈ fields.names ↔ name ∈ fields'.names := by
  obtain ⟨hto, hback⟩ := agrees_record_iff.mp h
  constructor
  · intro hname
    obtain ⟨field, hfield, rfl⟩ := List.mem_map.mp hname
    obtain ⟨other, hother, -⟩ := hto field hfield
    exact Entries.get?_isSome_iff.mp (hother ▸ rfl)
  · intro hname
    obtain ⟨field, hfield, rfl⟩ := List.mem_map.mp hname
    obtain ⟨other, hother, -⟩ := hback field hfield
    exact Entries.get?_isSome_iff.mp (hother ▸ rfl)

/-- **Conformance survives agreement.** -/
theorem Value.Conforms.of_agrees {v : Value} {ty other : Ty} (h : v.Conforms ty)
    (hagree : ty.agrees other = true) : v.Conforms other := by
  induction h generalizing other with
  | int n =>
    cases other <;> first | exact .int n | cases hagree
  | string s =>
    cases other <;> first | exact .string s | cases hagree
  | bool b =>
    cases other <;> first | exact .bool b | cases hagree
  | undefined =>
    cases other <;> first | exact .undefined | cases hagree
  | list _ ih =>
    cases other with
    | array elem length => exact .list fun item hitem => ih item hitem hagree
    | _ => cases hagree
  | record hnames _ ih =>
    cases other with
    | record shape =>
      refine .record (fun name => (hnames name).trans (Ty.mem_names_of_agrees hagree name)) ?_
      intro field hfield ty hty
      obtain ⟨-, hback⟩ := Ty.agrees_record_iff.mp hagree
      obtain ⟨ty', hty', hagree'⟩ := hback _ (Entries.mem_of_get?_eq_some hty)
      exact ih field hfield ty' hty' hagree'
    | _ => cases hagree
  | @function signature signature' hsignature =>
    cases other with
    | function params result body =>
      have hfunction : signature.ty.agrees (Signature.ty ⟨params, result, body⟩) = true :=
        Ty.agrees_trans hsignature hagree
      exact .function hfunction
    | _ => cases hagree

namespace Value.Conforms

variable {shape shape' : Entries Ty} {fields : Entries Marked} {name : String} {ty : Ty}

/-- An item may be replaced by any value of the element type. -/
theorem setItem {elem elem' : Ty} {length length' : NodeId} {items : List Marked}
    (h : Conforms (.list elem length items) (.array elem' length')) {item : Marked}
    (hitem : item.value.Conforms elem') (i : Nat) :
    Conforms (.list elem length (items.set i item)) (.array elem' length') := by
  cases h with
  | list hitems =>
    refine .list fun stored hstored => ?_
    rcases List.mem_or_eq_of_mem_set hstored with hold | heq
    · exact hitems stored hold
    · exact heq ▸ hitem

/-- Each field of the type is there, with a value of its type. -/
theorem exists_field (h : Conforms (.record shape fields) (.record shape'))
    (hty : shape'.get? name = some ty) :
    ∃ part, fields.get? name = some part ∧ part.value.Conforms ty := by
  cases h with
  | record hnames hfields =>
    have hname : name ∈ fields.names := (hnames name).mpr (Entries.get?_isSome_iff.mp (hty ▸ rfl))
    obtain ⟨part, hpart⟩ := Option.isSome_iff_exists.mp (Entries.get?_isSome_iff.mpr hname)
    exact ⟨part, hpart, hfields _ (Entries.mem_of_get?_eq_some hpart) ty hty⟩

/-- A field may be replaced by any value of its type. -/
theorem putField (h : Conforms (.record shape fields) (.record shape'))
    (hty : shape'.get? name = some ty) {part : Marked} (hpart : part.value.Conforms ty) :
    Conforms (.record shape (fields.put name part)) (.record shape') := by
  cases h with
  | record hnames hfields =>
    have hname : name ∈ fields.names := (hnames name).mpr (Entries.get?_isSome_iff.mp (hty ▸ rfl))
    refine .record (fun other => ?_) fun stored hstored ty' hty' => ?_
    · rw [Entries.mem_names_put, ← hnames other]
      exact or_iff_right_of_imp fun heq => heq ▸ hname
    · rcases Entries.mem_put hstored with heq | hkept
      · subst heq
        rw [hty, Option.some.injEq] at hty'
        exact hty' ▸ hpart
      · exact hfields stored hkept ty' hty'

end Value.Conforms

/-- The outcome has the property, or is an excusable fault. -/
def Yields {α : Type} (post : α → Prop) : Except Fault α → Prop
  | .ok a => post a
  | .error fault => fault.Excusable

namespace Marked

variable {m : Marked} {ty : Ty}

theorem Fits.of_agrees {other : Ty} (h : m.Fits ty) (hagree : ty.agrees other = true) :
    m.Fits other :=
  ⟨h.conforms.of_agrees hagree, h.clean⟩

theorem Fits.resolved (h : m.Fits ty) : m.unresolved = false :=
  (isClean_iff.mp h.clean.self).2

theorem Fits.not_returned (h : m.Fits ty) : m.returned = false :=
  (isClean_iff.mp h.clean.self).1

theorem fits_int (n : Int64) : (plain (.int n)).Fits .int :=
  ⟨.int n, everywhere_of_parts_eq_nil rfl rfl⟩

theorem fits_string (s : String) : (plain (.string s)).Fits .string :=
  ⟨.string s, everywhere_of_parts_eq_nil rfl rfl⟩

theorem fits_bool (b : Bool) : (plain (.bool b)).Fits .bool :=
  ⟨.bool b, everywhere_of_parts_eq_nil rfl rfl⟩

theorem fits_undefined : undefined.Fits .undefined :=
  ⟨.undefined, everywhere_of_parts_eq_nil rfl rfl⟩

/-- A list of fitting elements fits every array type with this element type. -/
theorem fits_list {elem elem' : Ty} {length length' : NodeId} {items : List Marked}
    (h : ∀ item ∈ items, item.cleaned.Fits elem') :
    (list elem length items).Fits (.array elem' length') := by
  refine ⟨.list fun item hitem => ?_, everywhere_list rfl fun item hitem => (h item hitem).clean⟩
  obtain ⟨given, hgiven, rfl⟩ := List.mem_map.mp hitem
  exact (h given hgiven).conforms

/-- A record of the names of its type, each with a value that fits a field of this name. -/
theorem fits_record {shape : Entries Ty} {fields : Entries Marked}
    (hnodup : shape.names.Nodup) (hnames : fields.names = shape.names)
    (h : ∀ value ∈ fields, ∃ field ∈ shape, field.1 = value.1 ∧ value.2.cleaned.Fits field.2) :
    (record shape fields).Fits (.record shape) := by
  refine ⟨.record (fun name => ?_) fun stored hstored ty hty => ?_,
    everywhere_record rfl fun value hvalue => ?_⟩
  · rw [Entries.mem_names_putAll, ← hnames]
    simp [Entries.names]
  · rcases Entries.mem_putAll hstored with hgiven | hnil
    · obtain ⟨value, hvalue, rfl⟩ := List.mem_map.mp hgiven
      obtain ⟨field, hfield, hname, hfits⟩ := h value hvalue
      have hfound := Entries.get?_eq_some_of_mem hnodup hfield
      rw [hname] at hfound
      rw [hfound] at hty
      cases hty
      exact hfits.conforms
    · cases hnil
  · obtain ⟨field, -, -, hfits⟩ := h value hvalue
    exact hfits.clean

theorem Fits.cleaned (h : m.Fits ty) : m.cleaned.Fits ty :=
  ⟨h.conforms, (hereditary_isClean default).everywhere_cleaned h.clean⟩

end Marked

/-! ### Operators -/

theorem excusable_of_isArithmetic {error : OperatorError} (h : error.isArithmetic = true) :
    (Fault.operator error).Excusable := by
  rw [Fault.Excusable, Fault.kind, if_pos h]
  exact .inl rfl

/-- The outcome of an operator as the outcome of a node. -/
abbrev OperatorOutcome (computed : Except OperatorError Value) : Except Fault Marked :=
  (computed.map .plain).mapError .operator

theorem Operator.applyInt_yields {op : Operator} (a b : Int64)
    (hdefined : Typing.isDefinedFor op .int = true) :
    Yields (fun m => m.Fits (if op = .eq then .bool else .int))
      (OperatorOutcome (op.applyInt a b)) := by
  by_cases hop : op.isArithmetic = true
  · have heq : op ≠ .eq := by
      rintro rfl
      cases hop
    rw [if_neg heq]
    obtain ⟨w, happly⟩ | ⟨error, happly, herror⟩ := (applyInt_outcome hop a b).word_or_arithmetic
    · rw [happly]
      exact Marked.fits_int w
    · rw [happly]
      exact excusable_of_isArithmetic herror
  · cases op with
    | eq => exact Marked.fits_bool _
    | and => cases hdefined
    | or => cases hdefined
    | _ => exact absurd rfl hop

/-- Defined operators yield a value of the right type, or fail in arithmetic. -/
theorem Operator.apply_yields {op : Operator} {left right : Value} {ty other : Ty}
    (hleft : left.Conforms ty) (hright : right.Conforms other)
    (hagree : ty.agrees other = true) (hdefined : Typing.isDefinedFor op ty.kind = true) :
    Yields (fun m => m.Fits (if op = .eq then .bool else ty))
      (OperatorOutcome (op.apply left right)) := by
  have hright := hright.of_agrees (Ty.agrees_symm hagree)
  cases hleft with
  | int a =>
    cases hright with
    | int b => exact applyInt_yields a b hdefined
  | string a =>
    cases hright with
    | string b => cases op <;> first | exact Marked.fits_string _ | exact Marked.fits_bool _ |
        cases hdefined
  | bool a =>
    cases hright with
    | bool b => cases op <;> first | exact Marked.fits_bool _ | cases hdefined
  | undefined => cases hdefined
  | list => cases hdefined
  | record => cases hdefined
  | function => cases hdefined

/-- The negation of a boolean. -/
theorem Operator.applyNot_yields {operand : Value} (h : operand.Conforms .bool) :
    Yields (fun m => m.Fits .bool) (OperatorOutcome (applyNot operand)) := by
  cases h with
  | bool b => exact Marked.fits_bool _

/-! ### Access -/

namespace Marked.Fits

open Eval

variable {m index part : Marked} {elem : Ty} {length : NodeId} {shape : Entries Ty}

/-- The element of an array is one of the element type, or the index is out of range. -/
theorem element (h : m.Fits (.array elem length)) (hindex : index.Fits .int) :
    Yields (fun part => part.Fits elem) (Eval.element m.value index.value) := by
  obtain ⟨v, returned, unresolved⟩ := m
  obtain ⟨hconforms, hclean⟩ := h
  cases hconforms with
  | @list elem' _ length' _ items hitems =>
    cases hn : index.value with
    | int n =>
      cases hitem : (position? n items.length).bind (items[·]?) with
      | none =>
        simp only [Eval.element, Value.items?, Value.int?, hitem]
        exact .inr rfl
      | some item =>
        obtain ⟨i, -, hi⟩ := Option.bind_eq_some_iff.mp hitem
        have hmem := List.mem_of_getElem? hi
        simp only [Eval.element, Value.items?, Value.int?, hitem]
        exact ⟨hitems item hmem, hclean.part hmem⟩
    | _ =>
      have hint := hindex.conforms
      rw [hn] at hint
      cases hint

/-- A field of the type is found, and is of its type. -/
theorem field {name : String} {ty : Ty} (h : m.Fits (.record shape))
    (hty : shape.get? name = some ty) :
    ∃ part, Eval.field m.value name = .ok part ∧ part.Fits ty := by
  obtain ⟨v, returned, unresolved⟩ := m
  obtain ⟨hconforms, hclean⟩ := h
  cases hconforms with
  | @record shape' _ fields hnames hfields =>
    have hrecord : Value.Conforms (.record shape' fields) (.record shape) := .record hnames hfields
    obtain ⟨part, hpart, hty'⟩ := hrecord.exists_field hty
    have hmem := Entries.mem_of_get?_eq_some hpart
    exact ⟨part, field_eq_ok_iff.mpr ⟨shape', fields, rfl, hpart⟩, hty', hclean.field rfl hmem⟩

end Marked.Fits

/-! ### Replacing a slot -/

/-- The type of the slot that a step leads to. -/
def Ty.step? (ty : Ty) : Eval.Step → Option Ty
  | .index _ _ =>
    match ty with
    | .array elem _ => some elem
    | _ => none
  | .field name _ => ty.field? name

/-- The type of the slot that steps lead to. -/
def Ty.slot? (ty : Ty) (steps : List Eval.Step) : Option Ty :=
  steps.foldlM step? ty

theorem Ty.slot?_cons {ty slot : Ty} {step : Eval.Step} {rest : List Eval.Step} :
    ty.slot? (step :: rest) = some slot ↔
      ∃ middle, ty.step? step = some middle ∧ middle.slot? rest = some slot := by
  rw [slot?, List.foldlM_cons, Option.bind_eq_bind, Option.bind_eq_some_iff]
  rfl

theorem Ty.slot?_concat {ty middle : Ty} {steps : List Eval.Step} {step : Eval.Step}
    (h : ty.slot? steps = some middle) : ty.slot? (steps ++ [step]) = middle.step? step := by
  rw [slot?, List.foldlM_append, ← slot?, h]
  simp

theorem Ty.step?_index_eq_some_iff {ty slot : Ty} {n : Int64} {node : NodeId} :
    ty.step? (.index n node) = some slot ↔ ∃ length, ty = .array slot length := by
  cases ty <;> simp [step?]

theorem Ty.step?_field_eq_some_iff {ty slot : Ty} {name : String} {node : NodeId} :
    ty.step? (.field name node) = some slot ↔
      ∃ shape, ty = .record shape ∧ Entries.get? name shape = some slot := by
  cases ty <;> simp [step?, field?]

/-- Replacing a slot by a value of its type keeps the type of the whole, unless an index is out
of range. -/
theorem Eval.replaceAt_conforms {new : Marked} {slot : Ty} (hnew : new.value.Conforms slot)
    {steps : List Step} {m : Marked} {ty : Ty} (h : m.value.Conforms ty)
    (hslot : ty.slot? steps = some slot) :
    (∃ m', replaceAt new steps m = .ok m' ∧ m'.value.Conforms ty) ∨
      ∃ fault, replaceAt new steps m = .error fault ∧ fault.cause.Excusable := by
  induction steps generalizing m ty with
  | nil =>
    cases hslot
    exact .inl ⟨new, rfl, hnew⟩
  | cons step rest ih =>
    obtain ⟨middle, hstep, hrest⟩ := Ty.slot?_cons.mp hslot
    obtain ⟨v, returned, unresolved⟩ := m
    cases step with
    | index n node =>
      obtain ⟨length, rfl⟩ := Ty.step?_index_eq_some_iff.mp hstep
      cases h with
      | @list elem _ length' _ items hitems =>
        cases hi : position? n items.length with
        | none => exact .inr ⟨_, by simp only [replaceAt, hi]; rfl, .inr rfl⟩
        | some i =>
          have hlt : i < items.length := (position?_eq_some_iff.mp hi).2
          obtain ⟨item, hitem⟩ : ∃ item, items[i]? = some item := ⟨_, List.getElem?_eq_getElem hlt⟩
          rcases ih (hitems item (List.mem_of_getElem? hitem)) hrest with
            ⟨item', hok, hitem'⟩ | ⟨fault, herror, hfault⟩
          · refine .inl ⟨_, replaceAt_index_eq_ok_iff.mpr
              ⟨elem, length', items, i, item, item', rfl, hi, hitem, hok, rfl⟩, ?_⟩
            exact Value.Conforms.setItem (.list hitems) hitem' i
          · refine .inr ⟨fault, ?_, hfault⟩
            simp [replaceAt, hi, hitem, herror, bind, Except.bind]
    | field name node =>
      obtain ⟨shape, rfl, hty⟩ := Ty.step?_field_eq_some_iff.mp hstep
      cases h with
      | @record shape' _ fields hnames hfields =>
        have hrecord : Value.Conforms (.record shape' fields) (.record shape) :=
          .record hnames hfields
        obtain ⟨old, hold, hconforms⟩ := hrecord.exists_field hty
        rcases ih hconforms hrest with ⟨old', hok, hold'⟩ | ⟨fault, herror, hfault⟩
        · refine .inl ⟨_, replaceAt_field_eq_ok_iff.mpr
            ⟨shape', fields, old, old', rfl, hold, hok, rfl⟩, ?_⟩
          exact hrecord.putField hty hold'
        · refine .inr ⟨fault, ?_, hfault⟩
          simp [replaceAt, hold, herror, bind, Except.bind]

/-- The same for values without marks. -/
theorem Marked.Fits.replaceAt {m new : Marked} {ty slot : Ty} {steps : List Eval.Step}
    (h : m.Fits ty) (hslot : ty.slot? steps = some slot) (hnew : new.Fits slot) :
    (∃ m', Eval.replaceAt new steps m = .ok m' ∧ m'.Fits ty) ∨
      ∃ fault, Eval.replaceAt new steps m = .error fault ∧ fault.cause.Excusable := by
  apply (Eval.replaceAt_conforms hnew.conforms h.conforms hslot).imp_left
  intro h
  obtain ⟨m', hok, hconforms⟩ := h
  exact ⟨m', hok, hconforms,
    Eval.replaceAt_everywhere (hereditary_isClean default) hnew.clean h.clean hok⟩

/-! ### Default values -/

/-- The default value of a proper type is of this type. -/
theorem Marked.fits_default {program : Program} {fuel : Nat} {ty : Ty} {zero : Marked}
    (hty : ty.Proper)
    (h : (defaultValue (staticLength (eval program fuel)) ty).run = some (.ok zero)) :
    zero.Fits ty := by
  induction ty using Ty.induct generalizing zero with
  | int =>
    cases h
    exact fits_int 0
  | string =>
    cases h
    exact fits_string ""
  | bool =>
    cases h
    exact fits_bool false
  | undefined =>
    cases h
    exact fits_undefined
  | unknown => cases h
  | function => cases h
  | array elem length ih =>
    cases hty with
    | array helem =>
      obtain ⟨n, items, hn, hitems, rfl⟩ := defaultValue_array_eq_ok_iff.mp h
      obtain ⟨-, hcopies⟩ := defaultItems_eq_ok hitems
      exact fits_list fun item hitem => (ih helem (hcopies item hitem)).cleaned
  | record fields ih =>
    cases hty with
    | record hnames hfields =>
      obtain ⟨values, hvalues, rfl⟩ := defaultValue_record_eq_ok_iff.mp h
      have hzeros := defaultFields_eq_ok_iff.mp hvalues
      apply fits_record hnames (Entries.names_eq_of_forall₂ hzeros fun _ _ hrel => hrel.1)
      intro value hvalue
      obtain ⟨field, hfield, hname, hzero⟩ := exists_of_mem_right hzeros hvalue
      exact ⟨field, hfield, hname, (ih field hfield (hfields field hfield) hzero).cleaned⟩

theorem HasDefault.fits {program : Program} {ty : Ty} {zero : Marked}
    (h : HasDefault program ty zero) (hty : ty.Proper) : zero.Fits ty := by
  obtain ⟨fuel, h⟩ := h
  exact Marked.fits_default hty h

end Arbor

import Arbor.Proofs.Omitted

/-!
# How record literals are filled

A record literal fills the fields of its type in declaration order: each from the first
initializer that names it, or else with its default.  A field that has neither is
undefined, and an internal fault is recorded at the literal.  No other initializer is
evaluated.  One that repeats a name, or gives a name that the type does not have, does
nothing, even if its value would run forever.

* `FillsField`, `Fills` — what one field is filled with, and all of them in turn;
* `recordLiteral_congr` — the literal asks for its first initializers, and for the lengths
  in the types of the fields it leaves out;
* `evaluates_recordLiteral_iff` — a literal does what filling its fields does;
* `record_literal_filled` — so it is the record of what its fields are filled with.
-/

namespace Arbor

open Eval Filter

/-! ### Initializers of a field -/

section Initializers

variable {inits : List FieldInit} {name : String}

/-- No initializer names the field. -/
def Omits (inits : List FieldInit) (name : String) : Prop :=
  ∀ init ∈ inits, init.name ≠ name

/-- No initializer before this one names the field. -/
def FirstInit (inits : List FieldInit) (name : String) (init : FieldInit) : Prop :=
  init.name = name ∧ ∃ before after, inits = before ++ init :: after ∧ Omits before name

theorem find?_eq_some_iff_firstInit {init : FieldInit} :
    inits.find? (·.name == name) = some init ↔ FirstInit inits name init := by
  simp [List.find?_eq_some_iff_append, FirstInit, Omits]

theorem find?_eq_none_iff_omits : inits.find? (·.name == name) = none ↔ Omits inits name := by
  simp [Omits]

end Initializers

/-! ### Filling the fields -/

section Fills

variable (program : Program) (frame : Frame) (id : NodeId) (inits : List FieldInit)

/-- One field is filled: from its first initializer, or with its default, or with undefined and a
fault at the literal. -/
inductive FillsField (name : String) (ty : Ty) (state : State) : Marked → State → Prop where
  | initialized {init : FieldInit} {m : Marked} {final : State}
    (hinit : FirstInit inits name init)
    (hvalue : Evaluates program frame init.value state m final) :
    FillsField name ty state m.cleaned final
  | defaulted {zero : Marked} (homitted : Omits inits name) (hzero : HasDefault program ty zero) :
    FillsField name ty state zero state
  | lacking {cause : DefaultFault} (homitted : Omits inits name)
    (hlacks : LacksDefault program ty cause) :
    FillsField name ty state .undefined (state.record ⟨.fieldDefault name ty cause, id⟩)

/-- The fields are filled one after the other, each in the state that the last one left. -/
inductive Fills : Entries Ty → State → Entries Marked → State → Prop where
  | nil {state : State} : Fills [] state [] state
  | cons {name : String} {ty : Ty} {rest : Entries Ty} {state middle final : State}
    {value : Marked} {values : Entries Marked}
    (hfield : FillsField program frame id inits name ty state value middle)
    (hrest : Fills rest middle values final) :
    Fills ((name, ty) :: rest) state ((name, value) :: values) final

variable {program frame id inits} {fields : Entries Ty} {state final : State}
  {values : Entries Marked}

/-- The fields that are filled are those of the type. -/
theorem Fills.names_eq (h : Fills program frame id inits fields state values final) :
    values.names = fields.names := by
  induction h with
  | nil => rfl
  | cons _ _ ih => exact congrArg (_ :: ·) ih

/-- A default bears no marks. -/
theorem HasDefault.cleaned_eq {ty : Ty} {zero : Marked} (h : HasDefault program ty zero) :
    zero.cleaned = zero := by
  obtain ⟨fuel, h⟩ := h
  obtain ⟨v, rfl, -⟩ := isZero_of_defaultValue h
  rfl

/-! ### What the evaluator does -/

/-- What is evaluated still has its marks, which the record does not keep. -/
theorem FillsField.of_eval {name : String} {ty : Ty} {m : Marked} {fuel : Nat}
    (h : literalField (eval program fuel) frame id inits name ty state = some (m, final)) :
    FillsField program frame id inits name ty state m.cleaned final := by
  rcases hfind : inits.find? (·.name == name) with _ | init
  · have homitted : Omits inits name := find?_eq_none_iff_omits.mp hfind
    rw [literalField_of_omitted hfind] at h
    obtain ⟨outcome, middle, houtcome, hrest⟩ := Run.bind_eq_some_iff.mp h
    obtain ⟨outcome, hsizing, ⟨⟩⟩ := Option.map_eq_some_iff.mp houtcome
    rcases outcome with cause | zero
    · cases hrest
      exact .lacking homitted ⟨fuel, hsizing⟩
    · cases hrest
      have hzero : HasDefault program ty m := ⟨fuel, hsizing⟩
      rw [hzero.cleaned_eq]
      exact .defaulted homitted hzero
  · rw [literalField, hfind] at h
    exact .initialized (find?_eq_some_iff_firstInit.mp hfind) ⟨fuel, h⟩

theorem FillsField.eventually {name : String} {ty : Ty} {value : Marked}
    (h : FillsField program frame id inits name ty state value final) :
    ∃ m : Marked, m.cleaned = value ∧ ∀ᶠ fuel in atTop,
      literalField (eval program fuel) frame id inits name ty state = some (m, final) := by
  cases h with
  | @initialized init m _ hinit hvalue =>
    refine ⟨m, rfl, ?_⟩
    filter_upwards [evaluates_iff_eventually.mp hvalue] with fuel hvalue
    rw [literalField, find?_eq_some_iff_firstInit.mpr hinit]
    exact hvalue
  | defaulted homitted hzero =>
    refine ⟨value, hzero.cleaned_eq, ?_⟩
    filter_upwards [hzero.eventually] with fuel hzero
    rw [literalField_of_omitted (find?_eq_none_iff_omits.mpr homitted), defaultOr_of_ok hzero,
      Run.pure_apply]
  | lacking homitted hlacks =>
    refine ⟨.undefined, rfl, ?_⟩
    filter_upwards [defaultValue_eventually hlacks] with fuel hlacks
    rw [literalField_of_omitted (find?_eq_none_iff_omits.mpr homitted),
      defaultOr_of_error hlacks, Run.fail_apply]

/-- All fields of a literal, under their names. -/
def Eval.literalFields (ev : Evaluator) (frame : Frame) (id : NodeId) (inits : List FieldInit)
    (fields : Entries Ty) : Run (Entries Marked) :=
  fields.mapM fun field => do
    let value ← literalField ev frame id inits field.1 field.2
    pure (field.1, value)

theorem Eval.recordLiteral_eq (ev : Evaluator) (frame : Frame) (id : NodeId)
    (fields : Entries Ty) (inits : List FieldInit) :
    recordLiteral ev frame id fields inits =
      literalFields ev frame id inits fields >>= fun raw => pure (.record fields raw) := rfl

theorem Eval.literalFields_cons_eq_some_iff {ev : Evaluator} {name : String} {ty : Ty}
    {raw : Entries Marked} :
    literalFields ev frame id inits ((name, ty) :: fields) state = some (raw, final) ↔
      ∃ m middle rest, literalField ev frame id inits name ty state = some (m, middle) ∧
        literalFields ev frame id inits fields middle = some (rest, final) ∧
        (name, m) :: rest = raw := by
  have hcons : literalFields ev frame id inits ((name, ty) :: fields) =
      literalField ev frame id inits name ty >>= fun m =>
        literalFields ev frame id inits fields >>= fun rest => pure ((name, m) :: rest) := by
    rw [literalFields, List.mapM_cons, bind_assoc]
    rfl
  simp only [hcons, Run.bind_eq_some_iff, Run.pure_apply, Option.some.injEq, Prod.mk.injEq]
  constructor
  · intro h
    obtain ⟨m, middle, hfield, rest, _, hrest, hraw, rfl⟩ := h
    exact ⟨m, middle, rest, hfield, hrest, hraw⟩
  · intro h
    obtain ⟨m, middle, rest, hfield, hrest, hraw⟩ := h
    exact ⟨m, middle, hfield, rest, final, hrest, hraw, rfl⟩

/-- The entries with their marks removed. -/
def Entries.cleaned (raw : Entries Marked) : Entries Marked :=
  raw.map fun field => (field.1, field.2.cleaned)

theorem Fills.of_eval {raw : Entries Marked} {fuel : Nat}
    (h : literalFields (eval program fuel) frame id inits fields state = some (raw, final)) :
    Fills program frame id inits fields state raw.cleaned final := by
  induction fields generalizing state raw with
  | nil =>
    cases h
    exact .nil
  | cons field rest ih =>
    obtain ⟨m, middle, raws, hfield, hrest, rfl⟩ := literalFields_cons_eq_some_iff.mp h
    exact .cons (.of_eval hfield) (ih hrest)

theorem Fills.eventually (h : Fills program frame id inits fields state values final) :
    ∃ raw : Entries Marked, raw.cleaned = values ∧ ∀ᶠ fuel in atTop,
      literalFields (eval program fuel) frame id inits fields state = some (raw, final) := by
  induction h with
  | nil => exact ⟨[], rfl, .of_forall fun fuel => rfl⟩
  | @cons name _ _ _ _ _ _ _ hfills _ ih =>
    obtain ⟨m, rfl, hfield⟩ := hfills.eventually
    obtain ⟨raw, rfl, hrest⟩ := ih
    refine ⟨(name, m) :: raw, rfl, ?_⟩
    filter_upwards [hfield, hrest] with fuel hfield hrest
    exact literalFields_cons_eq_some_iff.mpr ⟨m, _, raw, hfield, hrest, rfl⟩

/-- A literal does what filling its fields does. -/
theorem evaluates_recordLiteral_iff {span : Span FieldInit} {m : Marked}
    (hnode : program.node? id = some (.recordLiteral fields span)) :
    Evaluates program frame id state m final ↔
      ∃ values, Fills program frame id (program.fieldInits span) fields state values final ∧
        m = .plain (.ofFields fields values) := by
  have hrule : ∀ fuel, Eval.rule program (eval program fuel) fuel frame id =
      literalFields (eval program fuel) frame id (program.fieldInits span) fields >>= fun raw =>
        pure (.record fields raw) := fun fuel => Eval.rule_recordLiteral hnode _ fuel frame
  rw [evaluates_iff_rule]
  constructor
  · intro h
    obtain ⟨fuel, h⟩ := h.exists
    rw [hrule] at h
    obtain ⟨raw, _, hfields, hrecord⟩ := Run.bind_eq_some_iff.mp h
    cases hrecord
    exact ⟨raw.cleaned, .of_eval hfields, rfl⟩
  · intro h
    obtain ⟨values, hfills, rfl⟩ := h
    obtain ⟨raw, rfl, hfields⟩ := hfills.eventually
    filter_upwards [hfields] with fuel hfields
    rw [hrule]
    exact Run.bind_eq_some_iff.mpr ⟨raw, final, hfields, rfl⟩

theorem Run.mapM_congr {α β : Type} {run run' : α → Run β} {members : List α}
    (h : ∀ a ∈ members, run a = run' a) : members.mapM run = members.mapM run' := by
  induction members with
  | nil => rfl
  | cons a rest ih =>
    obtain ⟨ha, hrest⟩ := List.forall_mem_cons.mp h
    rw [List.mapM_cons, List.mapM_cons, ha, ih hrest]

/-- A literal asks its evaluator for the first initializers of its fields, and for the lengths in
the types of the fields that it leaves out, and for nothing else. -/
theorem recordLiteral_congr {ev ev' : Evaluator}
    (hinits : ∀ name ∈ fields.names, ∀ init, FirstInit inits name init →
      ev frame init.value = ev' frame init.value)
    (hlengths : ∀ field ∈ fields, Omits inits field.1 → ∀ length ∈ field.2.lengths,
      ev {} length {} = ev' {} length {}) :
    recordLiteral ev frame id fields inits = recordLiteral ev' frame id fields inits := by
  have hfield : ∀ field ∈ fields, literalField ev frame id inits field.1 field.2 =
      literalField ev' frame id inits field.1 field.2 := by
    intro field hfield
    rcases hfind : inits.find? (·.name == field.1) with _ | init
    · have hzero : Sizing.Agree True (defaultValue (staticLength ev) field.2)
          (defaultValue (staticLength ev') field.2) := by
        apply defaultValue_agree
        intro length hlength
        have hnothing := hlengths field hfield (find?_eq_none_iff_omits.mp hfind) length hlength
        exact ⟨by rw [staticLength, staticLength, hnothing], .inl trivial⟩
      rw [literalField_of_omitted hfind, literalField_of_omitted hfind, hzero.1]
    · rw [literalField, literalField, hfind]
      exact hinits field.1 (List.mem_map_of_mem hfield) init (find?_eq_some_iff_firstInit.mp hfind)
  have hfields : literalFields ev frame id inits fields =
      literalFields ev' frame id inits fields :=
    Run.mapM_congr fun field hmem => by rw [hfield field hmem]
  rw [recordLiteral_eq, recordLiteral_eq, hfields]

/-! ### The record -/

/-- The map with these entries; of two with one name the later wins. -/
def NameMap.ofEntries {α : Type} (entries : Entries α) : NameMap α :=
  ⟨entries.putAll [], Ascending.nil.putAll entries⟩

/-- Where no name is listed twice, the map holds just what is listed. -/
theorem NameMap.get?_ofEntries {α : Type} {entries : Entries α} (h : entries.names.Nodup)
    (name : String) : (ofEntries entries).get? name = entries.get? name := by
  rw [NameMap.get?, ofEntries, Entries.get?_putAll, Entries.get?_nil, Option.or_none]
  exact Entries.get?_eq_of_perm entries.reverse_perm h name

/-- **A record literal is filled from its first initializers and with defaults.**  Its outcome is
a record of exactly the fields of its type, filled in declaration order (`Fills`).  A fault for a
field that has no default is internal.  Nothing else is evaluated: evaluators that do the same at
the first initializers of the fields, and at the lengths that defaults need, do the same with the
literal. -/
theorem record_literal_filled {span : Span FieldInit}
    (hnode : program.node? id = some (.recordLiteral fields span)) (hnodup : fields.names.Nodup)
    (frame : Frame) (state : State) :
    (∀ m final, Evaluates program frame id state m final ↔
      ∃ (values : Entries Marked) (content : NameMap Marked),
        Fills program frame id (program.fieldInits span) fields state values final ∧
        values.names = fields.names ∧ (∀ name, content.get? name = values.get? name) ∧
        m = .plain (.record fields content.entries)) ∧
    (∀ name ty cause, (Fault.fieldDefault name ty cause).kind = .internal) ∧
    ∀ (ev ev' : Evaluator) (fuel : Nat),
      (∀ name ∈ fields.names, ∀ init, FirstInit (program.fieldInits span) name init →
        ev frame init.value = ev' frame init.value) →
      (∀ field ∈ fields, Omits (program.fieldInits span) field.1 →
        ∀ length ∈ field.2.lengths, ev {} length {} = ev' {} length {}) →
      rule program ev fuel frame id = rule program ev' fuel frame id := by
  refine ⟨fun m final => ?_, fun name ty cause => rfl, fun ev ev' fuel hinits hlengths => ?_⟩
  · rw [evaluates_recordLiteral_iff hnode]
    constructor
    · intro h
      obtain ⟨values, hfills, rfl⟩ := h
      have hvalues : values.names.Nodup := hfills.names_eq ▸ hnodup
      exact ⟨values, .ofEntries values, hfills, hfills.names_eq,
        NameMap.get?_ofEntries hvalues, rfl⟩
    · intro h
      obtain ⟨values, content, hfills, hnames, hcontent, rfl⟩ := h
      have hvalues : values.names.Nodup := hnames ▸ hnodup
      obtain rfl : content = .ofEntries values := NameMap.ext_get? fun name =>
        (hcontent name).trans (NameMap.get?_ofEntries hvalues name).symm
      exact ⟨values, hfills, rfl⟩
  · rw [Eval.rule_recordLiteral hnode, Eval.rule_recordLiteral hnode]
    exact recordLiteral_congr hinits hlengths

/-- The type of the literal below. -/
def fillingFields : Entries Ty :=
  [("a", .int), ("f", .function [] .int ⟨1⟩), ("c", .int), ("d", .bool)]

/-- `{c: x, z: (x = 1), a: (if x = 1; true {7}), a: ..}`: initializers out of order, one for no
field, and a second one for `a` that runs forever. -/
def fillingProgram : Program where
  nodes := #[.var "x" .int, .int 1, .assign ⟨0⟩ ⟨1⟩ true, .int 7, .bool true,
    .cond (some ⟨2⟩) ⟨4⟩ ⟨3⟩ none, .recordLiteral fillingFields ⟨0, 4⟩, .ret ⟨7⟩]
  initCells := #[⟨"c", ⟨0⟩⟩, ⟨"z", ⟨2⟩⟩, ⟨"a", ⟨5⟩⟩, ⟨"a", ⟨7⟩⟩]

theorem eval_fillingProgram_forever (fuel : Nat) (state : State) :
    eval fillingProgram fuel {} ⟨7⟩ state = none := by
  induction fuel with
  | zero => rfl
  | succ fuel ih =>
    have hrule : Eval.rule fillingProgram (eval fillingProgram fuel) fuel {} ⟨7⟩ =
        eval fillingProgram fuel {} ⟨7⟩ >>= fun m => pure m.cleaned.asReturn := rfl
    rw [eval_succ, hrule, Run.bind_apply, ih]
    rfl

/-- The field `a` is filled first and declares what `c` reads.  There is no default function.  An
evaluator that knows neither the assignment for `z` nor the second `a` does as well. -/
theorem record_literal_filled_fillingProgram :
    (∀ m final, ¬ Evaluates fillingProgram {} ⟨7⟩ {} m final) ∧
    (∃ (content : NameMap Marked) (final : State),
      Evaluates fillingProgram {} ⟨6⟩ {} (.plain (.record fillingFields content.entries)) final ∧
      content.get? "a" = some (.plain (.int 7)) ∧ content.get? "f" = some .undefined ∧
      content.get? "c" = some (.plain (.int 1)) ∧ content.get? "d" = some (.plain (.bool false)) ∧
      ∀ fault ∈ final.faults, fault.node = ⟨6⟩ ∧ fault.cause.kind = .internal) ∧
    ∀ (ev : Evaluator) (fuel : Nat),
      rule fillingProgram (fun frame id => if id = ⟨2⟩ ∨ id = ⟨7⟩ then Run.outOfFuel
        else ev frame id) fuel {} ⟨6⟩ = rule fillingProgram ev fuel {} ⟨6⟩ := by
  have hnode : fillingProgram.node? ⟨6⟩ = some (.recordLiteral fillingFields ⟨0, 4⟩) := rfl
  have hnodup : fillingFields.names.Nodup := by decide
  obtain ⟨hends, hkind, hcongr⟩ := record_literal_filled hnode hnodup {} {}
  let declared : State := { locals := .ofPairs [("x", .plain (.int 1))] }
  let reported : State :=
    declared.record ⟨.fieldDefault "f" (.function [] .int ⟨1⟩) (.noDefault .function), ⟨6⟩⟩
  refine ⟨fun m final h => ?_, ?_, ?_⟩
  · obtain ⟨fuel, h⟩ := h
    cases (eval_fillingProgram_forever fuel {}).symm.trans h
  · have ha : FillsField fillingProgram {} ⟨6⟩ (fillingProgram.fieldInits ⟨0, 4⟩) "a" .int {}
        (Marked.plain (.int 7)).cleaned declared :=
      .initialized (find?_eq_some_iff_firstInit.mp rfl) ⟨3, rfl⟩
    have hc : FillsField fillingProgram {} ⟨6⟩ (fillingProgram.fieldInits ⟨0, 4⟩) "c" .int reported
        (Marked.plain (.int 1)).cleaned reported :=
      .initialized (find?_eq_some_iff_firstInit.mp rfl) ⟨1, rfl⟩
    have hfills : Fills fillingProgram {} ⟨6⟩ (fillingProgram.fieldInits ⟨0, 4⟩) fillingFields {}
        [("a", .plain (.int 7)), ("f", .undefined), ("c", .plain (.int 1)),
          ("d", .plain (.bool false))] reported :=
      .cons ha <| .cons (.lacking (find?_eq_none_iff_omits.mp rfl) ⟨0, rfl⟩) <| .cons hc <|
        .cons (.defaulted (find?_eq_none_iff_omits.mp rfl) ⟨0, rfl⟩) .nil
    have hvalues : Entries.names _ = fillingFields.names := hfills.names_eq
    have hcontent := NameMap.get?_ofEntries (hvalues.symm ▸ hnodup)
    refine ⟨.ofEntries _, reported, (hends _ _).mpr ⟨_, _, hfills, hvalues, hcontent, rfl⟩,
      hcontent "a", hcontent "f", hcontent "c", hcontent "d", ?_⟩
    intro fault hfault
    obtain rfl := List.mem_singleton.mp (Array.mem_def.mp hfault)
    exact ⟨rfl, hkind _ _ _⟩
  · intro ev fuel
    refine hcongr _ _ fuel ?_ ?_
    · intro name hname init hinit
      have hfind := find?_eq_some_iff_firstInit.mpr hinit
      have hnames : name = "a" ∨ name = "f" ∨ name = "c" ∨ name = "d" := by
        simpa [fillingFields, Entries.names] using hname
      rcases hnames with rfl | rfl | rfl | rfl <;> cases hfind <;> rfl
    · intro field hfield homitted length hlength
      have hnone : ∀ field ∈ fillingFields, field.2.lengths = [] := by
        simp [fillingFields, Ty.lengths]
      rw [hnone field hfield] at hlength
      cases hlength

end Fills

end Arbor

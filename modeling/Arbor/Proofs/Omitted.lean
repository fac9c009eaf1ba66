import Arbor.Proofs.Zero

/-!
# What literals leave out

An array literal without elements, and each field that a record literal does not
initialize, takes the default value of its type.  While a default is computed, the
first failure is the result.  A literal goes on instead: it records the failure as a
fault and has undefined in place of the default.

A run of this kind `Realizes` the computation of the default: it yields what is
computed, in a state that it leaves as it was, unless the computation fails, and
then it records faults.

* `Program.EmptyLiteral.realizes` — a literal that leaves out everything realizes the
  default of its type;
* `empty_literal_default` — so it does what the default of its type says;
* `oversized_default_reported` — what literals report if a default is too large, be
  something initialized or not: arrays and records differ in this.
-/

namespace Arbor

open Filter

/-! ### Runs that go on where a computation fails -/

section Realizes

variable {α β : Type} {state : State}

/-- The run yields what is computed and leaves the state, or records faults for a failure. -/
structure Run.Realizes (run : Run α) (computed : Sizing α) : Prop where
  of_ok : ∀ {a : α}, computed.run = some (.ok a) → ∀ state, run state = some (a, state)
  ensures : ∀ state, run.Ensures state fun a final => ∃ faults, final = state.recordAll faults ∧
    ((faults = [] ∧ computed.run = some (.ok a)) ∨
      (faults ≠ [] ∧ ∃ cause, computed.run = some (.error cause)))

namespace Run

theorem realizes_pure (a : α) : (pure a : Run α).Realizes (pure a) where
  of_ok h state := by
    cases h
    rfl
  ensures state := ensures_pure.mpr ⟨[], (State.recordAll_nil state).symm, .inl ⟨rfl, rfl⟩⟩

/-- After a failure the run goes on, and only adds faults. -/
theorem Realizes.bind {run : Run α} {computed : Sizing α} {next : α → Run β}
    {nextComputed : α → Sizing β} (h : run.Realizes computed)
    (hnext : ∀ a, (next a).Realizes (nextComputed a)) :
    (run >>= next).Realizes (computed >>= nextComputed) where
  of_ok hok state := by
    obtain ⟨a, ha, hb⟩ := Sizing.bind_eq_ok_iff.mp hok
    exact bind_eq_some_iff.mpr ⟨a, state, h.of_ok ha state, (hnext a).of_ok hb state⟩
  ensures state := by
    rw [ensures_bind]
    refine (h.ensures state).imp fun a middle hmiddle => ?_
    obtain ⟨faults, rfl, hfaults⟩ := hmiddle
    refine ((hnext a).ensures _).imp fun b final hfinal => ?_
    obtain ⟨more, rfl, hmore⟩ := hfinal
    refine ⟨faults ++ more, (State.recordAll_append ..).symm, ?_⟩
    rw [ExceptT.run_bind]
    rcases hfaults with ⟨rfl, ha⟩ | ⟨hfaults, cause, hcause⟩
    · rw [ha]
      exact hmore
    · rw [hcause]
      exact .inr ⟨List.append_ne_nil_of_left_ne_nil hfaults more, cause, rfl⟩

end Run

end Realizes

/-! ### Defaults in literals -/

namespace Eval

variable {ev : Evaluator} {frame : Frame} {id : NodeId}

/-- The default, or undefined and a fault that carries the cause. -/
def defaultOr (fault : DefaultFault → Fault) (id : NodeId) (computed : Sizing Marked) :
    Run Marked := do
  match ← Run.sizing computed with
  | .error cause => Run.fail (fault cause) id
  | .ok zero => pure zero

theorem defaultOr_of_ok {computed : Sizing Marked} {zero : Marked}
    (h : computed.run = some (.ok zero)) (fault : DefaultFault → Fault) (id : NodeId) :
    defaultOr fault id computed = pure zero := by
  funext state
  simp [defaultOr, Run.bind_apply, Run.sizing, h]

theorem defaultOr_of_error {computed : Sizing Marked} {cause : DefaultFault}
    (h : computed.run = some (.error cause)) (fault : DefaultFault → Fault) (id : NodeId) :
    defaultOr fault id computed = Run.fail (fault cause) id := by
  funext state
  simp [defaultOr, Run.bind_apply, Run.sizing, h]

theorem defaultOr_realizes (fault : DefaultFault → Fault) (id : NodeId)
    (computed : Sizing Marked) : (defaultOr fault id computed).Realizes computed where
  of_ok h state := by rw [defaultOr_of_ok h, Run.pure_apply]
  ensures state := by
    rw [defaultOr, Run.ensures_bind, Run.ensures_sizing]
    intro outcome houtcome
    cases outcome with
    | error cause =>
      exact Run.ensures_fail.mpr ⟨[⟨fault cause, id⟩], (State.recordAll_singleton ..).symm,
        .inr ⟨List.cons_ne_nil _ _, cause, houtcome⟩⟩
    | ok zero =>
      exact Run.ensures_pure.mpr ⟨[], (State.recordAll_nil state).symm, .inl ⟨rfl, houtcome⟩⟩

theorem defaultOr_matches (fault : DefaultFault → Fault) (id : NodeId) {computed : Sizing Marked}
    (h : computed.run.isSome) : Run.Matches False Eq (fun _ => True) (defaultOr fault id computed)
      (defaultOr fault id computed) fun _ _ => True := by
  refine (Run.matches_sizing (.of_isSome h)).bind fun outcome => ?_
  rcases outcome with cause | zero
  · exact Run.matches_eq_iff.mpr fun state _ => ⟨rfl, .inr rfl, fun _ _ _ => trivial⟩
  · exact Run.matches_pure fun _ _ => trivial

/-- A field without an initializer takes its default. -/
theorem literalField_of_omitted {inits : List FieldInit} {name : String}
    (hname : inits.find? (·.name == name) = none) (ty : Ty) :
    literalField ev frame id inits name ty =
      defaultOr (.fieldDefault name ty) id (defaultValue (staticLength ev) ty) := by
  rw [literalField, hname]
  rfl

/-- An array literal without elements takes the default of its type.  What it reports tells whether
already the length failed. -/
theorem arrayLiteral_nil (ev : Evaluator) (frame : Frame) (id : NodeId) (elem : Ty)
    (length : NodeId) : ∃ fault : DefaultFault → Fault,
      (fault = .literalLength ∨ fault = .elementDefault elem) ∧
      arrayLiteral ev frame id elem length [] =
        defaultOr fault id (defaultValue (staticLength ev) (.array elem length)) := by
  -- the literal and the default ask for the length first, and then for the items
  have hrun := congrArg ExceptT.run (defaultValue_array (staticLength ev) elem length)
  rw [ExceptT.run_bind] at hrun
  rcases hlength : (staticLength ev length).run with _ | cause | n
  · refine ⟨.literalLength, .inl rfl, ?_⟩
    funext state
    rw [hlength] at hrun
    simp [arrayLiteral, defaultOr, Run.bind_apply, Run.sizing, hlength, hrun]
  · refine ⟨.literalLength, .inl rfl, ?_⟩
    funext state
    rw [hlength] at hrun
    rw [defaultOr_of_error hrun]
    simp [arrayLiteral, Run.bind_apply, Run.sizing, hlength]
  · refine ⟨.elementDefault elem, .inr rfl, ?_⟩
    funext state
    have hrest : (defaultValue (staticLength ev) (.array elem length)).run =
        (defaultItems (staticLength ev) elem n >>= fun items =>
          pure (Marked.list elem length items) : Sizing Marked).run := by
      rw [hrun, hlength]
      rfl
    rw [ExceptT.run_bind] at hrest
    rcases hitems : (defaultItems (staticLength ev) elem n).run with _ | cause | items
    · rw [hitems] at hrest
      simp [arrayLiteral, defaultOr, Run.bind_apply, Run.sizing, hlength, hitems, hrest]
    · rw [hitems] at hrest
      rw [defaultOr_of_error hrest]
      simp [arrayLiteral, Run.bind_apply, Run.sizing, hlength, hitems]
    · rw [hitems] at hrest
      rw [defaultOr_of_ok hrest]
      simp [arrayLiteral, Run.bind_apply, Run.sizing, hlength, hitems]

/-- Fields none of which are initialized. -/
theorem omittedFields_realizes (ev : Evaluator) (frame : Frame) (id : NodeId)
    (fields : Entries Ty) :
    Run.Realizes
      (fields.mapM fun field => do
        let value ← literalField ev frame id [] field.1 field.2
        pure (field.1, value))
      (defaultFields (staticLength ev) fields) := by
  induction fields with
  | nil => exact Run.realizes_pure []
  | cons field rest ih =>
    rw [List.mapM_cons, defaultFields, bind_assoc, literalField_of_omitted rfl]
    exact (defaultOr_realizes _ id _).bind fun zero => ih.bind fun values => Run.realizes_pure _

/-- Where the lengths in its type are computed, a literal that leaves out everything has an
outcome. -/
theorem recordLiteral_nil_isSome {fields : Entries Ty}
    (hlengths : ∀ length ∈ (Ty.record fields).lengths, (staticLength ev length).run.isSome)
    (state : State) : (recordLiteral ev frame id fields [] state).isSome := by
  rw [Ty.lengths] at hlengths
  have hfield : ∀ field ∈ fields, Run.Matches False Eq (fun _ => True)
      (do
        let value ← literalField ev frame id [] field.1 field.2
        pure (field.1, value))
      (do
        let value ← literalField ev frame id [] field.1 field.2
        pure (field.1, value))
      fun _ _ => True ∧ True := by
    intro field hfield
    have hzero : (defaultValue (staticLength ev) field.2).run.isSome :=
      defaultValue_isSome_of_lengths fun length hlength =>
        hlengths length (Ty.mem_fieldLengths hfield hlength)
    rw [literalField_of_omitted rfl]
    exact (defaultOr_matches _ id hzero).bind fun value =>
      Run.matches_pure fun _ _ => ⟨trivial, trivial⟩
  have hmatches : Run.Matches False Eq (fun _ => True) (recordLiteral ev frame id fields [])
      (recordLiteral ev frame id fields []) fun _ _ => True :=
    (Run.Matches.mapM hfield).bind fun values => Run.matches_pure fun _ _ => trivial
  exact (Run.matches_eq_iff.mp hmatches state trivial).2.1.resolve_left not_false

end Eval

/-- The node is a literal of that type, and leaves out all elements or fields. -/
inductive Program.EmptyLiteral (program : Program) (id : NodeId) : Ty → Prop where
  | array {elem : Ty} {length : NodeId} {elements : Span NodeId}
    (hnode : program.node? id = some (.arrayLiteral elem length elements))
    (hnone : program.children elements = []) : EmptyLiteral program id (.array elem length)
  | record {fields : Entries Ty} {inits : Span FieldInit}
    (hnode : program.node? id = some (.recordLiteral fields inits))
    (hnone : program.fieldInits inits = []) : EmptyLiteral program id (.record fields)

section EmptyLiteral

variable {program : Program} {ty : Ty} {frame : Frame} {id : NodeId} {state : State}

theorem Eval.rule_recordLiteral {fields : Entries Ty} {inits : Span FieldInit}
    (hnode : program.node? id = some (.recordLiteral fields inits)) (ev : Evaluator) (fuel : Nat)
    (frame : Frame) : Eval.rule program ev fuel frame id =
      Eval.recordLiteral ev frame id fields (program.fieldInits inits) := by
  simp only [Eval.rule, hnode]

theorem Eval.rule_arrayLiteral_nil {elem : Ty} {length : NodeId} {elements : Span NodeId}
    (hnode : program.node? id = some (.arrayLiteral elem length elements))
    (hnone : program.children elements = []) (ev : Evaluator) (fuel : Nat) (frame : Frame) :
    ∃ fault : DefaultFault → Fault, (fault = .literalLength ∨ fault = .elementDefault elem) ∧
      Eval.rule program ev fuel frame id =
        Eval.defaultOr fault id (defaultValue (staticLength ev) (.array elem length)) := by
  have hrule : Eval.rule program ev fuel frame id =
      Eval.arrayLiteral ev frame id elem length [] := by
    simp only [Eval.rule, hnode, hnone]
  rw [hrule]
  exact Eval.arrayLiteral_nil ev frame id elem length

/-- A literal that leaves out everything realizes the default of its type. -/
theorem Program.EmptyLiteral.realizes (hempty : program.EmptyLiteral id ty) (ev : Evaluator)
    (fuel : Nat) (frame : Frame) :
    (Eval.rule program ev fuel frame id).Realizes (defaultValue (staticLength ev) ty) := by
  cases hempty with
  | array hnode hnone =>
    obtain ⟨fault, -, heq⟩ := Eval.rule_arrayLiteral_nil hnode hnone ev fuel frame
    rw [heq]
    exact Eval.defaultOr_realizes fault id _
  | record hnode hnone =>
    rw [Eval.rule_recordLiteral hnode, hnone, Eval.recordLiteral, defaultValue]
    exact (Eval.omittedFields_realizes ev frame id _).bind fun values => Run.realizes_pure _

/-- Where the lengths in its type are computed, such a literal has an outcome. -/
theorem Program.EmptyLiteral.isSome (hempty : program.EmptyLiteral id ty) {ev : Evaluator}
    (hlengths : ∀ length ∈ ty.lengths, (staticLength ev length).run.isSome) (fuel : Nat)
    (frame : Frame) (state : State) : (Eval.rule program ev fuel frame id state).isSome := by
  cases hempty with
  | array hnode hnone =>
    obtain ⟨fault, -, heq⟩ := Eval.rule_arrayLiteral_nil hnode hnone ev fuel frame
    have hmatches := Eval.defaultOr_matches fault id (defaultValue_isSome_of_lengths hlengths)
    rw [heq]
    exact (Run.matches_eq_iff.mp hmatches state trivial).2.1.resolve_left not_false
  | record hnode hnone =>
    rw [Eval.rule_recordLiteral hnode, hnone]
    exact Eval.recordLiteral_nil_isSome hlengths state

/-- An array literal without elements reports a default that fails at its own node.  It is a matter
of bounds exactly if something is too large. -/
theorem LacksDefault.arrayLiteral_nil {elem : Ty} {length : NodeId} {elements : Span NodeId}
    {cause : DefaultFault} (h : LacksDefault program (.array elem length) cause)
    (hnode : program.node? id = some (.arrayLiteral elem length elements))
    (hnone : program.children elements = []) (frame : Frame) (state : State) :
    ∃ fault : Fault, Evaluates program frame id state .undefined (state.record ⟨fault, id⟩) ∧
      (fault.kind = .bounds ↔ cause.isTooLarge = true) := by
  obtain ⟨fuel, h⟩ := h
  obtain ⟨fault, hfault, heq⟩ :=
    Eval.rule_arrayLiteral_nil hnode hnone (eval program fuel) fuel frame
  refine ⟨fault cause, ⟨fuel + 1, ?_⟩, ?_⟩
  · rw [eval_succ, heq, Eval.defaultOr_of_error h, Run.fail_apply]
  · rcases hfault with rfl | rfl
    · simp [Fault.kind]
    · simp [Fault.kind]

/-- **A literal that leaves out everything is the default of its type.**  It changes no variable,
and records a fault only if there is no default. -/
theorem empty_literal_default (hempty : program.EmptyLiteral id ty) (frame : Frame)
    (state : State) :
    (∀ zero, HasDefault program ty zero → Evaluates program frame id state zero state) ∧
    (∀ m final, Evaluates program frame id state m final →
      final.locals = state.locals ∧ final.globals = state.globals ∧
      (final.faults = state.faults ↔ ∃ zero, HasDefault program ty zero) ∧
      (final.faults ≠ state.faults ↔ ∃ cause, LacksDefault program ty cause)) ∧
    (∀ elem length cause, ty = .array elem length → LacksDefault program ty cause →
      ∃ fault : Fault, Evaluates program frame id state .undefined (state.record ⟨fault, id⟩) ∧
        (fault.kind = .bounds ↔ cause.isTooLarge = true)) ∧
    ((∀ length ∈ ty.lengths, ∃ m final, Evaluates program {} length {} m final) →
      ∃ m final, Evaluates program frame id state m final) := by
  refine ⟨fun zero hzero => ?_, fun m final h => ?_, fun elem length cause hty h => ?_,
    fun hlengths => ?_⟩
  · obtain ⟨fuel, hzero⟩ := hzero
    refine ⟨fuel + 1, ?_⟩
    rw [eval_succ]
    exact (hempty.realizes (eval program fuel) fuel frame).of_ok hzero state
  · obtain ⟨_ | fuel, h⟩ := h
    · cases h
    rw [eval_succ] at h
    obtain ⟨faults, rfl, hfaults⟩ :=
      (hempty.realizes (eval program fuel) fuel frame).ensures state m final h
    refine ⟨rfl, rfl, ?_⟩
    rw [Ne, State.faults_recordAll_eq_iff]
    rcases hfaults with ⟨hnone, hzero⟩ | ⟨hsome, cause, hcause⟩
    · have hdefault : HasDefault program ty m := ⟨fuel, hzero⟩
      exact ⟨iff_of_true hnone ⟨m, hdefault⟩,
        iff_of_false (not_not_intro hnone) fun ⟨cause, hlacks⟩ => hlacks.not_hasDefault hdefault⟩
    · have hlacks : LacksDefault program ty cause := ⟨fuel, hcause⟩
      exact ⟨iff_of_false hsome fun ⟨zero, hdefault⟩ => hlacks.not_hasDefault hdefault,
        iff_of_true hsome ⟨cause, hlacks⟩⟩
  · subst hty
    cases hempty with
    | array hnode hnone => exact h.arrayLiteral_nil hnode hnone frame state
  · obtain ⟨fuel, hfuel⟩ := (eventually_lengths_isSome hlengths).exists
    obtain ⟨reached, hreached⟩ :=
      Option.isSome_iff_exists.mp (hempty.isSome hfuel fuel frame state)
    exact ⟨reached.1, reached.2, fuel + 1, by rw [eval_succ]; exact hreached⟩

/-- Literals that leave out everything: an array that is too large, and a record with a default. -/
def blankProgram : Program where
  nodes := #[.int 1048577, .arrayLiteral .int ⟨0⟩ ⟨0, 0⟩, .int 2,
    .recordLiteral [("n", .int), ("row", .array .int ⟨2⟩)] ⟨0, 0⟩]

/-- The array is reported, and the record holds zeros. -/
theorem empty_literal_default_blankProgram :
    (blankProgram.EmptyLiteral ⟨1⟩ (.array .int ⟨0⟩) ∧
      ∃ fault : Fault, fault.kind = .bounds ∧
        Evaluates blankProgram {} ⟨1⟩ {} .undefined (State.record {} ⟨fault, ⟨1⟩⟩)) ∧
    blankProgram.EmptyLiteral ⟨3⟩ (.record [("n", .int), ("row", .array .int ⟨2⟩)]) ∧
    Evaluates blankProgram {} ⟨3⟩ {} (.plain (.record [("n", .int), ("row", .array .int ⟨2⟩)]
      [("n", .plain (.int 0)),
        ("row", .plain (.list .int ⟨2⟩ [.plain (.int 0), .plain (.int 0)]))])) {} := by
  have harray : blankProgram.EmptyLiteral ⟨1⟩ (.array .int ⟨0⟩) := .array rfl rfl
  have hrecord : blankProgram.EmptyLiteral ⟨3⟩
      (.record [("n", .int), ("row", .array .int ⟨2⟩)]) := .record rfl rfl
  obtain ⟨-, -, hlarge, -⟩ := empty_literal_default harray {} {}
  obtain ⟨hzero, -⟩ := empty_literal_default hrecord {} {}
  obtain ⟨fault, hfault, hkind⟩ := hlarge _ _ (.lengthTooLarge 1048577) rfl ⟨1, rfl⟩
  exact ⟨⟨harray, fault, hkind.mpr rfl, hfault⟩, hrecord, hzero _ ⟨1, rfl⟩⟩

/-! ### Defaults that are too large -/

/-- Whatever a field is initialized with, faults are only added. -/
theorem Eval.literalField_evolves {origin : State} {fuel : Nat}
    (h : origin.Evolves (fun _ => True) state) (inits : List FieldInit) (name : String) (ty : Ty) :
    (literalField (eval program fuel) frame id inits name ty).Ensures state
      fun _ final => origin.Evolves (fun _ => True) final := by
  have hreached : origin.Reached (fun _ => True) (fun _ => True) (fun _ => True) state :=
    ⟨state.everywhere_true, h⟩
  have hyields : (literalField (eval program fuel) frame id inits name ty).Ensures state
      (origin.Yields (fun _ => True) (fun _ => True) fun _ => True) :=
    literalField_yields
      (fun frame child _ state _ => eval_yields_true program fuel frame child state)
      (hereditary_true program) hreached trivial (fun _ _ => trivial) name ty
  exact hyields.imp fun m final hpost => hpost.2.evolves

/-- Whatever a record literal does initialize, it goes on where a default fails, and is a record
with one more fault. -/
theorem Eval.recordLiteral_reports {fuel : Nat} {fields : Entries Ty} {inits : List FieldInit}
    {name : String} {cause : DefaultFault} (hfield : (name, ty) ∈ fields)
    (homitted : inits.find? (·.name == name) = none)
    (hcause : (defaultValue (staticLength (eval program fuel)) ty).run = some (.error cause)) :
    (recordLiteral (eval program fuel) frame id fields inits).Ensures state fun m final =>
      m.value.ty = .record fields ∧ ∃ recorded : Array (Located Fault),
        final.faults = state.faults ++ recorded ∧
          ⟨.fieldDefault name ty cause, id⟩ ∈ recorded := by
  have hevolves : ∀ {origin : State} (field : String × Ty) (state : State),
      origin.Evolves (fun _ => True) state →
      Run.Ensures (do
        let value ← literalField (eval program fuel) frame id inits field.1 field.2
        pure (field.1, value)) state
        fun value final => True ∧ origin.Evolves (fun _ => True) final := by
    intro origin field state hstate
    rw [Run.ensures_bind]
    exact (literalField_evolves hstate inits field.1 field.2).imp fun value final hfinal =>
      Run.ensures_pure.mpr ⟨trivial, hfinal⟩
  -- nothing is known of the fields on either side, but that they take no fault back
  obtain ⟨before, after, rfl⟩ := List.append_of_mem hfield
  rw [recordLiteral, List.mapM_append, List.mapM_cons, literalField_of_omitted homitted,
    defaultOr_of_error hcause]
  simp only [Run.ensures_bind, Run.ensures_fail, Run.ensures_pure]
  refine (Run.ensures_mapM (fun _ _ => True) (fun field _ => hevolves field) (.refl state)).imp ?_
  intro values middle hmiddle
  refine (Run.ensures_mapM (fun _ _ => True) (fun field _ => hevolves field) (.refl _)).imp ?_
  intro more final hfinal
  refine ⟨rfl, ?_⟩
  obtain ⟨recorded, hrecorded⟩ := hmiddle.2.faults_eq
  obtain ⟨rest, hrest⟩ := hfinal.2.faults_eq
  refine ⟨recorded.push ⟨.fieldDefault name ty cause, id⟩ ++ rest, ?_, ?_⟩
  · rw [hrest, State.record, hrecorded, ← Array.append_push, Array.append_assoc]
  · exact Array.mem_append_left _ Array.mem_push_self

/-- **An omitted default that is too large is reported in two ways.**  An array literal records a
fault of bounds and yields undefined.  A record literal, whatever it initializes, records an
internal fault, and yields a record all the same. -/
theorem oversized_default_reported (program : Program) {cause : DefaultFault}
    (hcause : cause.isTooLarge = true) (frame : Frame) (id : NodeId) (state : State) :
    (∀ elem length elements, program.node? id = some (.arrayLiteral elem length elements) →
      program.children elements = [] → LacksDefault program (.array elem length) cause →
      ∃ fault : Fault, Evaluates program frame id state .undefined (state.record ⟨fault, id⟩) ∧
        fault.kind = .bounds) ∧
    (∀ fields inits name ty, program.node? id = some (.recordLiteral fields inits) →
      (name, ty) ∈ fields → (program.fieldInits inits).find? (·.name == name) = none →
      LacksDefault program ty cause → ∀ m final, Evaluates program frame id state m final →
      m.value.ty = .record fields ∧ ∃ (recorded : Array (Located Fault)) (fault : Fault),
        final.faults = state.faults ++ recorded ∧ ⟨fault, id⟩ ∈ recorded ∧
          fault.kind = .internal) := by
  constructor
  · intro elem length elements hnode hnone hlacks
    obtain ⟨fault, hends, hkind⟩ := hlacks.arrayLiteral_nil hnode hnone frame state
    exact ⟨fault, hends, hkind.mpr hcause⟩
  · intro fields inits name ty hnode hfield homitted hlacks m final h
    obtain ⟨fuel, hrule, hlacks⟩ :=
      ((evaluates_iff_rule.mp h).and (defaultValue_eventually hlacks)).exists
    rw [Eval.rule_recordLiteral hnode] at hrule
    obtain ⟨hty, recorded, hfaults, hmem⟩ :=
      Eval.recordLiteral_reports hfield homitted hlacks m final hrule
    exact ⟨hty, recorded, _, hfaults, hmem, rfl⟩

/-- An array that is too large, as a literal, as the only field of a record, and beside a field that
is initialized. -/
def oversizedProgram : Program where
  nodes := #[.int 1048577, .arrayLiteral .int ⟨0⟩ ⟨0, 0⟩,
    .recordLiteral [("big", .array .int ⟨0⟩)] ⟨0, 0⟩, .int 7,
    .recordLiteral [("n", .int), ("big", .array .int ⟨0⟩)] ⟨0, 1⟩]
  initCells := #[⟨"n", ⟨3⟩⟩]

/-- One length is a matter of bounds for the array, and internal for the record. -/
theorem oversized_default_reported_oversizedProgram :
    LacksDefault oversizedProgram (.array .int ⟨0⟩) (.lengthTooLarge 1048577) ∧
    (∃ fault : Fault, fault.kind = .bounds ∧
      Evaluates oversizedProgram {} ⟨1⟩ {} .undefined (State.record {} ⟨fault, ⟨1⟩⟩)) ∧
    ∃ (m : Marked) (final : State) (fault : Fault), Evaluates oversizedProgram {} ⟨4⟩ {} m final ∧
      m.value.ty = .record [("n", .int), ("big", .array .int ⟨0⟩)] ∧ fault.kind = .internal ∧
        ⟨fault, ⟨4⟩⟩ ∈ final.faults := by
  have hlacks : LacksDefault oversizedProgram (.array .int ⟨0⟩) (.lengthTooLarge 1048577) :=
    ⟨1, rfl⟩
  have hcause : (DefaultFault.lengthTooLarge 1048577).isTooLarge = true := rfl
  obtain ⟨harray, -⟩ := oversized_default_reported oversizedProgram hcause {} ⟨1⟩ {}
  obtain ⟨-, hrecord⟩ := oversized_default_reported oversizedProgram hcause {} ⟨4⟩ {}
  obtain ⟨fault, hreported, hbounds⟩ := harray _ _ _ rfl rfl hlacks
  have hends : Evaluates oversizedProgram {} ⟨4⟩ {} _ _ := ⟨2, rfl⟩
  have hfield : ("big", Ty.array .int ⟨0⟩) ∈ [("n", Ty.int), ("big", .array .int ⟨0⟩)] :=
    List.mem_cons_of_mem _ List.mem_cons_self
  obtain ⟨hty, recorded, other, hfaults, hmem, hinternal⟩ :=
    hrecord _ _ _ _ rfl hfield rfl hlacks _ _ hends
  refine ⟨hlacks, ⟨fault, hbounds, hreported⟩, _, _, other, hends, hty, hinternal, ?_⟩
  rw [hfaults]
  exact Array.mem_append_right _ hmem

/-- Where the array is the only field, the record reports nothing of bounds at all. -/
theorem oversized_field_not_bounds :
    oversizedProgram.node? ⟨2⟩ = some (.recordLiteral [("big", .array .int ⟨0⟩)] ⟨0, 0⟩) ∧
    LacksDefault oversizedProgram (.array .int ⟨0⟩) (.lengthTooLarge 1048577) ∧
    ∃ (m : Marked) (final : State), Evaluates oversizedProgram {} ⟨2⟩ {} m final ∧
      m ≠ .undefined ∧ ∀ reported ∈ final.faults, reported.cause.kind ≠ .bounds := by
  refine ⟨rfl, ⟨1, rfl⟩, _, _, ⟨2, rfl⟩, nofun, fun reported hreported => ?_⟩
  obtain rfl := List.mem_singleton.mp (Array.mem_def.mp hreported)
  nofun

end EmptyLiteral

end Arbor

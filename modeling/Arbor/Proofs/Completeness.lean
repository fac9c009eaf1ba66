import Arbor.Proofs.Conformance
import Arbor.Proofs.Echo
import Arbor.Proofs.Soundness

/-!
# The checker rejects nothing that runs

The checker decides by types what evaluation decides by values.  For expressions
made of constants, variables, operators and access the two agree in this
direction: if evaluation records no fault, checking records no mismatch, and the
value is one of the type that was found.

The type is recovered from the value.  Where an operator or an access succeeds,
its operands have certain forms, and a type that a value of such a form conforms
to has just one form itself.

* `Formula` — the expressions that this is about;
* `Typing.binaryType_of_apply`, `Typing.elementType_of_element` and so on — what
  succeeds on values is allowed for their types;
* `accepts_of_unfaulted` — a formula that runs cleanly is accepted.
-/

namespace Arbor

open Filter

variable {α β : Type} {program : Program} {result : Option Ty} {id : NodeId} {ty : Ty}

/-! ### Acceptance from below -/

theorem Checking.Passes.bind {checking : Checking α} {next : α → Checking β} {a : α} {b : β}
    (h : checking.Passes a) (hnext : (next a).Passes b) : (checking >>= next).Passes b :=
  Option.bind_eq_some_iff.mpr ⟨(a, #[]), h, hnext⟩

namespace Accepts

open Checking Typing

/-- What is accepted with some fuel is accepted with more. -/
theorem eventually (h : Accepts program result id ty) :
    ∀ᶠ fuel in atTop, (check program result fuel id).Passes ty := by
  obtain ⟨fuel, h⟩ := h
  filter_upwards [eventually_ge_atTop fuel] with fuel' hfuel
  exact check_append hfuel h #[]

theorem of_rule (h : ∃ fuel, (rule program result (staticLength (eval program fuel))
    (check program result fuel) id).Passes ty) : Accepts program result id ty := by
  obtain ⟨fuel, h⟩ := h
  refine ⟨fuel + 1, ?_⟩
  rw [check_succ]
  exact h

/-- A verdict on one child that is accepted. -/
theorem settle_of_child {child : NodeId} {t : Ty} {verdict : Ty → Except Mismatch Ty}
    (hchild : Accepts program result child t) (hverdict : verdict t = .ok ty) :
    ∃ fuel, Passes (check program result fuel child >>= fun t => settle id (verdict t)) ty := by
  obtain ⟨fuel, hfuel⟩ := hchild
  exact ⟨fuel, hfuel.bind (passes_settle_iff.mpr hverdict)⟩

theorem of_binary {op : Operator} {left right : NodeId} {t t' : Ty}
    (hnode : program.node? id = some (.binary op left right))
    (hleft : Accepts program result left t) (hright : Accepts program result right t')
    (hverdict : binaryType op t t' = .ok ty) : Accepts program result id ty := by
  obtain ⟨fuel, hleft, hright⟩ := (hleft.eventually.and hright.eventually).exists
  refine of_rule ⟨fuel, ?_⟩
  rw [rule, hnode]
  exact hleft.bind (hright.bind (passes_settle_iff.mpr hverdict))

theorem of_not {operand : NodeId} {t : Ty} (hnode : program.node? id = some (.not operand))
    (hoperand : Accepts program result operand t) (hverdict : negationType t = .ok ty) :
    Accepts program result id ty := by
  obtain ⟨fuel, hpasses⟩ := settle_of_child hoperand hverdict
  refine of_rule ⟨fuel, ?_⟩
  rw [rule, hnode]
  exact hpasses

theorem of_subscript {base index : NodeId} {t : Ty}
    (hnode : program.node? id = some (.subscript base index))
    (hindex : Accepts program result index .int) (hbase : Accepts program result base t)
    (hverdict : elementType t = .ok ty) : Accepts program result id ty := by
  obtain ⟨fuel, hindex, hbase⟩ := (hindex.eventually.and hbase.eventually).exists
  refine of_rule ⟨fuel, ?_⟩
  have hint : (expect .int .int (.indexNotInt .int) index).Passes () := passes_expect_iff.mpr rfl
  rw [rule, hnode]
  exact hindex.bind (hint.bind (hbase.bind (passes_settle_iff.mpr hverdict)))

theorem of_select {base : NodeId} {name : String} {t : Ty}
    (hnode : program.node? id = some (.select base name)) (hbase : Accepts program result base t)
    (hverdict : fieldType name t = .ok ty) : Accepts program result id ty := by
  obtain ⟨fuel, hpasses⟩ := settle_of_child hbase hverdict
  refine of_rule ⟨fuel, ?_⟩
  rw [rule, hnode]
  exact hpasses

end Accepts

/-! ### Values that tell their types -/

namespace Typing

variable {t t' : Ty}

/-- Operators are applied to operands of one scalar type, for which they are defined. -/
theorem isDefinedFor_of_apply {op : Operator} {l r v : Value} (hl : l.Conforms t)
    (hr : r.Conforms t') (h : op.apply l r = .ok v) :
    t.agrees t' = true ∧ isDefinedFor op t.kind = true := by
  cases hl with
  | int a =>
    cases hr with
    | int b => cases op <;> first | exact ⟨rfl, rfl⟩ | cases h
    | _ => cases h
  | string a =>
    cases hr with
    | string b => cases op <;> first | exact ⟨rfl, rfl⟩ | cases h
    | _ => cases h
  | bool a =>
    cases hr with
    | bool b => cases op <;> first | exact ⟨rfl, rfl⟩ | cases h
    | _ => cases h
  | _ => cases h

/-- An operator that succeeds is allowed. -/
theorem binaryType_of_apply {op : Operator} {l r v : Value} (ht : t.Proper) (ht' : t'.Proper)
    (hl : l.Conforms t) (hr : r.Conforms t') (h : op.apply l r = .ok v) :
    ∃ ty, binaryType op t t' = .ok ty ∧ ty.Proper ∧ v.Conforms ty := by
  obtain ⟨hagree, hdefined⟩ := isDefinedFor_of_apply hl hr h
  have hyields := Operator.apply_yields hl hr hagree hdefined
  rw [h] at hyields
  have hfits : (Marked.plain v).Fits (if op = .eq then .bool else t) := hyields
  refine ⟨if op = .eq then .bool else t, ?_, ?_, hfits.conforms⟩
  · simp [binaryType, ht.isUnknown_eq_false, ht'.isUnknown_eq_false, hagree, hdefined]
  · split
    · exact .bool
    · exact ht

/-- A negation that succeeds is allowed. -/
theorem negationType_of_applyNot {v v' : Value} (hv : v.Conforms t)
    (h : Operator.applyNot v = .ok v') : negationType t = .ok .bool ∧ v'.Conforms .bool := by
  cases hv with
  | bool b =>
    cases h
    exact ⟨rfl, .bool _⟩
  | _ => cases h

/-- An element that is found is one of an array, at an integer. -/
theorem elementType_of_element {base index : Value} {m : Marked} (ht : t.Proper)
    (hbase : base.Conforms t) (hindex : index.Conforms t')
    (h : Eval.element base index = .ok m) :
    t' = .int ∧ ∃ ty, elementType t = .ok ty ∧ ty.Proper ∧ m.value.Conforms ty := by
  obtain ⟨elem, length, items, n, i, rfl, rfl, -, hitem⟩ := Eval.element_eq_ok_iff.mp h
  have hint : t' = .int := by
    cases hindex
    rfl
  cases hbase with
  | list hitems =>
    cases ht with
    | array helem =>
      exact ⟨hint, _, rfl, helem, hitems m (List.mem_of_getElem? hitem)⟩

/-- A field that is found is one of a record of such fields. -/
theorem fieldType_of_field {base : Value} {name : String} {m : Marked} (ht : t.Proper)
    (hbase : base.Conforms t) (h : Eval.field base name = .ok m) :
    ∃ ty, fieldType name t = .ok ty ∧ ty.Proper ∧ m.value.Conforms ty := by
  obtain ⟨shape, fields, rfl, hfound⟩ := Eval.field_eq_ok_iff.mp h
  cases hbase with
  | @record _ shape' _ hnames hfields =>
    have hmem : (name, m) ∈ fields := Entries.mem_of_get?_eq_some hfound
    have hdeclared : name ∈ shape'.names := (hnames name).mp (List.mem_map_of_mem hmem)
    obtain ⟨ty, hty⟩ := Option.isSome_iff_exists.mp (Entries.get?_isSome_iff.mpr hdeclared)
    cases ht with
    | record _ hproper =>
      refine ⟨ty, ?_, hproper _ (Entries.mem_of_get?_eq_some hty), hfields _ hmem ty hty⟩
      simp only [fieldType, hty]

end Typing

/-! ### Runs that read -/

namespace Run

variable {locals globals : Namespace}

/-- The run ends in every state of these variables, leaves them, and only adds faults. If it adds
none, then `post` holds of what it yields. -/
def Reads (locals globals : Namespace) (run : Run α) (post : α → Prop) : Prop :=
  ∀ faults, ∃ a recorded,
    run ⟨locals, globals, faults⟩ = some (a, State.recordAll ⟨locals, globals, faults⟩ recorded) ∧
      (recorded = [] → post a)

theorem reads_pure {a : α} {post : α → Prop} (h : post a) :
    (pure a : Run α).Reads locals globals post := by
  intro faults
  refine ⟨a, [], ?_, fun _ => h⟩
  rw [State.recordAll_nil, pure_apply]

theorem reads_fail (fault : Fault) (node : NodeId) (post : Marked → Prop) :
    (fail fault node).Reads locals globals post := by
  intro faults
  refine ⟨.undefined, [⟨fault, node⟩], ?_, nofun⟩
  rw [State.recordAll_singleton, fail_apply]

theorem Reads.bind {run : Run α} {next : α → Run β} {post : α → Prop} {post' : β → Prop}
    (h : run.Reads locals globals post)
    (hnext : ∀ a, (next a).Reads locals globals fun b => post a → post' b) :
    (run >>= next).Reads locals globals post' := by
  intro faults
  obtain ⟨a, recorded, hrun, hpost⟩ := h faults
  obtain ⟨b, more, hrest, hpost'⟩ := hnext a (faults ++ recorded)
  refine ⟨b, recorded ++ more, ?_, fun hnone => ?_⟩
  · rw [bind_apply, hrun, Option.bind_some, State.recordAll_append]
    exact hrest
  · obtain ⟨hfirst, hsecond⟩ := List.append_eq_nil_iff.mp hnone
    exact hpost' hsecond (hpost hfirst)

theorem reads_settle {outcome : Except Fault Marked} {post : Marked → Prop}
    (h : ∀ m, outcome = .ok m → post m) :
    (Eval.settle id outcome).Reads locals globals post := by
  cases outcome with
  | ok m => exact reads_pure (h m rfl)
  | error fault => exact reads_fail fault id post

end Run

/-! ### Formulas -/

/-- Expressions made of constants, variables, operators and access. Each variable is okay with the
type attached to it. -/
inductive Formula (program : Program) (okay : String → Ty → Prop) : NodeId → Prop where
  | int {id : NodeId} {n : Int64} (hnode : program.node? id = some (.int n)) :
    Formula program okay id
  | string {id : NodeId} {s : String} (hnode : program.node? id = some (.string s)) :
    Formula program okay id
  | bool {id : NodeId} {b : Bool} (hnode : program.node? id = some (.bool b)) :
    Formula program okay id
  | var {id : NodeId} {name : String} {ty : Ty} (hnode : program.node? id = some (.var name ty))
    (hokay : okay name ty) : Formula program okay id
  | binary {id left right : NodeId} {op : Operator}
    (hnode : program.node? id = some (.binary op left right))
    (hleft : Formula program okay left) (hright : Formula program okay right) :
    Formula program okay id
  | not {id operand : NodeId} (hnode : program.node? id = some (.not operand))
    (hoperand : Formula program okay operand) : Formula program okay id
  | subscript {id base index : NodeId} (hnode : program.node? id = some (.subscript base index))
    (hbase : Formula program okay base) (hindex : Formula program okay index) :
    Formula program okay id
  | select {id base : NodeId} {name : String}
    (hnode : program.node? id = some (.select base name)) (hbase : Formula program okay base) :
    Formula program okay id

/-- The variable is found, locals first, with a value of the type, which is known and names no field
twice. -/
def State.Holds (state : State) (name : String) (ty : Ty) : Prop :=
  ty.Proper ∧ ∃ m, state.lookup name = some m ∧ m.value.Conforms ty

/-- The node is accepted with a proper type, and the value is one of this type. -/
def AcceptsFor (program : Program) (result : Option Ty) (id : NodeId) (m : Marked) : Prop :=
  ∃ ty, Accepts program result id ty ∧ ty.Proper ∧ m.value.Conforms ty

section Rules

variable {locals globals : Namespace} {ev : Evaluator} {fuel : Nat} {frame : Frame}

theorem binary_reads {op : Operator} {left right : NodeId}
    (hnode : program.node? id = some (.binary op left right))
    (hleft : (ev frame left).Reads locals globals (AcceptsFor program result left))
    (hright : (ev frame right).Reads locals globals (AcceptsFor program result right)) :
    (Eval.rule program ev fuel frame id).Reads locals globals (AcceptsFor program result id) := by
  unfold Eval.rule
  rw [hnode]
  refine hleft.bind fun l => hright.bind fun r => ?_
  cases happly : op.apply l.value r.value with
  | error error => exact Run.reads_fail _ id _
  | ok v =>
    refine Run.reads_pure fun hr hl => ?_
    obtain ⟨t, hleft, ht, hl⟩ := hl
    obtain ⟨t', hright, ht', hr⟩ := hr
    obtain ⟨ty, hverdict, hty, hv⟩ := Typing.binaryType_of_apply ht ht' hl hr happly
    exact ⟨ty, .of_binary hnode hleft hright hverdict, hty, hv⟩

theorem not_reads {operand : NodeId} (hnode : program.node? id = some (.not operand))
    (hoperand : (ev frame operand).Reads locals globals (AcceptsFor program result operand)) :
    (Eval.rule program ev fuel frame id).Reads locals globals (AcceptsFor program result id) := by
  unfold Eval.rule
  rw [hnode]
  refine hoperand.bind fun o => ?_
  cases happly : Operator.applyNot o.value with
  | error error => exact Run.reads_fail _ id _
  | ok v =>
    refine Run.reads_pure fun ho => ?_
    obtain ⟨t, hoperand, -, ho⟩ := ho
    obtain ⟨hverdict, hv⟩ := Typing.negationType_of_applyNot ho happly
    exact ⟨.bool, .of_not hnode hoperand hverdict, .bool, hv⟩

theorem subscript_reads {base index : NodeId}
    (hnode : program.node? id = some (.subscript base index))
    (hbase : (ev frame base).Reads locals globals (AcceptsFor program result base))
    (hindex : (ev frame index).Reads locals globals (AcceptsFor program result index)) :
    (Eval.rule program ev fuel frame id).Reads locals globals (AcceptsFor program result id) := by
  unfold Eval.rule
  rw [hnode]
  refine hbase.bind fun b => hindex.bind fun i => ?_
  split
  · exact Run.reads_fail _ id _
  · refine Run.reads_settle fun m hm hi hb => ?_
    obtain ⟨t, hbase, ht, hb⟩ := hb
    obtain ⟨t', hindex, -, hi⟩ := hi
    obtain ⟨rfl, ty, hverdict, hty, hv⟩ := Typing.elementType_of_element ht hb hi hm
    exact ⟨ty, .of_subscript hnode hindex hbase hverdict, hty, hv⟩

theorem select_reads {base : NodeId} {name : String}
    (hnode : program.node? id = some (.select base name))
    (hbase : (ev frame base).Reads locals globals (AcceptsFor program result base)) :
    (Eval.rule program ev fuel frame id).Reads locals globals (AcceptsFor program result id) := by
  unfold Eval.rule
  rw [hnode]
  refine hbase.bind fun b => ?_
  split
  · exact Run.reads_fail _ id _
  · refine Run.reads_settle fun m hm hb => ?_
    obtain ⟨t, hbase, ht, hb⟩ := hb
    obtain ⟨ty, hverdict, hty, hv⟩ := Typing.fieldType_of_field ht hb hm
    exact ⟨ty, .of_select hnode hbase hverdict, hty, hv⟩

end Rules

/-- A constant or a variable is accepted with the type of what it yields. -/
theorem eventually_reads_leaf {state : State} {frame : Frame} {m : Marked} (hty : ty.Proper)
    (hconforms : m.value.Conforms ty)
    (hrule : ∀ ev fuel faults,
      Eval.rule program ev fuel frame id { state with faults } = some (m, { state with faults }))
    (hcheck : ∀ lengthOf check, (Typing.rule program result lengthOf check id).Passes ty) :
    ∀ᶠ fuel in atTop, (eval program fuel frame id).Reads state.locals state.globals
      (AcceptsFor program result id) := by
  have haccepts : Accepts program result id ty := .of_rule ⟨0, hcheck _ _⟩
  refine eventually_eval (P := fun ev => (ev frame id).Reads _ _ _) (.of_forall fun fuel => ?_)
  intro faults
  refine ⟨m, [], ?_, fun _ => ⟨ty, haccepts, hty, hconforms⟩⟩
  rw [State.recordAll_nil]
  exact hrule _ _ faults

/-- With enough fuel a formula is evaluated, and accepted if it records no fault. -/
theorem Formula.reads {state : State} (h : Formula program state.Holds id) (frame : Frame) :
    ∀ᶠ fuel in atTop, (eval program fuel frame id).Reads state.locals state.globals
      (AcceptsFor program result id) := by
  induction h with
  | @int id n hnode =>
    refine eventually_reads_leaf (m := .plain (.int n)) .int (.int n) ?_ ?_ <;>
      simp [Eval.rule, Typing.rule, hnode]
  | @string id s hnode =>
    refine eventually_reads_leaf (m := .plain (.string s)) .string (.string s) ?_ ?_ <;>
      simp [Eval.rule, Typing.rule, hnode]
  | @bool id b hnode =>
    refine eventually_reads_leaf (m := .plain (.bool b)) .bool (.bool b) ?_ ?_ <;>
      simp [Eval.rule, Typing.rule, hnode]
  | @var id name ty hnode hokay =>
    obtain ⟨hty, m, hfound, hconforms⟩ := hokay
    refine eventually_reads_leaf hty hconforms (fun ev fuel faults => ?_) fun lengthOf check => ?_
    · have hsame : State.lookup { state with faults } name = some m := hfound
      simp only [Eval.rule, hnode, Run.bind_apply, Run.get_apply, Option.bind_some, hsame,
        Option.getD_some, Run.pure_apply]
    · rw [Typing.rule, hnode, Typing.passes_settle_iff, Typing.variableType,
        hty.isUnknown_eq_false]
      rfl
  | binary hnode _ _ ihleft ihright =>
    apply eventually_eval (P := fun ev => (ev frame _).Reads _ _ _)
    filter_upwards [ihleft, ihright] with fuel hleft hright
    exact binary_reads hnode hleft hright
  | not hnode _ ih =>
    apply eventually_eval (P := fun ev => (ev frame _).Reads _ _ _)
    filter_upwards [ih] with fuel hoperand
    exact not_reads hnode hoperand
  | subscript hnode _ _ ihbase ihindex =>
    apply eventually_eval (P := fun ev => (ev frame _).Reads _ _ _)
    filter_upwards [ihbase, ihindex] with fuel hbase hindex
    exact subscript_reads hnode hbase hindex
  | select hnode _ ih =>
    apply eventually_eval (P := fun ev => (ev frame _).Reads _ _ _)
    filter_upwards [ih] with fuel hbase
    exact select_reads hnode hbase

/-- **The checker never rejects a formula that runs cleanly.**  Where each variable is found with a
value of the type attached to it, a formula is evaluated in every frame, changes no variable and
only adds faults.  If it adds none, the checker accepts it, whatever the enclosing function returns,
with a known type, and the value is one of this type. -/
theorem accepts_of_unfaulted {state : State} (h : Formula program state.Holds id) (frame : Frame)
    (result : Option Ty) :
    ∃ m recorded, Evaluates program frame id state m (state.recordAll recorded) ∧
      (recorded = [] → ∃ ty, Accepts program result id ty ∧ ty.isUnknown = false ∧
        m.value.Conforms ty) := by
  have hread : ∀ᶠ fuel in atTop, (eval program fuel frame id).Reads state.locals state.globals
      (AcceptsFor program result id) := h.reads frame
  obtain ⟨fuel, hreads⟩ := hread.exists
  obtain ⟨m, recorded, hrun, hclean⟩ := hreads state.faults
  refine ⟨m, recorded, ⟨fuel, hrun⟩, fun hnone => ?_⟩
  obtain ⟨ty, haccepts, hty, hconforms⟩ := hclean hnone
  exact ⟨ty, haccepts, hty.isUnknown_eq_false, hconforms⟩

/-- `rows[0].count + 1 == 5`, where `rows` is a list of records. -/
def countProgram : Program where
  nodes := #[.var "rows" (.array (.record [("count", .int)]) ⟨9⟩), .int 0, .subscript ⟨0⟩ ⟨1⟩,
    .select ⟨2⟩ "count", .int 1, .binary .add ⟨3⟩ ⟨4⟩, .int 5, .binary .eq ⟨5⟩ ⟨6⟩]

/-- The only row counts four. -/
def rowsState : State where
  globals := .ofPairs [("rows", .list (.record [("count", .int)]) ⟨9⟩
    [.record [("count", .int)] [("count", .plain (.int 4))]])]

theorem countProgram_formula : Formula countProgram rowsState.Holds ⟨7⟩ := by
  have hrow : Ty.Proper (.record [("count", .int)]) := by
    refine .record (by decide) fun field hfield => ?_
    rw [List.mem_singleton.mp hfield]
    exact .int
  have hrows : rowsState.Holds "rows" (.array (.record [("count", .int)]) ⟨9⟩) := by
    refine ⟨.array hrow, _, rfl, .list fun item hitem => ?_⟩
    rw [List.mem_singleton.mp hitem]
    refine .record (fun name => Iff.rfl) fun field hfield ty hty => ?_
    rw [List.mem_singleton.mp hfield] at hty ⊢
    cases hty
    exact .int 4
  have hone : Formula countProgram rowsState.Holds ⟨4⟩ := .int rfl
  have hcount : Formula countProgram rowsState.Holds ⟨3⟩ :=
    .select rfl (.subscript rfl (.var rfl hrows) (.int rfl))
  exact .binary rfl (.binary rfl hcount hone) (.int rfl)

theorem accepts_of_unfaulted_countProgram :
    Evaluates countProgram {} ⟨7⟩ rowsState (.plain (.bool true)) rowsState ∧
    ∃ ty, Accepts countProgram none ⟨7⟩ ty ∧ ty.isUnknown = false ∧
      (Value.bool true).Conforms ty := by
  have hends : Evaluates countProgram {} ⟨7⟩ rowsState (.plain (.bool true)) rowsState :=
    ⟨5, rfl⟩
  obtain ⟨m, recorded, hends', hclean⟩ := accepts_of_unfaulted countProgram_formula {} none
  obtain ⟨rfl, hsame⟩ := hends.unique hends'
  have hnone : recorded = [] := by
    have hfaults := congrArg (fun state => state.faults.toList) hsame
    simpa [State.recordAll] using hfaults
  exact ⟨hends, hclean hnone⟩

end Arbor

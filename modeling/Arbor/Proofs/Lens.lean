import Arbor.Proofs.Fuel
import Arbor.Proofs.Scope
import Arbor.Proofs.Slot

/-!
# Assignment to a slot

A composite target names a slot inside a variable.  As an expression it is read
node by node, from copies; as the target of an assignment it is resolved to a
place, and the place is written.  The two ways must accept the same targets.

Here targets are chains of subscripts by integer literals and of selectors over
a variable (`Chain`), of any length.  What a chain yields is what its steps read
(`Chain.evaluates`), and where it is resolved to is the place of its steps
(`Chain.run_resolve`), so the laws of slots carry over.

* `assign_isLens` — if the target is read without a fault, the assignment writes
  it and nothing else; if not, it records one fault and changes nothing.
-/

namespace Arbor

open Eval Filter

/-- The node is a chain over the variable `root` that takes these steps. -/
inductive Chain (program : Program) (root : String) : NodeId → List Step → Prop where
  | var {id : NodeId} {ty : Ty} (hnode : program.node? id = some (.var root ty)) :
    Chain program root id []
  | subscript {id base index : NodeId} {n : Int64} {steps : List Step}
    (hnode : program.node? id = some (.subscript base index))
    (hindex : program.node? index = some (.int n)) (hbase : Chain program root base steps) :
    Chain program root id (steps ++ [.index n id])
  | select {id base : NodeId} {name : String} {steps : List Step}
    (hnode : program.node? id = some (.select base name)) (hbase : Chain program root base steps) :
    Chain program root id (steps ++ [.field name id])

variable {program : Program} {root : String} {id : NodeId} {steps : List Step} {frame : Frame}
  {state : State}

/-! ### Reading a chain -/

theorem subscript_apply {ev : Evaluator} {base index : NodeId} {m : Marked} {n : Int64}
    {middle : State} (hbase : ev frame base state = some (m, middle))
    (hindex : ev frame index middle = some (.plain (.int n), middle)) :
    subscript ev frame id base index state = settle id ((Step.index n id).read m) middle := by
  rw [subscript, Run.bind_apply, hbase, Option.bind_some, Run.bind_apply, hindex,
    Option.bind_some, Step.read]
  cases m.unresolved <;> rfl

theorem select_apply {ev : Evaluator} {base : NodeId} {m : Marked} {name : String}
    {middle : State} (hbase : ev frame base state = some (m, middle)) :
    select ev frame id base name state = settle id ((Step.field name id).read m) middle := by
  rw [select, Run.bind_apply, hbase, Option.bind_some, Step.read]
  cases m.unresolved <;> rfl

/-- The last step of a path, taken by its node after the others. -/
theorem settle_read_readAt {step : Step} {m : Marked} (hid : step.node = id) :
    settle id (step.read (readAt steps m).1) (state.recordAll (readAt steps m).2) =
      some ((readAt (steps ++ [step]) m).1,
        state.recordAll (readAt (steps ++ [step]) m).2) := by
  subst hid
  rw [readAt_concat]
  cases step.read (readAt steps m).1 with
  | ok part => rfl
  | error fault =>
    rw [State.recordAll_append, State.recordAll_singleton]
    rfl

/-- A chain yields what its steps read from the variable, and records their faults. -/
theorem Chain.evaluates (h : Chain program root id steps) (frame : Frame) (state : State) :
    Evaluates program frame id state (readAt steps (state.read root)).1
      (state.recordAll (readAt steps (state.read root)).2) := by
  induction h with
  | var hnode =>
    refine ⟨1, ?_⟩
    rw [eval_succ, Eval.rule, hnode, readAt, State.recordAll_nil]
    rfl
  | @subscript id base index n steps hnode hindex _ ih =>
    rw [evaluates_iff_rule]
    filter_upwards [evaluates_iff_eventually.mp ih,
      evaluates_iff_eventually.mp (evaluates_literal hindex rfl)] with fuel hbase hindex
    rw [Eval.rule, hnode]
    exact (subscript_apply hbase hindex).trans (settle_read_readAt rfl)
  | @select id base name steps hnode _ ih =>
    rw [evaluates_iff_rule]
    filter_upwards [evaluates_iff_eventually.mp ih] with fuel hbase
    rw [Eval.rule, hnode]
    exact (select_apply hbase).trans (settle_read_readAt rfl)

/-! ### Writing a chain -/

/-- The evaluator knows integer literals. -/
def Evaluator.KnowsIntegers (program : Program) (ev : Evaluator) : Prop :=
  ∀ (frame : Frame) (index : NodeId) (n : Int64) (state : State),
    program.node? index = some (.int n) → ev frame index state = some (.plain (.int n), state)

theorem eval_knowsIntegers (program : Program) {fuel : Nat} (hfuel : 0 < fuel) :
    (eval program fuel).KnowsIntegers program := by
  intro frame index n state hnode
  obtain ⟨fuel, rfl⟩ : ∃ k, fuel = k + 1 := ⟨fuel - 1, by omega⟩
  rw [eval_succ, Eval.rule, hnode]
  rfl

/-- The place at the end of a path in a variable, or a fault if the variable is unbound. -/
def placeAt (state : State) (root : String) (steps : List Step) (fault : Located Fault) :
    Except (Located Fault) Place :=
  (boundIn? state root).elim (.error fault) fun scope => .ok ⟨scope, root, steps⟩

/-- A chain is resolved to the place its steps lead to. -/
theorem Chain.run_resolve (h : Chain program root id steps) :
    ∃ fault, ∀ (ev : Evaluator) (frame : Frame) (state : State) (depth : Nat),
      ev.KnowsIntegers program → steps.length < depth →
      (resolve program ev frame depth id).run state =
        some (placeAt state root steps fault, state) := by
  induction h with
  | @var id ty hnode =>
    refine ⟨⟨.unresolvedRoot root, id⟩, fun ev frame state depth hev hdepth => ?_⟩
    obtain ⟨depth, rfl⟩ : ∃ n, depth = n + 1 := ⟨depth - 1, by omega⟩
    rw [run_resolve_succ, hnode, placeAt]
    cases hscope : boundIn? state root <;> simp [Run.bind_apply, hscope]
  | @subscript id base index n steps hnode hindex _ ih =>
    obtain ⟨fault, ih⟩ := ih
    refine ⟨fault, fun ev frame state depth hev hdepth => ?_⟩
    rw [List.length_append, List.length_singleton] at hdepth
    obtain ⟨depth, rfl⟩ : ∃ n, depth = n + 1 := ⟨depth - 1, by omega⟩
    rw [run_resolve_succ, hnode]
    dsimp only
    rw [Run.bind_apply, ih ev frame state depth hev (by omega), placeAt, placeAt]
    cases boundIn? state root <;> simp [Run.bind_apply, hev _ _ _ state hindex, Value.int?]
  | @select id base name steps hnode _ ih =>
    obtain ⟨fault, ih⟩ := ih
    refine ⟨fault, fun ev frame state depth hev hdepth => ?_⟩
    rw [List.length_append, List.length_singleton] at hdepth
    obtain ⟨depth, rfl⟩ : ∃ n, depth = n + 1 := ⟨depth - 1, by omega⟩
    rw [run_resolve_succ, hnode]
    dsimp only
    rw [Run.bind_apply, ih ev frame state depth hev (by omega), placeAt, placeAt]
    cases boundIn? state root <;> rfl

/-- An assignment to a chain of at least one step writes a place. -/
theorem Chain.assign_eq {target value : NodeId} (h : Chain program root target steps)
    (hsteps : steps ≠ []) (ev : Evaluator) (fuel : Nat) (declares : Bool) :
    assign program ev fuel frame id target value declares =
      (do assignPlace program ev fuel frame target value; pure .undefined) := by
  cases h with
  | var => exact absurd rfl hsteps
  | subscript hnode => exact assign_eq_assignPlace (.inl ⟨_, _, hnode⟩) ..
  | select hnode => exact assign_eq_assignPlace (.inr ⟨_, _, hnode⟩) ..

/-- An assignment to a chain stores the value in the place, or records one fault. -/
theorem Chain.evaluates_assign {target value : NodeId} {declares : Bool} {v : Marked}
    (h : Chain program root target steps) (hsteps : steps ≠ [])
    (hnode : program.node? id = some (.assign target value declares))
    (hvalue : Evaluates program frame value state v state) :
    ∃ fault, Evaluates program frame id state .undefined
      (state.after ((placeAt state root steps fault).bind fun place => place.store v state)) := by
  obtain ⟨fault, hresolve⟩ := h.run_resolve
  refine ⟨fault, evaluates_iff_rule.mpr ?_⟩
  filter_upwards [evaluates_iff_eventually.mp hvalue, eventually_gt_atTop steps.length]
    with fuel hvalue hfuel
  have hplace := hresolve (eval program fuel) frame state fuel
    (eval_knowsIntegers program (Nat.zero_lt_of_lt hfuel)) hfuel
  rw [Eval.rule, hnode]
  dsimp only
  rw [h.assign_eq hsteps, assignPlace, bind_assoc, Run.bind_apply, hplace, Option.bind_some,
    bind_assoc, Run.bind_apply, hvalue, Option.bind_some, Run.bind_apply, writePlace_apply]
  rfl

/-- No step leads into an unbound variable. -/
theorem readAt_miss_faults (hsteps : steps ≠ []) : (readAt steps .miss).2 ≠ [] := by
  cases steps with
  | nil => exact absurd rfl hsteps
  | cons step rest =>
    obtain ⟨fault, hfault⟩ : ∃ fault, step.read .miss = .error fault := by
      cases step <;> exact ⟨_, rfl⟩
    rw [readAt_cons_of_error hfault]
    exact List.cons_ne_nil _ _

/-! ### The laws -/

/-- From `state` to `final`, the slot that the chain `target` names has got the value `v`. -/
structure SlotWritten (program : Program) (frame : Frame) (root : String) (target : NodeId)
    (steps : List Step) (v : Marked) (state final : State) : Prop where
  faults : final.faults = state.faults
  readsBack : Evaluates program frame target final v.cleaned final
  /-- Chains that part from the target yield what they yielded, with the same faults. -/
  elsewhere : ∀ other others, Chain program root other others → Diverge steps others →
    ∃ m recorded, Evaluates program frame other state m (state.recordAll recorded) ∧
      Evaluates program frame other final m (final.recordAll recorded)
  unchanged : ∃ scope, boundIn? state root = some scope ∧ OnlyChanged scope root state final

/-- Giving the variable the value in which the slot is replaced writes the slot. -/
theorem Chain.slotWritten {target : NodeId} {scope : Scope} {v new : Marked}
    (htarget : Chain program root target steps) (hscope : boundIn? state root = some scope)
    (hclean : (state.read root).Everywhere (·.isClean = true))
    (hnew : replaceAt v.cleaned steps (state.read root) = .ok new) :
    SlotWritten program frame root target steps v state
      (scope.update (NameMap.insert (scope.variables state) root new) state) where
  faults := by cases scope <;> rfl
  readsBack := by
    have heval := htarget.evaluates frame
      (scope.update (NameMap.insert (scope.variables state) root new) state)
    rwa [read_update hscope, readAt_replaceAt_self hclean hnew, State.recordAll_nil] at heval
  elsewhere other others hother hdiverge := by
    have hafter := hother.evaluates frame
      (scope.update (NameMap.insert (scope.variables state) root new) state)
    rw [read_update hscope, readAt_replaceAt_of_diverge hclean hnew hdiverge] at hafter
    exact ⟨_, _, hother.evaluates frame state, hafter⟩
  unchanged := ⟨scope, hscope, onlyChanged_update scope root new state⟩

/-- **Assignment to a slot is a lens.**  If the target, read as an expression, records no fault,
then the assignment records none either and writes the slot and nothing else.  If it records
any, then the assignment records one and changes no variable. -/
theorem assign_isLens {target value : NodeId} {declares : Bool} {v : Marked}
    (hnode : program.node? id = some (.assign target value declares))
    (htarget : Chain program root target steps) (hsteps : steps ≠ [])
    (hlocals : state.locals.Clean) (hglobals : state.globals.Clean)
    (hvalue : Evaluates program frame value state v state) :
    ∃ m recorded, Evaluates program frame target state m (state.recordAll recorded) ∧
      (recorded = [] → ∃ final, Evaluates program frame id state .undefined final ∧
        SlotWritten program frame root target steps v state final) ∧
      (recorded ≠ [] → ∃ fault, Evaluates program frame id state .undefined
        (state.record fault)) := by
  obtain ⟨fault, hassign⟩ := htarget.evaluates_assign hsteps hnode hvalue
  refine ⟨_, _, htarget.evaluates frame state, ?_⟩
  cases hscope : boundIn? state root with
  | none =>
    have hmiss := readAt_miss_faults hsteps
    rw [read_of_boundIn?_eq_none hscope]
    rw [placeAt, hscope] at hassign
    exact ⟨fun hnone => absurd hnone hmiss, fun _ => ⟨fault, hassign⟩⟩
  | some scope =>
    have hold := get?_of_boundIn? hscope
    have hclean : (state.read root).Everywhere (·.isClean = true) := by
      cases scope with
      | «local» => exact hlocals root _ hold
      | global => exact hglobals root _ hold
    have hstore : Place.store ⟨scope, root, steps⟩ v state = _ := Place.store_eq v hold
    rw [placeAt, hscope, Option.elim_some] at hassign
    change Evaluates program frame id state .undefined
      (state.after (Place.store ⟨scope, root, steps⟩ v state)) at hassign
    rw [hstore] at hassign
    constructor
    · intro hnone
      obtain ⟨new, hnew⟩ := replaceAt_eq_ok_of_readAt hclean hnone v.cleaned
      rw [hnew] at hassign
      exact ⟨_, hassign, htarget.slotWritten hscope hclean hnew⟩
    · intro hsome
      cases hnew : replaceAt v.cleaned steps (state.read root) with
      | ok new => exact absurd (readAt_faults_of_replaceAt hclean hnew) hsome
      | error fault =>
        rw [hnew] at hassign
        exact ⟨fault, hassign⟩

/-- The assignment of 9 to the second element of a field. -/
def fieldProgram : Program where
  nodes := #[.int 2, .int 1, .int 9, .var "rail" (.record [("posts", .array .int ⟨0⟩)]),
    .select ⟨3⟩ "posts", .subscript ⟨4⟩ ⟨1⟩, .assign ⟨5⟩ ⟨2⟩ false]

/-- The record that holds the field, before the assignment. -/
def rail : Marked :=
  .record [("posts", .array .int ⟨0⟩)]
    [("posts", .list .int ⟨0⟩ [.plain (.int 4), .plain (.int 5)])]

theorem assign_isLens_fieldProgram :
    ∃ final,
      Evaluates fieldProgram {} ⟨6⟩ { globals := .ofPairs [("rail", rail)] } .undefined final ∧
      SlotWritten fieldProgram {} "rail" ⟨5⟩ [.field "posts" ⟨4⟩, .index 1 ⟨5⟩]
        (.plain (.int 9)) { globals := .ofPairs [("rail", rail)] } final := by
  have htarget : Chain fieldProgram "rail" ⟨5⟩ [.field "posts" ⟨4⟩, .index 1 ⟨5⟩] :=
    .subscript rfl rfl (.select rfl (.var rfl))
  have hrail : rail.Everywhere (·.isClean = true) := by
    refine Marked.everywhere_record rfl fun field hfield => ?_
    rw [List.mem_singleton.mp hfield]
    have hint : ∀ n, (Marked.plain (.int n)).Everywhere (·.isClean = true) :=
      fun n => Marked.everywhere_of_parts_eq_nil rfl rfl
    exact Marked.everywhere_list rfl (List.forall_mem_cons.mpr
      ⟨hint 4, List.forall_mem_singleton.mpr (hint 5)⟩)
  have hglobals : (Namespace.ofPairs [("rail", rail)]).Clean :=
    Namespace.everywhere_ofPairs fun pair hpair => by
      rw [List.mem_singleton.mp hpair]
      exact hrail
  have hnode : fieldProgram.node? ⟨6⟩ = some (.assign ⟨5⟩ ⟨2⟩ false) := rfl
  have hvalue : Evaluates fieldProgram {} ⟨2⟩ { globals := .ofPairs [("rail", rail)] }
      (.plain (.int 9)) { globals := .ofPairs [("rail", rail)] } := ⟨1, rfl⟩
  obtain ⟨m, recorded, hread, hwrites, -⟩ := assign_isLens hnode htarget
    (List.cons_ne_nil _ _) Namespace.everywhere_empty hglobals hvalue
  have hexact : Evaluates fieldProgram {} ⟨5⟩ { globals := .ofPairs [("rail", rail)] }
      (.plain (.int 5)) { globals := .ofPairs [("rail", rail)] } := ⟨3, rfl⟩
  have hfaults := congrArg State.faults (hread.unique hexact).2
  exact hwrites (by simpa [State.recordAll] using hfaults)

end Arbor

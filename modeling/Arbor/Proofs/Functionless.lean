import Arbor.Proofs.Lockstep

/-!
# Evaluation without functions

No node and no default makes a function: function values come from outside only.
So evaluation that starts without functions never has one at hand, calls nothing
and therefore only ever moves down in the program.

That a body is never entered is said by an evaluator that starts a node only if
that is admitted, and has no result otherwise (`evalWithin`): it does the same as
evaluation without such a condition.

* `hereditary_notFunction` — evaluation hands on that there are no functions;
* `eval_matches_within` — without functions, nothing is started but what a node
  starts without a call, and where references end, so does evaluation;
* `rule_admitting` — the same of a single rule, whatever evaluates the nodes below;
* `Eval.call_of_notFunction` — a call records one fault of its own.
-/

namespace Arbor

/-! ### Values without functions -/

/-- The value is not a function. -/
def Marked.NotFunction (m : Marked) : Prop :=
  ∀ signature, m.value ≠ .function signature

/-- No variable is a function, and nothing nested in one is. -/
abbrev State.Functionless (state : State) : Prop :=
  state.Everywhere Marked.NotFunction

/-- No way to build or change a value makes a function. -/
theorem hereditary_notFunction (program : Program) :
    Hereditary program Marked.NotFunction :=
  hereditary_function program fun _ => False

theorem State.functionless_empty : State.Functionless {} :=
  State.everywhere_empty

/-! ### Evaluation that starts only what is admitted -/

section Within

open Classical in
/-- The same, but without a result where starting is not admitted. -/
noncomputable def Evaluator.admitting (starts : Frame → State → Prop) (ev : Evaluator) :
    Evaluator :=
  fun frame id state => if starts frame state then ev frame id state else none

/-- Evaluation in which a rule of one frame may start a node in another frame and a state only if
`starts` admits it. -/
noncomputable def evalWithin (program : Program) (starts : Frame → Frame → State → Prop) :
    Nat → Evaluator
  | 0, _, _ => Run.outOfFuel
  | fuel + 1, frame, id =>
    Eval.rule program ((evalWithin program starts fuel).admitting (starts frame)) fuel frame id

variable {program : Program} {lacking : Prop} {P : Marked → Prop}

theorem Evaluator.admitting_apply {starts : Frame → State → Prop} {frame : Frame} {state : State}
    (h : starts frame state) (ev : Evaluator) (id : NodeId) :
    ev.admitting starts frame id state = ev frame id state :=
  if_pos h

/-- Where starting is admitted, the condition changes nothing. -/
theorem Run.Matches.admitting {run : Run Marked} {ev : Evaluator} {frame : Frame} {id : NodeId}
    {post : Marked → State → Prop} {starts : Frame → State → Prop}
    (h : Matches lacking Eq (State.Everywhere P) run (ev frame id) post)
    (hstarts : ∀ state, state.Everywhere P → starts frame state) :
    Matches lacking Eq (State.Everywhere P) run (ev.admitting starts frame id) post := by
  intro state state' hstate heq
  subst heq
  rw [Evaluator.admitting_apply (hstarts state hstate)]
  exact h state state hstate rfl

/-- All that a rule starts without a call is admitted. -/
structure Frame.Gate (okay : Frame → Prop) (P : Marked → Prop)
    (starts : Frame → Frame → State → Prop) : Prop where
  here : ∀ {frame : Frame} {state : State}, okay frame → state.Everywhere P →
    starts frame frame state
  sequence : ∀ {frame : Frame} {state : State}, okay frame → state.Everywhere P →
    starts frame frame.sequence state
  okay_sequence : ∀ {frame : Frame}, okay frame → okay frame.sequence
  static : ∀ {frame : Frame}, okay frame → starts frame {} {}
  okay_static : okay {}

/-- **Without functions, no call is entered.**  Evaluation ends with as much fuel as the paths of
references are long. -/
theorem eval_matches_within {okay : Frame → Prop} {starts : Frame → Frame → State → Prop}
    (hgate : Frame.Gate okay Marked.NotFunction starts) (fuel : Nat) {frame : Frame}
    (hframe : okay frame) {id : NodeId}
    (henough : lacking ∨ program.EndsWithin fuel id) :
    Run.Matches lacking Eq State.Functionless (eval program fuel frame id)
      (evalWithin program starts fuel frame id) (HandedOn Marked.NotFunction) := by
  induction fuel generalizing frame id with
  | zero => exact Run.matches_outOfFuel (henough.resolve_right not_false)
  | succ fuel ih =>
    -- all that the fuel left is enough for, or all nodes if fuel may lack
    let inside : NodeId → Prop := fun ref => lacking ∨ program.EndsWithin fuel ref
    have hregion : program.Region program (fun _ => True) inside := by
      refine ⟨fun _ => .refl program _, fun hid hrefers => ?_, fun _ _ => trivial⟩
      exact hid.imp_right fun h => h.of_refers hrefers
    have hinside : ∀ ref, program.Refers id ref → inside ref :=
      fun ref hrefers => henough.imp_right fun h => h ref hrefers
    have below : Lockstep program lacking Eq inside Marked.NotFunction (eval program fuel)
        ((evalWithin program starts fuel).admitting (starts frame)) fuel frame frame id := by
      refine
        { isFunction := rfl
          here := fun child hchild => (ih hframe hchild).admitting fun _ => hgate.here hframe
          sequence := fun child hchild => (ih (hgate.okay_sequence hframe) hchild).admitting
            fun _ => hgate.sequence hframe
          static := fun length hlength => ?_
          invoke := fun signature _ hfunction => absurd rfl (hfunction signature)
          enough := ?_ }
      · obtain ⟨heq, hends, -⟩ := Run.matches_eq_iff.mp (ih hgate.okay_static hlength) {}
          State.functionless_empty
        rw [Evaluator.admitting_apply (hgate.static hframe)]
        exact ⟨heq, hends⟩
      · by_cases hlacking : lacking
        · exact .inl hlacking
        · exact .inr fun target htarget => htarget.resolve_left hlacking
    exact eval_succ_matches (hereditary_notFunction program) congruence_eq hregion below
      (.refl program id) hinside fun _ _ _ => trivial

end Within

/-! ### What follows -/

variable {program : Program} {frame : Frame} {id : NodeId} {state : State}

/-- A rule of one frame starts no deeper frame, and starts nothing while there is a function. -/
def Frame.Uncalled (frame started : Frame) (state : State) : Prop :=
  started.depth ≤ frame.depth ∧ state.Functionless

theorem Frame.gate_uncalled :
    Frame.Gate (fun _ => True) Marked.NotFunction Frame.Uncalled where
  here _ hstate := ⟨le_rfl, hstate⟩
  sequence _ hstate := ⟨le_rfl, hstate⟩
  okay_sequence _ := trivial
  static _ := ⟨Nat.zero_le _, State.functionless_empty⟩
  okay_static := trivial

/-- Whatever evaluates the nodes below, a rule starts nothing that is not admitted. -/
theorem rule_admitting {ev : Evaluator} (hev : ev.HandsOn Marked.NotFunction) (fuel : Nat)
    (frame : Frame) (id : NodeId) (hstate : state.Functionless) :
    Eval.rule program (ev.admitting frame.Uncalled) fuel frame id state =
      Eval.rule program ev fuel frame id state := by
  have hself : ∀ frame id, Run.Matches True Eq State.Functionless (ev frame id) (ev frame id)
      (HandedOn Marked.NotFunction) := fun frame id =>
    Run.matches_eq_iff.mpr fun state hstate => ⟨rfl, .inl trivial, hev frame id state hstate⟩
  have below : Lockstep program True Eq (fun _ => True) Marked.NotFunction ev
      (ev.admitting frame.Uncalled) fuel frame frame id :=
    { isFunction := rfl
      here := fun child _ => (hself frame child).admitting fun _ hstate => ⟨le_rfl, hstate⟩
      sequence := fun child _ =>
        (hself frame.sequence child).admitting fun _ hstate => ⟨le_rfl, hstate⟩
      static := fun length _ => ⟨Evaluator.admitting_apply
        ⟨Nat.zero_le _, State.functionless_empty⟩ ev length, .inl trivial⟩
      invoke := fun signature _ hfunction => absurd rfl (hfunction signature)
      enough := .inl trivial }
  have hmatches := Eval.rule_matches congruence_eq program.region_self below (.refl program id)
    (fun _ _ => trivial) fun _ _ _ => trivial
  exact (Run.matches_eq_iff.mp hmatches state hstate).1

/-- Evaluation without functions ends with as much fuel as the paths of references are long. -/
theorem Program.EndsWithin.eval_isSome {fuel : Nat} (h : program.EndsWithin fuel id)
    (hstate : state.Functionless) : (eval program fuel frame id state).isSome := by
  have hmatches : Run.Matches False Eq State.Functionless (eval program fuel frame id)
      (evalWithin program Frame.Uncalled fuel frame id) (HandedOn Marked.NotFunction) :=
    eval_matches_within Frame.gate_uncalled fuel trivial (.inr h)
  exact ((Run.matches_eq_iff.mp hmatches) state hstate).2.1.resolve_left not_false

theorem Program.EndsWithin.staticLength_isSome {fuel : Nat} (h : program.EndsWithin fuel id) :
    (staticLength (eval program fuel) id).run.isSome := by
  have hends : (eval program fuel {} id {}).isSome := h.eval_isSome State.functionless_empty
  obtain ⟨reached, hreached⟩ := Option.isSome_iff_exists.mp hends
  rw [staticLength, hreached]
  rfl

theorem staticLength_isSome (hprogram : program.Descending) {length : NodeId} {fuel : Nat}
    (hfuel : program.rank length ≤ fuel) :
    (staticLength (eval program fuel) length).run.isSome :=
  (hprogram.endsWithin hfuel).staticLength_isSome

theorem defaultValue_isSome (hprogram : program.Descending) (ty : Ty) {fuel : Nat}
    (hfuel : program.size < fuel) :
    (defaultValue (staticLength (eval program fuel)) ty).run.isSome :=
  defaultValue_isSome_of_lengths fun length _ =>
    staticLength_isSome hprogram ((program.rank_le length).trans hfuel)

/-- Without functions, a call records one fault of its own, right after its callee has been
evaluated. -/
theorem Evaluates.call_of_functionless {callee : NodeId} {args : Span NodeId} {m : Marked}
    {final : State} (hnode : program.node? id = some (.call callee args))
    (hstate : state.Functionless) (h : Evaluates program frame id state m final) :
    ∃ f middle fault, Evaluates program frame callee state f middle ∧ m = .undefined ∧
      final = middle.record ⟨fault, id⟩ ∧
      (fault = .unresolvedCallee ∨ fault = .notCallable f.value.ty) := by
  obtain ⟨fuel, h⟩ := h
  cases fuel with
  | zero => cases h
  | succ fuel =>
    rw [eval_succ, Eval.rule, hnode] at h
    obtain ⟨f, middle, hcallee, hrest⟩ := Run.bind_eq_some_iff.mp h
    have hf : f.cleaned.NotFunction := (eval_everywhere (hereditary_notFunction program) fuel frame
      callee state hstate f middle hcallee).1.self
    have hsignature : f.value.ty.signature? = none := by
      rw [Option.eq_none_iff_forall_not_mem]
      exact fun signature hmem => hf signature (Value.signature?_ty_eq_some_iff.mp hmem)
    refine ⟨f, middle, ?_⟩
    rw [hsignature] at hrest
    split at hrest
    · cases hrest
      exact ⟨_, ⟨fuel, hcallee⟩, rfl, rfl, .inl rfl⟩
    · cases hrest
      exact ⟨_, ⟨fuel, hcallee⟩, rfl, rfl, .inr rfl⟩

end Arbor

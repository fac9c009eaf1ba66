import Arbor.Context
import Arbor.Proofs.Echo

/-!
# What was recorded before

Faults and mismatches are recorded one behind the other, and no rule looks at those that are
there already.  Putting some in front therefore commutes with evaluation and with checking: both
do what they do from an empty list, and what they record comes behind.  This holds for any fuel,
so they also end in the same cases.

A run that only appends may as well record in a list of its own, which is absorbed afterwards:
put behind the faults from before.  A host may run a statement sequence so, in a nested context.
Evaluation itself may begin such a list for every statement sequence and for the body of every
function that is called, and that comes to the same as one list for all.

* `Run.Appends.absorbed_eq` — a run that only appends, with a list of its own;
* `State.congruence_preceded`, `eval_appends` — earlier faults commute with evaluation;
* `check_preceded` — earlier mismatches commute with checking;
* `evalNested_eq` — evaluation with nested lists;
* `Context.eval_nested` — a nested context that is absorbed;
* `eval_and_check_append` — evaluation, checking and contexts together.
-/

namespace Arbor

/-- The same variables, with these faults in front. -/
def State.preceded (state : State) (earlier : Array (Located Fault)) : State :=
  { state with faults := earlier ++ state.faults }

theorem State.preceded_faults (state : State) :
    State.preceded { state with faults := #[] } state.faults = state := by
  rw [preceded, Array.append_empty]

theorem State.preceded_recordAll (state : State) (recorded : List (Located Fault))
    (earlier : Array (Located Fault)) :
    (state.recordAll recorded).preceded earlier = (state.preceded earlier).recordAll recorded := by
  have hfaults : earlier ++ (state.faults ++ recorded) = earlier ++ state.faults ++ recorded :=
    Array.ext' (by simp)
  rw [recordAll, preceded, hfaults, preceded, recordAll]

/-- Whatever is done to a state is done behind the faults in front. -/
theorem State.congruence_preceded (earlier : Array (Located Fault)) :
    Congruence (fun _ => True) fun state state' => state' = state.preceded earlier where
  get? h _ scope := by
    subst h
    cases scope <;> rfl
  insert h _ scope m := by
    subst h
    cases scope <;> rfl
  record h fault := by
    subst h
    rw [preceded, record, preceded, record, Array.append_push]
  enter h locals := by
    subst h
    rfl
  leave h h' := by
    subst h h'
    rfl

/-! ### Runs that only append -/

namespace Run

variable {α β : Type}

/-- Run with a list of faults of its own, and put it behind the faults from before. -/
def absorbed (run : Run α) : Run α := fun state =>
  (run { state with faults := #[] }).map fun reached =>
    (reached.1, reached.2.preceded state.faults)

/-- Faults in front make no difference to the run, and stay in front. -/
def Appends (run : Run α) : Prop :=
  ∀ (state : State) (earlier : Array (Located Fault)), run (state.preceded earlier) =
    (run state).map fun reached => (reached.1, reached.2.preceded earlier)

/-- A run that only appends may as well record in a list of its own. -/
theorem Appends.absorbed_eq {run : Run α} (h : run.Appends) : run.absorbed = run := by
  funext state
  rw [absorbed, ← h, state.preceded_faults]

theorem appends_pure (a : α) : (pure a : Run α).Appends := fun _ _ => rfl

theorem Appends.bind {run : Run α} {next : α → Run β} (h : run.Appends)
    (hnext : ∀ a, (next a).Appends) : (run >>= next).Appends := by
  intro state earlier
  rw [bind_apply, h, bind_apply]
  cases run state with
  | none => rfl
  | some reached => exact hnext reached.1 reached.2 earlier

end Run

/-! ### Evaluation and checking -/

/-- Evaluation only appends to the faults. -/
theorem eval_appends (program : Program) (fuel : Nat) (frame : Frame) (id : NodeId) :
    (eval program fuel frame id).Appends := by
  intro state earlier
  have R := State.congruence_preceded earlier
  have hmatches : Run.Matches True (fun state state' => state' = state.preceded earlier)
      (State.Everywhere fun _ => True) (eval program fuel frame id) (eval program fuel frame id)
      (HandedOn fun _ => True) :=
    eval_matches R program.region_self (hereditary_true program) (Frame.paired_eq R)
      (fun _ _ => trivial) (fun _ _ _ _ => rfl) fuel rfl trivial
  rcases hmatches state _ state.everywhere_true rfl with ⟨-, hnone, hnone'⟩ |
    ⟨m, final, _, hrun, hrun', rfl, -⟩
  · rw [hnone, hnone', Option.map_none]
  · rw [hrun, hrun', Option.map_some]

theorem evaluates_preceded_iff {program : Program} {frame : Frame} {id : NodeId}
    {state final : State} {m : Marked} {earlier : Array (Located Fault)} :
    Evaluates program frame id (state.preceded earlier) m final ↔
      ∃ alone, Evaluates program frame id state m alone ∧ final = alone.preceded earlier := by
  constructor
  · intro h
    obtain ⟨fuel, hfuel⟩ := h
    rw [eval_appends program fuel frame id state earlier] at hfuel
    obtain ⟨⟨m', alone⟩, halone, heq⟩ := Option.map_eq_some_iff.mp hfuel
    obtain ⟨rfl, rfl⟩ := Prod.mk.inj heq
    exact ⟨alone, ⟨fuel, halone⟩, rfl⟩
  · intro h
    obtain ⟨alone, ⟨fuel, hfuel⟩, rfl⟩ := h
    exact ⟨fuel, by rw [eval_appends program fuel frame id state earlier, hfuel, Option.map_some]⟩

/-- Mismatches in front make no difference to checking, and stay in front. -/
theorem check_preceded (program : Program) (result : Option Ty) (fuel : Nat) (id : NodeId)
    (mismatches : Array (Located Mismatch)) : check program result fuel id mismatches =
      (check program result fuel id #[]).map fun reached =>
        (reached.1, mismatches ++ reached.2) := by
  have hself : Checking.Echoes True #[] 0 (Ty.Blurred #[]) (check program result fuel id)
      (check program result fuel id) := check_echoes_self le_rfl (.inl trivial)
  cases hempty : check program result fuel id #[] with
  | some reached =>
    obtain ⟨ty, added⟩ := reached
    obtain ⟨added', heq, happend⟩ := hself.exists_added hempty
    rw [happend mismatches, heq, Array.empty_append, Option.map_some]
  | none =>
    rw [Option.map_none, Option.eq_none_iff_forall_ne_some]
    intro reached hreached
    obtain ⟨ty, final⟩ := reached
    obtain ⟨added, -, happend⟩ := hself.exists_added hreached
    cases (happend #[]).symm.trans hempty

/-! ### Nested lists -/

namespace Eval

/-- A statement sequence with a list of its own. -/
def nestedSequence (ev : Evaluator) (frame : Frame) (statements : List NodeId) : Run Marked :=
  (sequence ev frame.sequence statements).absorbed

/-- Run a function's body over its arguments, with a list of its own, unless too many calls are
active. -/
def nestedInvoke (ev : Evaluator) (frame : Frame) (id : NodeId) (signature : Signature)
    (args : List Marked) : Run Marked :=
  match frame.refusal? with
  | some limit => Run.fail (.callDepth limit) id
  | none => do
    let result ← withLocals (parameterScope signature args)
      (ev frame.callee signature.body).absorbed
    pure result.cleaned

/-- A call, whose callee and arguments are evaluated in place. -/
def nestedCall (ev : Evaluator) (frame : Frame) (id callee : NodeId) (args : List NodeId) :
    Run Marked := do
  let callee ← ev frame callee
  if callee.unresolved then Run.fail .unresolvedCallee id
  else
    match callee.value.ty.signature? with
    | none => Run.fail (.notCallable callee.value.ty) id
    | some signature =>
      if args.length ≠ signature.arity then Run.fail (.argumentCount signature args.length) id
      else do
        let values ← args.mapM (ev frame)
        nestedInvoke ev frame id signature values

/-- What one node does, if statement sequences and called functions record in lists of their
own. -/
def nestedRule (program : Program) (ev : Evaluator) (fuel : Nat) : Evaluator := fun frame id =>
  match program.node? id with
  | some (.block body) => nestedSequence ev frame (program.children body)
  | some (.call callee args) => nestedCall ev frame id callee (program.children args)
  | _ => rule program ev fuel frame id

variable {ev : Evaluator} (hev : ∀ (frame : Frame) (id : NodeId), (ev frame id).Appends)
include hev

theorem sequence_appends (frame : Frame) (statements : List NodeId) :
    (sequence ev frame statements).Appends := by
  induction statements with
  | nil => exact Run.appends_pure _
  | cons statement rest ih =>
    refine (hev frame statement).bind fun m => ?_
    split
    · exact Run.appends_pure m
    · exact ih

theorem nestedInvoke_eq (frame : Frame) (id : NodeId) (signature : Signature)
    (args : List Marked) :
    nestedInvoke ev frame id signature args = invoke ev frame id signature args := by
  rw [nestedInvoke, (hev frame.callee signature.body).absorbed_eq]
  rfl

theorem nestedCall_eq (frame : Frame) (id callee : NodeId) (args : List NodeId) :
    nestedCall ev frame id callee args = call ev frame id callee args := by
  have hinvoke : ∀ signature values,
      nestedInvoke ev frame id signature values = invoke ev frame id signature values :=
    nestedInvoke_eq hev frame id
  -- the two calls differ only in how they invoke the function
  simp only [nestedCall, hinvoke]
  rfl

/-- One level with nested lists does what it does with one list, if the levels below only
append. -/
theorem nestedRule_eq (program : Program) (fuel : Nat) (frame : Frame) (id : NodeId) :
    nestedRule program ev fuel frame id = rule program ev fuel frame id := by
  rw [nestedRule]
  split
  · next body hnode =>
    rw [nestedSequence, (sequence_appends hev _ _).absorbed_eq, rule, hnode]
  · next callee args hnode => rw [nestedCall_eq hev, rule, hnode]
  · rfl

end Eval

/-- Evaluate a node, with a list of faults of its own for every statement sequence and for every
function that is called. -/
def evalNested (program : Program) : Nat → Evaluator
  | 0, _, _ => Run.outOfFuel
  | fuel + 1, frame, id => Eval.nestedRule program (evalNested program fuel) fuel frame id

/-- **Nested lists of faults come to one list.**  Evaluation may begin a list of its own wherever a
statement sequence or a function's body begins, and absorb it where that ends. -/
theorem evalNested_eq (program : Program) (fuel : Nat) :
    evalNested program fuel = eval program fuel := by
  induction fuel with
  | zero => rfl
  | succ fuel ih =>
    funext frame id
    rw [evalNested, ih, eval_succ]
    exact Eval.nestedRule_eq (eval_appends program fuel) program fuel frame id

/-- A nested context that is absorbed afterwards does what a statement sequence does in place. -/
theorem Context.eval_nested (context : Context) (program : Program) (fuel : Nat) (id : NodeId) :
    (context.nested.eval program fuel id).map
        (fun reached => (reached.1, context.resume reached.2 true)) =
      (Arbor.eval program fuel context.frame.sequence id context.state).map fun reached =>
        (reached.1, { context with state := reached.2 }) := by
  conv_rhs => rw [← (eval_appends program fuel context.frame.sequence id).absorbed_eq]
  rw [Context.eval, Run.absorbed, Option.map_map, Option.map_map]
  rfl

/-- **Evaluation and checking only append.**  A node that is evaluated after faults have been
recorded yields the same value and leaves the same variables as without them, and its own faults
come behind; checking does the same with mismatches.  Nothing changes if a statement sequence
records in a list of its own that is absorbed afterwards. -/
theorem eval_and_check_append (program : Program) (fuel : Nat) (id : NodeId) :
    (∀ (frame : Frame) (state : State), eval program fuel frame id state =
      (eval program fuel frame id { state with faults := #[] }).map fun reached =>
        (reached.1, { reached.2 with faults := state.faults ++ reached.2.faults })) ∧
    (∀ (result : Option Ty) (mismatches : Array (Located Mismatch)),
      check program result fuel id mismatches =
        (check program result fuel id #[]).map fun reached =>
          (reached.1, mismatches ++ reached.2)) ∧
    ∀ context : Context,
      (context.nested.eval program fuel id).map
          (fun reached => (reached.1, context.resume reached.2 true)) =
        (eval program fuel context.frame.sequence id context.state).map fun reached =>
          (reached.1, { context with state := reached.2 }) := by
  refine ⟨fun frame state => ?_, fun result mismatches => ?_, fun context => ?_⟩
  · conv_lhs => rw [← (eval_appends program fuel frame id).absorbed_eq]
    rfl
  · exact check_preceded program result fuel id mismatches
  · exact context.eval_nested program fuel id

end Arbor

import Arbor.Proofs.Conformance

/-!
# The first fault

Evaluation goes on after a fault, with undefined in place of a value, so one
fault causes others.  What a checked program promises is about the first one:
it is excusable, and as long as there is none, everything is as the checker
expects (`Excused`).

Two kinds of runs are told apart.  A run `Computes` if it ends in every state of
given variables, leaves these as they are, and only adds faults.  A run
`Executes` if it ends in every state and only adds faults, but may change
variables.  Both end in any state, whatever holds there: after a fault nothing is
known about the values, but the run goes on.

* `Run.Computes.bind`, `Run.Executes.bind` — what the second part promises may
  rest on what the first one yields;
* `Run.Computes.mapM` — the same for a list of runs.
-/

namespace Arbor

variable {α β : Type}

/-- If no fault was recorded, then `post`, and else the first one is excusable. -/
def Excused (post : Prop) : List (Located Fault) → Prop
  | [] => post
  | first :: _ => first.cause.Excusable

theorem Excused.imp {post post' : Prop} {recorded : List (Located Fault)}
    (h : Excused post recorded) (himp : post → post') : Excused post' recorded := by
  cases recorded with
  | nil => exact himp h
  | cons first rest => exact h

/-- The first fault of two parts is that of the first part, if there is one. -/
theorem Excused.append {post post' : Prop} {recorded more : List (Located Fault)}
    (h : Excused post recorded) (hmore : post → Excused post' more) :
    Excused post' (recorded ++ more) := by
  cases recorded with
  | nil => exact hmore h
  | cons first rest => exact h

namespace Run

/-- The run ends in every state of these variables, leaves them, and only adds faults. Under the
hypothesis, `post` holds of the outcome, or the first fault is excusable. -/
def Computes (locals globals : Namespace) (run : Run α) (hyp : Prop) (post : α → Prop) : Prop :=
  ∀ faults, ∃ a recorded,
    run ⟨locals, globals, faults⟩ = some (a, State.recordAll ⟨locals, globals, faults⟩ recorded) ∧
      (hyp → Excused (post a) recorded)

/-- The run ends in every state and only adds faults. From a good state, `post` holds of the
outcome, or the first fault is excusable. -/
def Executes (run : Run α) (good : State → Prop) (post : α → State → Prop) : Prop :=
  ∀ state, ∃ a final recorded, run state = some (a, final) ∧
    final.faults = (state.recordAll recorded).faults ∧
      (good state → Excused (post a final) recorded)

section Computes

variable {locals globals : Namespace} {hyp hyp' : Prop}

theorem computes_pure {a : α} {post : α → Prop} (h : hyp → post a) :
    (pure a : Run α).Computes locals globals hyp post := by
  intro faults
  refine ⟨a, [], ?_, h⟩
  rw [State.recordAll_nil, pure_apply]

theorem computes_fail {fault : Fault} {node : NodeId} {post : Marked → Prop}
    (h : hyp → fault.Excusable) : (fail fault node).Computes locals globals hyp post := by
  intro faults
  refine ⟨.undefined, [⟨fault, node⟩], ?_, h⟩
  rw [State.recordAll_singleton, fail_apply]

theorem Computes.weaken {run : Run α} {post : α → Prop}
    (h : run.Computes locals globals hyp post) (hhyp : hyp' → hyp) :
    run.Computes locals globals hyp' post := by
  intro faults
  obtain ⟨a, recorded, hrun, hpost⟩ := h faults
  exact ⟨a, recorded, hrun, fun h' => hpost (hhyp h')⟩

theorem Computes.imp {run : Run α} {post post' : α → Prop}
    (h : run.Computes locals globals hyp post) (himp : ∀ a, post a → post' a) :
    run.Computes locals globals hyp post' := by
  intro faults
  obtain ⟨a, recorded, hrun, hpost⟩ := h faults
  exact ⟨a, recorded, hrun, fun hh => (hpost hh).imp (himp a)⟩

theorem Computes.bind {run : Run α} {next : α → Run β} {post : α → Prop} {post' : β → Prop}
    (h : run.Computes locals globals hyp post)
    (hnext : ∀ a, (next a).Computes locals globals (hyp ∧ post a) post') :
    (run >>= next).Computes locals globals hyp post' := by
  intro faults
  obtain ⟨a, recorded, hrun, hpost⟩ := h faults
  obtain ⟨b, more, hrest, hpost'⟩ := hnext a (faults ++ recorded)
  refine ⟨b, recorded ++ more, ?_, fun hh => (hpost hh).append fun ha => hpost' ⟨hh, ha⟩⟩
  rw [bind_apply, hrun, Option.bind_some, State.recordAll_append]
  exact hrest

theorem Computes.mapM {run : α → Run β} {causes : List α} {Rel : α → β → Prop}
    (h : ∀ a ∈ causes, (run a).Computes locals globals hyp (Rel a)) :
    (causes.mapM run).Computes locals globals hyp fun outcomes =>
      List.Forall₂ Rel causes outcomes := by
  induction causes with
  | nil => exact computes_pure fun _ => .nil
  | cons a rest ih =>
    obtain ⟨hhead, hrest⟩ := List.forall_mem_cons.mp h
    rw [List.mapM_cons]
    refine hhead.bind fun b => ((ih hrest).weaken And.left).bind fun bs => ?_
    exact computes_pure fun hyps => .cons hyps.1.2 hyps.2

/-- A node that settles on a value or a fault. -/
theorem computes_settle {id : NodeId} {outcome : Except Fault Marked} {post : Marked → Prop}
    (h : hyp → Yields post outcome) :
    (Eval.settle id outcome).Computes locals globals hyp post := by
  cases outcome with
  | ok m => exact computes_pure h
  | error fault => exact computes_fail h

/-- A length or a default that is known. -/
theorem sizing_bind {computed : Sizing α} {outcome : Except DefaultFault α}
    (h : computed.run = some outcome) (next : Except DefaultFault α → Run β) :
    (sizing computed >>= next) = next outcome := by
  funext state
  rw [bind_apply, sizing, aside_apply, h]
  rfl

end Computes

section Executes

variable {good good' : State → Prop}

theorem executes_pure {a : α} {post : α → State → Prop} (h : ∀ state, good state → post a state) :
    (pure a : Run α).Executes good post := by
  intro state
  refine ⟨a, state, [], rfl, ?_, h state⟩
  rw [State.recordAll_nil]

theorem executes_fail {fault : Fault} {node : NodeId} {post : Marked → State → Prop}
    (h : ∀ state, good state → fault.Excusable) : (fail fault node).Executes good post := by
  intro state
  refine ⟨.undefined, state.record ⟨fault, node⟩, [⟨fault, node⟩], fail_apply .., ?_, h state⟩
  rw [State.recordAll_singleton]

theorem executes_modify {change : State → State} {post : Unit → State → Prop}
    (hfaults : ∀ state, (change state).faults = state.faults)
    (h : ∀ state, good state → post () (change state)) :
    (modify change : Run Unit).Executes good post := by
  intro state
  refine ⟨(), change state, [], modify_apply change state, ?_, h state⟩
  rw [State.recordAll_nil, hfaults]

theorem Executes.imp {run : Run α} {post post' : α → State → Prop} (h : run.Executes good post)
    (hgood : ∀ state, good' state → good state)
    (himp : ∀ a final, post a final → post' a final) : run.Executes good' post' := by
  intro state
  obtain ⟨a, final, recorded, hrun, hfaults, hpost⟩ := h state
  exact ⟨a, final, recorded, hrun, hfaults,
    fun hstate => (hpost (hgood state hstate)).imp (himp a final)⟩

theorem Executes.bind {run : Run α} {next : α → Run β} {post : α → State → Prop}
    {post' : β → State → Prop} (h : run.Executes good post)
    (hnext : ∀ a, (next a).Executes (post a) post') : (run >>= next).Executes good post' := by
  intro state
  obtain ⟨a, middle, recorded, hrun, hfaults, hpost⟩ := h state
  obtain ⟨b, final, more, hrest, hfaults', hpost'⟩ := hnext a middle
  refine ⟨b, final, recorded ++ more, ?_, ?_, fun hgood => (hpost hgood).append hpost'⟩
  · rw [bind_apply, hrun, Option.bind_some, hrest]
  · rw [hfaults', State.recordAll_append, State.recordAll, hfaults]
    rfl

/-- A run that computes leaves what only depends on the variables. -/
theorem Executes.of_computes {run : Run α} (post : Namespace → Namespace → α → Prop)
    (h : ∀ locals globals, run.Computes locals globals (good ⟨locals, globals, #[]⟩)
      (post locals globals))
    (hgood : ∀ {locals globals} faults faults',
      good ⟨locals, globals, faults⟩ → good ⟨locals, globals, faults'⟩) :
    run.Executes good fun a final => good final ∧ post final.locals final.globals a := by
  intro state
  obtain ⟨locals, globals, faults⟩ := state
  obtain ⟨a, recorded, hrun, hpost⟩ := h locals globals faults
  refine ⟨a, _, recorded, hrun, rfl, fun hstate => ?_⟩
  exact (hpost (hgood _ _ hstate)).imp fun ha => ⟨hgood _ _ hstate, ha⟩

end Executes

end Run

end Arbor

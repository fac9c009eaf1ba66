import Arbor.Proofs.Following

/-!
# A limit that refuses nothing

The limit on active calls is looked at in one place only, when a body is about to
run, and a call that is refused is reported.  So as long as no call is refused,
nothing depends on the limit: under a larger one, or under none, evaluation does
exactly the same.

A refusal shows in the faults, which are never taken back.  It is enough to
compare how many of them are refusals before and after.

* `Eval.call_unrefused` — a call in two frames, of which the second has a looser limit;
* `eval_unrefused` — evaluation of any node, with any fuel;
* `evaluates_of_unrefused` — the limit makes no difference until it is hit.
-/

namespace Arbor

/-- Whether the fault reports a refused call. -/
def Fault.isRefusal : Fault → Bool
  | .callDepth _ => true
  | _ => false

/-- How many refused calls have been reported. -/
def State.refusals (state : State) : Nat :=
  state.faults.countP fun fault => fault.cause.isRefusal

theorem State.refusals_record (state : State) (fault : Located Fault) :
    (state.record fault).refusals =
      state.refusals + if fault.cause.isRefusal = true then 1 else 0 :=
  Array.countP_push

theorem State.refusals_le_record (state : State) (fault : Located Fault) :
    state.refusals ≤ (state.record fault).refusals := by
  have hrecord := state.refusals_record fault
  omega

/-- In the other frame at least as many calls may be active; else the frames are alike. -/
structure Frame.Looser (frame other : Frame) : Prop where
  isFunction : other.isFunction = frame.isFunction
  depth : other.depth = frame.depth
  limit : ∀ most, other.limit = some most → ∃ limit, frame.limit = some limit ∧ limit ≤ most

namespace Frame.Looser

variable {frame other : Frame}

theorem sequence (h : frame.Looser other) : frame.sequence.Looser other.sequence :=
  ⟨rfl, h.depth, h.limit⟩

theorem callee (h : frame.Looser other) : frame.callee.Looser other.callee :=
  ⟨rfl, congrArg (· + 1) h.depth, h.limit⟩

/-- What is not refused under the tighter limit is not refused under the looser one. -/
theorem refusal? (h : frame.Looser other) (hnone : frame.refusal? = none) :
    other.refusal? = none := by
  cases hother : other.limit with
  | none => rw [Frame.refusal?, hother, Option.filter_none]
  | some most =>
    obtain ⟨limit, hlimit, hle⟩ := h.limit most hother
    rw [Frame.refusal?, hlimit, Option.filter_eq_none_iff] at hnone
    have hfree : ¬ limit ≤ frame.depth := by simpa using hnone limit rfl
    have hdepth := h.depth
    rw [Frame.refusal?, hother, Option.filter_eq_none_iff]
    intro given hgiven
    cases hgiven
    have hfree' : ¬ most ≤ other.depth := by omega
    simpa using hfree'

end Frame.Looser

variable {α β : Type} {k : Nat}

/-- As long as no more than `k` calls have been refused, both runs do the same from any state in
which `k` calls have been. -/
abbrev Run.FollowsUnrefused (k : Nat) (run run' : Run α) : Prop :=
  Run.Follows (fun state => state.refusals ≤ k)
    (fun state state' => state' = state ∧ state.refusals = k) run run' Eq

/-- What runs twice and takes no refusal back does the same twice. -/
theorem Run.followsUnrefused_self {run : Run α}
    (h : ∀ state, run.Ensures state fun _ final => state.refusals ≤ final.refusals) :
    Run.FollowsUnrefused k run run := by
  intro state a final hrun hcalm
  have hle := h state a final hrun
  refine ⟨hle.trans hcalm, fun state' hrelated => ?_⟩
  obtain ⟨rfl, hstate⟩ := hrelated
  have hfinal : final.refusals = k := by omega
  exact ⟨a, final, hrun, ⟨rfl, hfinal⟩, rfl⟩

theorem simulation_unrefused :
    Simulation (fun state => state.refusals ≤ k)
      (fun state state' => state' = state ∧ state.refusals = k) Eq where
  toSubstitution := substitution_eq
  fault := by
    intro state fault hcalm
    have hle := state.refusals_le_record fault
    refine ⟨hle.trans hcalm, fun state' hrelated => ?_⟩
    obtain ⟨rfl, hstate⟩ := hrelated
    have hfinal : (state'.record fault).refusals = k := by omega
    exact ⟨rfl, hfinal⟩
  same := .inl fun m m' h => h.symm

namespace Eval

variable {program : Program} {ev : Evaluator} {fuel : Nat} {frame other : Frame} {id : NodeId}

theorem writePlace_unrefused (place : Except (Located Fault) Place) (m : Marked) :
    Run.FollowsUnrefused k (writePlace place m) (writePlace place m) := by
  refine Run.followsUnrefused_self fun state _ final hrun => ?_
  rw [writePlace_apply, Option.some.injEq, Prod.mk.injEq] at hrun
  obtain ⟨-, rfl⟩ := hrun
  cases hstored : place.bind fun place => place.store m state with
  | error fault => exact state.refusals_le_record fault
  | ok stored =>
    cases place with
    | error fault => cases hstored
    | ok place =>
      have hfaults : stored.faults = state.faults := Place.store_faults hstored
      show state.refusals ≤ stored.refusals
      rw [State.refusals, State.refusals, hfaults]

theorem bindVariable_unrefused (hframe : other.isFunction = frame.isFunction) (name : String)
    (declares : Bool) (m : Marked) :
    Run.FollowsUnrefused k (bindVariable frame name declares m)
      (bindVariable other name declares m) := by
  have hsame : bindVariable other name declares m = bindVariable frame name declares m := by
    unfold bindVariable scopeOf
    rw [hframe]
  rw [hsame]
  refine Run.followsUnrefused_self fun state => Run.ensures_modify.mpr ?_
  cases scopeOf frame state name declares m <;> exact le_rfl

/-- Other locals do not matter: they report nothing. -/
theorem withLocals_unrefused (locals : Namespace) {run run' : Run α}
    (h : Run.FollowsUnrefused k run run') :
    Run.FollowsUnrefused k (withLocals locals run) (withLocals locals run') := by
  intro state a final hrun hcalm
  rw [withLocals_apply] at hrun
  obtain ⟨reached, hreached, heq⟩ := Option.map_eq_some_iff.mp hrun
  cases heq
  obtain ⟨hstate, hsame⟩ := h _ reached.1 reached.2 hreached hcalm
  refine ⟨hstate, fun state' hrelated => ?_⟩
  obtain ⟨rfl, hcount⟩ := hrelated
  obtain ⟨b, final', hrun', ⟨rfl, hfinal⟩, rfl⟩ := hsame _ ⟨rfl, hcount⟩
  refine ⟨reached.1, _, ?_, ⟨rfl, hfinal⟩, rfl⟩
  rw [withLocals_apply, hrun']
  rfl

/-- A refused call need not be followed; else both bodies run. -/
theorem invoke_unrefused (hframes : frame.Looser other) (signature : Signature)
    (args : List Marked)
    (hbody : Run.FollowsUnrefused k (ev frame.callee signature.body)
      (ev other.callee signature.body)) :
    Run.FollowsUnrefused k (invoke ev frame id signature args)
      (invoke ev other id signature args) := by
  cases hrefusal : frame.refusal? with
  | some limit =>
    unfold invoke
    rw [hrefusal]
    intro state m final hrun hcalm
    cases hrun
    have hmost : (state.record ⟨.callDepth limit, id⟩).refusals ≤ k := hcalm
    have hmore := state.refusals_record ⟨.callDepth limit, id⟩
    simp only [Fault.isRefusal, if_true] at hmore
    have hstate : state.refusals < k := by omega
    -- one refusal more than `k` is not calm
    exact ⟨hstate.le, fun state' hrelated => absurd hrelated.2 hstate.ne⟩
  | none =>
    unfold invoke
    rw [hrefusal, hframes.refusal? hrefusal]
    exact (withLocals_unrefused _ hbody).bind_eq fun result => Run.follows_pure rfl

variable (hev : ∀ child, Run.FollowsUnrefused k (ev frame child) (ev other child))
include hev

theorem call_unrefused (hframes : frame.Looser other)
    (hbody : ∀ body, Run.FollowsUnrefused k (ev frame.callee body) (ev other.callee body))
    (callee : NodeId) (args : List NodeId) :
    Run.FollowsUnrefused k (call ev frame id callee args) (call ev other id callee args) := by
  have hfail : ∀ fault, Run.FollowsUnrefused k (Run.fail fault id) (Run.fail fault id) :=
    fun fault => fail_follows simulation_unrefused fault id fun _ => rfl
  refine (hev callee).bind_eq fun f => ?_
  split
  · exact hfail _
  · split
    · exact hfail _
    · next signature _ =>
      split
      · exact hfail _
      · have hargs : Run.FollowsUnrefused k (args.mapM (ev frame)) (args.mapM (ev other)) := by
          have hall := Run.Follows.mapM (fun _ => rfl) fun arg (_ : arg ∈ args) => hev arg
          rwa [List.forall₂_eq_eq_eq] at hall
        exact hargs.bind_eq fun values => invoke_unrefused hframes signature values (hbody _)

theorem resolve_unrefused (depth : Nat) (target : NodeId) :
    Run.FollowsUnrefused k (resolve program ev frame depth target).run
      (resolve program ev other depth target).run := by
  induction depth generalizing target with
  | zero =>
    rw [run_resolve_zero]
    exact Run.follows_outOfFuel
  | succ depth ih =>
    rw [run_resolve_succ, run_resolve_succ]
    cases program.node? target with
    | none => exact Run.follows_pure rfl
    | some node =>
      cases node with
      | var name ty =>
        have hget : Run.FollowsUnrefused k (get : Run State) get :=
          Run.followsUnrefused_self fun state => Run.ensures_get.mpr le_rfl
        refine hget.bind_eq fun state => ?_
        cases boundIn? state name <;> exact Run.follows_pure rfl
      | subscript base index =>
        refine (ih base).bind_eq fun outcome => ?_
        cases outcome with
        | error fault => exact Run.follows_pure rfl
        | ok place =>
          refine (hev index).bind_eq fun m => ?_
          cases m.value.int? <;> exact Run.follows_pure rfl
      | select base name =>
        refine (ih base).bind_eq fun outcome => ?_
        cases outcome <;> exact Run.follows_pure rfl
      | _ => exact Run.follows_pure rfl

theorem assign_unrefused (hframe : other.isFunction = frame.isFunction) (target value : NodeId)
    (declares : Bool) :
    Run.FollowsUnrefused k (assign program ev fuel frame id target value declares)
      (assign program ev fuel other id target value declares) := by
  have hundefined : Run.FollowsUnrefused k (pure Marked.undefined) (pure Marked.undefined) :=
    Run.follows_pure rfl
  have hplace : Run.FollowsUnrefused k (assignPlace program ev fuel frame target value)
      (assignPlace program ev fuel other target value) :=
    (resolve_unrefused hev fuel target).bind_eq fun place =>
      (hev value).bind_eq fun m => writePlace_unrefused place m
  have hreport : ∀ fault, Run.FollowsUnrefused k (Run.report fault id) (Run.report fault id) :=
    fun fault => Run.followsUnrefused_self fun state =>
      Run.ensures_report.mpr (state.refusals_le_record _)
  unfold assign
  cases program.node? target with
  | none => exact (hreport _).bind_eq fun _ => hundefined
  | some node =>
    cases node with
    | var name ty =>
      exact (hev value).bind_eq fun m =>
        (bindVariable_unrefused hframe name declares m).bind_eq fun _ => hundefined
    | subscript base index => exact hplace.bind_eq fun _ => hundefined
    | select base name => exact hplace.bind_eq fun _ => hundefined
    | _ => exact (hreport _).bind_eq fun _ => hundefined

end Eval

/-- Under a looser limit, evaluation does the same until a call is refused. -/
theorem eval_unrefused (program : Program) (fuel : Nat) {frame other : Frame}
    (hframes : frame.Looser other) (id : NodeId) :
    Run.FollowsUnrefused k (eval program fuel frame id) (eval program fuel other id) := by
  induction fuel generalizing frame other id with
  | zero => exact Run.follows_outOfFuel
  | succ fuel ih =>
    rw [eval_succ, eval_succ]
    have hread : ∀ name, Run.FollowsUnrefused k
        (get >>= fun state => pure ((state.lookup name).getD .miss))
        (get >>= fun state => pure ((state.lookup name).getD .miss)) := by
      intro name
      refine Run.followsUnrefused_self fun state => ?_
      rw [Run.ensures_bind, Run.ensures_get, Run.ensures_pure]
    exact Eval.rule_follows simulation_unrefused
      (fun _ _ child _ => ⟨ih hframes child, ih hframes.sequence child⟩)
      (fun name _ _ => hread name)
      (fun target value declares _ =>
        Eval.assign_unrefused (ih hframes) hframes.isFunction target value declares)
      (fun callee args _ => Eval.call_unrefused (ih hframes) hframes (ih hframes.callee) callee _)

/-- **The limit on active calls makes no difference until it is hit.**  If evaluation under a limit
ends and refuses no call, then under every larger limit, and under none, it ends as well, with the
same value, the same faults and the same variables. -/
theorem evaluates_of_unrefused {program : Program} {frame : Frame} {id : NodeId}
    {state final : State} {m : Marked} {limit : Nat} (hlimit : frame.limit = some limit)
    (hends : Evaluates program frame id state m final)
    (hunrefused : final.refusals = state.refusals) {limit' : Option Nat}
    (hmore : ∀ most, limit' = some most → limit ≤ most) :
    Evaluates program { frame with limit := limit' } id state m final := by
  obtain ⟨fuel, hfuel⟩ := hends
  have hframes : frame.Looser { frame with limit := limit' } :=
    ⟨rfl, rfl, fun most hmost => ⟨limit, hlimit, hmore most hmost⟩⟩
  obtain ⟨-, hsame⟩ := eval_unrefused program fuel hframes id state m final hfuel hunrefused.le
  obtain ⟨m', final', hrun, ⟨rfl, -⟩, rfl⟩ := hsame state ⟨rfl, rfl⟩
  exact ⟨fuel, hrun⟩

/-- A function that calls another one, which assigns to a variable. -/
def relayProgram : Program where
  nodes := #[.int 7, .var "seen" .int, .assign ⟨1⟩ ⟨0⟩ false, .var "inner" .undefined,
    .call ⟨3⟩ ⟨0, 0⟩, .var "outer" .undefined, .call ⟨5⟩ ⟨0, 0⟩]

/-- Both functions are bound. -/
def relayState : State where
  globals := .ofPairs [("inner", .plain (.function ⟨[], .undefined, ⟨2⟩⟩)),
    ("outer", .plain (.function ⟨[], .undefined, ⟨4⟩⟩)), ("seen", .plain (.int 0))]

/-- Two calls are active at once, which is just what the limit allows. -/
theorem evaluates_of_unrefused_relayProgram :
    let final := { relayState with globals := relayState.globals.insert "seen" (.plain (.int 7)) }
    Evaluates relayProgram { limit := some 2 } ⟨6⟩ relayState .undefined final ∧
    final.refusals = relayState.refusals ∧
    Evaluates relayProgram { limit := some 3 } ⟨6⟩ relayState .undefined final ∧
    Evaluates relayProgram {} ⟨6⟩ relayState .undefined final := by
  intro final
  have hlimit : ({ limit := some 2 } : Frame).limit = some 2 := rfl
  have hends : Evaluates relayProgram { limit := some 2 } ⟨6⟩ relayState .undefined final :=
    ⟨4, rfl⟩
  have hunrefused : final.refusals = relayState.refusals := rfl
  refine ⟨hends, hunrefused, evaluates_of_unrefused hlimit hends hunrefused ?_,
    evaluates_of_unrefused hlimit hends hunrefused nofun⟩
  intro most hmost
  cases hmost
  decide

end Arbor

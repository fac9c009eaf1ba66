import Arbor.Proofs.HostSession
import Arbor.Proofs.Lockstep

/-!
# Calls by the host and calls inside the program

A host calls a function by its name, with the arguments paired with the names of
the parameters.  A call inside the program evaluates the callee and the
arguments first and runs the body one call deeper.  Both are the same: depth
matters for nothing but the limit on active calls, the body sees nothing of the
caller's locals, and parameters are bound in the same way.

Because of the different depths, a limit for the host corresponds to one that is
greater by one inside the program, and a refused call prints this limit.

* `Located.SameButLimit` — how the recorded faults compare;
* `Session.CallSite` — a call inside the program that corresponds to a call by
  the host;
* `host_call_evaluates` — the two have the same result.
-/

namespace Arbor

open Filter

/-- The faults that a call by the host hands back. -/
def CallError.faultsOf : Except CallError Marked → Array (Located Fault)
  | .ok _ => #[]
  | .error error => error.faults

/-! ### Faults of a deeper call -/

/-- The same fault, save for the limit that a refused call prints. -/
inductive Located.SameButLimit (limit : Option Nat) : Located Fault → Located Fault → Prop where
  | same (fault : Located Fault) : SameButLimit limit fault fault
  | refused {n : Nat} (hlimit : limit = some n) (node : NodeId) :
    SameButLimit limit ⟨.callDepth n, node⟩ ⟨.callDepth (n + 1), node⟩

namespace Located.SameButLimit

variable {limit : Option Nat} {fault fault' : Located Fault}

/-- Without a limit no call is refused. -/
theorem eq_of_no_limit (h : SameButLimit none fault fault') : fault = fault' := by
  cases h with
  | same => rfl
  | refused hlimit => cases hlimit

end Located.SameButLimit

/-- The second state holds the same variables, and has recorded, after `before`, what the first
has recorded. -/
def State.Deeper (limit : Option Nat) (before : Array (Located Fault)) (state state' : State) :
    Prop :=
  ∃ recorded, List.Forall₂ (Located.SameButLimit limit) state.faults.toList recorded ∧
    state' = State.recordAll { state with faults := before } recorded

theorem State.deeper_refl (limit : Option Nat) (locals globals : Namespace)
    (before : Array (Located Fault)) :
    Deeper limit before { locals, globals } { locals, globals, faults := before } :=
  ⟨[], .nil, (recordAll_nil _).symm⟩

theorem State.Deeper.record {limit : Option Nat} {before : Array (Located Fault)}
    {state state' : State} (h : Deeper limit before state state') {fault fault' : Located Fault}
    (hfault : fault.SameButLimit limit fault') :
    Deeper limit before (state.record fault) (state'.record fault') := by
  obtain ⟨recorded, hrecorded, rfl⟩ := h
  refine ⟨recorded ++ [fault'], ?_, ?_⟩
  · rw [State.record, Array.toList_push]
    exact List.rel_append hrecorded (.cons hfault .nil)
  · rw [recordAll_append, recordAll_singleton]
    rfl

theorem State.congruence_deeper (limit : Option Nat) (before : Array (Located Fault)) :
    Congruence (fun _ => True) (Deeper limit before) where
  get? := by
    intro state state' name h _ scope
    obtain ⟨recorded, -, rfl⟩ := h
    cases scope <;> rfl
  insert := by
    intro state state' name h _ scope m
    obtain ⟨recorded, hrecorded, rfl⟩ := h
    refine ⟨recorded, ?_, ?_⟩ <;> cases scope <;> first | exact hrecorded | rfl
  record h fault := h.record (.same fault)
  enter := by
    intro state state' h locals
    obtain ⟨recorded, hrecorded, rfl⟩ := h
    exact ⟨recorded, hrecorded, rfl⟩
  leave := by
    intro state state' final final' h hfinal
    obtain ⟨_, -, rfl⟩ := h
    obtain ⟨recorded, hrecorded, rfl⟩ := hfinal
    exact ⟨recorded, hrecorded, rfl⟩

/-- The second frame is one call deeper, and so is its limit. -/
structure Frame.Deeper (limit : Option Nat) (frame frame' : Frame) : Prop where
  isFunction : frame'.isFunction = frame.isFunction
  depth : frame'.depth = frame.depth + 1
  limit_eq : frame.limit = limit
  limit_eq' : frame'.limit = limit.map (· + 1)

theorem Frame.paired_deeper (limit : Option Nat) (before : Array (Located Fault)) :
    Frame.Paired (State.Deeper limit before) (Frame.Deeper limit) where
  isFunction h := h.isFunction
  sequence h := ⟨rfl, h.depth, h.limit_eq, h.limit_eq'⟩
  call := by
    intro frame frame' h
    have hcallee : Frame.Deeper limit frame.callee frame'.callee :=
      ⟨rfl, congrArg (· + 1) h.depth, h.limit_eq, h.limit_eq'⟩
    unfold Frame.refusal?
    rw [h.limit_eq, h.limit_eq', h.depth]
    cases limit with
    | none => exact .inl ⟨rfl, rfl, hcallee⟩
    | some n =>
      by_cases hn : n ≤ frame.depth
      · refine .inr ⟨n, n + 1, by simp [hn], by simp [hn], fun id state state' hstate => ?_⟩
        exact hstate.record (.refused rfl id)
      · exact .inl ⟨by simpa using hn, by simpa using hn, hcallee⟩

/-- Running a node one call deeper yields the same. -/
theorem eval_deeper (program : Program) {limit : Option Nat} (before : Array (Located Fault))
    (fuel : Nat) {frame frame' : Frame} (hframes : Frame.Deeper limit frame frame') (id : NodeId) :
    Run.Matches True (State.Deeper limit before) (fun _ => True) (eval program fuel frame id)
      (eval program fuel frame' id) fun _ _ => True := by
  have hmatches : Run.Matches True (State.Deeper limit before) (State.Everywhere fun _ => True)
      (eval program fuel frame id) (eval program fuel frame' id) (HandedOn fun _ => True) :=
    eval_matches (State.congruence_deeper limit before) program.region_self
      (hereditary_true program) (Frame.paired_deeper limit before) (fun _ _ => trivial)
      (fun _ _ _ _ => rfl) fuel hframes trivial
  exact fun state state' _ => hmatches.any state state' state.everywhere_true

/-! ### Calls by the host -/

/-- What a call by the host ends with. -/
def Session.Calls (session : Session) (name : String) (args : Entries Marked)
    (outcome : Except CallError Marked) (session' : Session) : Prop :=
  ∃ fuel, session.call fuel name args = some (outcome, session')

/-- A call of a declared function runs its body. -/
theorem Session.call_of_declared {session : Session} {name : String} {signature : Signature}
    (h : session.declaration? name = some signature.ty) (fuel : Nat) (args : Entries Marked) :
    session.call fuel name args = (session.run fuel signature args).map fun reached =>
      (if reached.2.faults.isEmpty then .ok reached.1.cleaned
        else .error (.execution reached.1.cleaned reached.2.faults),
        { session with globals := reached.2.globals }) := by
  have hfunction : session.function name = .ok signature := by
    rw [function, h]
    dsimp only
    rw [Ty.signature?_ty]
  cases hrun : session.run fuel signature args <;> simp [call, hfunction, hrun]

/-- The value and the faults of a run that ended. -/
theorem CallError.valueOf_and_faultsOf (m : Marked) (faults : Array (Located Fault)) :
    CallError.valueOf (if faults.isEmpty then .ok m else .error (.execution m faults)) = m ∧
      CallError.faultsOf (if faults.isEmpty then .ok m else .error (.execution m faults)) =
        faults := by
  split
  · next h => exact ⟨rfl, (Array.isEmpty_iff.mp h).symm⟩
  · exact ⟨rfl, rfl⟩

/-! ### Calls inside the program -/

/-- A call inside the program that corresponds to a call by the host: the callee is a variable of
the name under which the function is declared, and no local hides the global. -/
structure Session.CallSite (session : Session) (name : String) (signature : Signature)
    (args : List Marked) (frame : Frame) (id : NodeId) (state : State) : Prop where
  declared : session.declaration? name = some signature.ty
  bound : session.globals.get? name = some (.plain (.function signature))
  node : ∃ callee span ty, session.program.node? id = some (.call callee span) ∧
    session.program.node? callee = some (.var name ty) ∧
    List.Forall₂ (fun arg m => Evaluates session.program frame arg state m state)
      (session.program.children span) args
  arity : args.length = signature.arity
  depth : frame.depth = 0
  limit : frame.limit = session.callLimit.map (· + 1)
  globals : state.globals = session.globals
  visible : state.locals.get? name = none

/-- Arguments without effects are evaluated one after the other. -/
theorem eventually_mapM {program : Program} {frame : Frame} {state : State} {ids : List NodeId}
    {values : List Marked}
    (h : List.Forall₂ (fun id m => Evaluates program frame id state m state) ids values) :
    ∀ᶠ fuel in atTop, ids.mapM (eval program fuel frame) state = some (values, state) := by
  induction h with
  | nil => exact .of_forall fun _ => rfl
  | cons hhead _ ih =>
    filter_upwards [evaluates_iff_eventually.mp hhead, ih] with fuel hhead hrest
    rw [List.mapM_cons]
    exact Run.bind_eq_some_iff.mpr
      ⟨_, _, hhead, Run.bind_eq_some_iff.mpr ⟨_, _, hrest, rfl⟩⟩

/-- Such a call runs the body, over the bound arguments and the globals. -/
theorem Session.CallSite.eventually_eval {session : Session} {name : String}
    {signature : Signature} {args : List Marked} {frame : Frame} {id : NodeId} {state : State}
    (h : session.CallSite name signature args frame id state) :
    ∀ᶠ fuel in atTop, Eval.rule session.program (eval session.program fuel) fuel frame id state =
      (eval session.program fuel frame.callee signature.body
        { state with locals := Eval.parameterScope signature args }).map fun reached =>
          (reached.1.cleaned, { reached.2 with locals := state.locals }) := by
  obtain ⟨callee, span, ty, hnode, hcallee, hargs⟩ := h.node
  have hlookup : state.lookup name = some (.plain (.function signature)) := by
    rw [State.lookup, h.visible, h.globals, h.bound]
    rfl
  have hvalue : Evaluates session.program frame callee state (.plain (.function signature))
      state := by
    refine ⟨1, ?_⟩
    rw [eval_succ, Eval.rule, hcallee]
    simp [Run.bind_apply, hlookup]
  have hcount : (session.program.children span).length = signature.arity :=
    hargs.length_eq.trans h.arity
  have hadmitted : frame.refusal? = none := by
    rw [Frame.refusal?, h.limit, h.depth]
    cases session.callLimit <;> simp
  filter_upwards [evaluates_iff_eventually.mp hvalue, eventually_mapM hargs] with fuel hvalue hargs
  rw [Eval.rule, hnode]
  dsimp only
  rw [Eval.call, Run.bind_apply, hvalue]
  simp only [Option.bind_some, Marked.plain, Value.ty, Ty.signature?_ty, hcount, ne_eq,
    not_true_eq_false, if_false, Bool.false_eq_true]
  rw [Run.bind_apply, hargs, Option.bind_some, Eval.invoke, hadmitted]
  dsimp only
  rw [Run.bind_apply, Eval.withLocals_apply]
  cases eval session.program fuel frame.callee signature.body
    { state with locals := Eval.parameterScope signature args } <;> rfl

/-- **Calls by the host and calls inside the program are the same.**  A host calls a function that
is declared and bound under a name.  A call of this name outside of any other call, with arguments
that evaluate to the host's without any effect, ends if the host's call does, and then with the
same value, the same globals, the same faults and the locals it started from.  A limit corresponds
to one that is greater by one, and faults compare up to the limit they print. -/
theorem host_call_evaluates {session : Session} {name : String} {signature : Signature}
    {args : List Marked} {frame : Frame} {id : NodeId} {state : State}
    (h : session.CallSite name signature args frame id state) :
    (∀ outcome session',
      session.Calls name (signature.params.names.zip args) outcome session' →
      ∃ recorded,
        List.Forall₂ (Located.SameButLimit session.callLimit)
          (CallError.faultsOf outcome).toList recorded ∧
        (session.callLimit = none → recorded = (CallError.faultsOf outcome).toList) ∧
        Evaluates session.program frame id state (CallError.valueOf outcome)
          (State.recordAll { state with globals := session'.globals } recorded)) ∧
    ∀ m final, Evaluates session.program frame id state m final →
      ∃ outcome session',
        session.Calls name (signature.params.names.zip args) outcome session' := by
  have hframes : Frame.Deeper session.callLimit
      { isFunction := true, limit := session.callLimit } frame.callee :=
    ⟨rfl, congrArg (· + 1) h.depth, rfl, h.limit⟩
  have hstart : State.Deeper session.callLimit state.faults
      { locals := Eval.parameterScope signature args, globals := session.globals }
      { state with locals := Eval.parameterScope signature args } := by
    have hrefl := State.deeper_refl session.callLimit (Eval.parameterScope signature args)
      session.globals state.faults
    rwa [← h.globals] at hrefl ⊢
  have hbody := fun fuel => eval_deeper session.program state.faults fuel hframes signature.body _ _
    trivial hstart
  constructor
  · intro outcome session' hcalls
    obtain ⟨fuel, hcall⟩ := hcalls
    rw [Session.call_of_declared h.declared] at hcall
    obtain ⟨⟨m, reached⟩, hrun, hdone⟩ := Option.map_eq_some_iff.mp hcall
    cases hdone
    obtain ⟨hvalue, hfaults⟩ := CallError.valueOf_and_faultsOf m.cleaned reached.faults
    rw [hvalue, hfaults]
    have hlater : ∀ᶠ fuel in atTop, session.run fuel signature (signature.params.names.zip args) =
        some (m, reached) := evaluates_iff_eventually.mp ⟨fuel, hrun⟩
    obtain ⟨fuel, hrun, heval⟩ := (hlater.and h.eventually_eval).exists
    rcases hbody fuel with ⟨-, hnone, -⟩ | ⟨m', final, final', hhost, hdeeper, hfinal, -⟩
    · cases hnone.symm.trans hrun
    · cases hhost.symm.trans hrun
      obtain ⟨recorded, hrecorded, rfl⟩ := hfinal
      refine ⟨recorded, hrecorded, fun hnone => ?_, fuel + 1, ?_⟩
      · rw [hnone] at hrecorded
        have hsame := hrecorded.imp fun _ _ => Located.SameButLimit.eq_of_no_limit
        rw [List.forall₂_eq_eq_eq] at hsame
        exact hsame.symm
      · rw [eval_succ, heval, hdeeper]
        rfl
  · intro m final heval
    obtain ⟨fuel, hrule, heval⟩ := ((evaluates_iff_rule.mp heval).and h.eventually_eval).exists
    obtain ⟨reached, hdeeper, -⟩ := Option.map_eq_some_iff.mp (heval.symm.trans hrule)
    rcases hbody fuel with ⟨-, -, hnone⟩ | ⟨m', middle, -, hhost, -⟩
    · cases hnone.symm.trans hdeeper
    · have hrun : session.run fuel signature (signature.params.names.zip args) =
          some (m', middle) := hhost
      have hcall := Session.call_of_declared h.declared fuel (signature.params.names.zip args)
      rw [hrun] at hcall
      exact ⟨_, _, fuel, hcall⟩

/-- A function that calls itself without end. -/
def endlessProgram : Program where
  nodes := #[.int 3, .var "loop" .undefined, .call ⟨1⟩ ⟨0, 1⟩, .ret ⟨2⟩, .block ⟨1, 1⟩]
  childCells := #[⟨0⟩, ⟨3⟩]

/-- The function, declared and with a limit on its calls. -/
def endlessSession : Session :=
  ((Session.ofProgram endlessProgram).declareFunction "loop"
    ⟨[("n", .int)], .int, ⟨4⟩⟩).limitCalls 1

theorem host_call_evaluates_endlessSession :
    ∃ outcome session' recorded,
      endlessSession.Calls "loop" [("n", .plain (.int 3))] outcome session' ∧
      (CallError.faultsOf outcome).toList = [⟨.callDepth 1, ⟨2⟩⟩] ∧
      List.Forall₂ (Located.SameButLimit (some 1)) [⟨.callDepth 1, ⟨2⟩⟩] recorded ∧
      Evaluates endlessProgram { limit := some 2 } ⟨2⟩ { globals := endlessSession.globals }
        (CallError.valueOf outcome)
        (State.recordAll { globals := session'.globals } recorded) := by
  have hsite : endlessSession.CallSite "loop" ⟨[("n", .int)], .int, ⟨4⟩⟩ [.plain (.int 3)]
      { limit := some 2 } ⟨2⟩ { globals := endlessSession.globals } :=
    { declared := rfl
      bound := rfl
      node := ⟨⟨1⟩, ⟨0, 1⟩, .undefined, rfl, rfl, .cons ⟨1, rfl⟩ .nil⟩
      arity := rfl
      depth := rfl
      limit := rfl
      globals := rfl
      visible := rfl }
  obtain ⟨outcome, session', hcalls, hfaults⟩ : ∃ outcome session',
      endlessSession.Calls "loop" [("n", .plain (.int 3))] outcome session' ∧
      (CallError.faultsOf outcome).toList = [⟨.callDepth 1, ⟨2⟩⟩] :=
    ⟨_, _, ⟨9, rfl⟩, rfl⟩
  obtain ⟨recorded, hrecorded, -, heval⟩ := (host_call_evaluates hsite).1 outcome session' hcalls
  exact ⟨outcome, session', recorded, hcalls, hfaults, hfaults ▸ hrecorded, heval⟩

end Arbor

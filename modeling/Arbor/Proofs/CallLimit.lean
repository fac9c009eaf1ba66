import Arbor.Proofs.Functionless

/-!
# The limit on active calls

Functions may have any node as their body, so a program can call itself without
end.  With a limit on active calls it cannot: in a descending program every step
goes to a smaller node or, by a call, to a greater depth.  The remaining depth and
the node bound the fuel that is needed (`fuelUnder`).

The lengths of array types are evaluated without a limit; they need none, as they
start without functions.

* `eval_matches_limited` — enough fuel under a limit, by induction on the fuel;
* `Evaluates.call_of_refused` — what a call beyond the limit does;
* `call_limit_ends` — evaluation under a limit ends, and never goes deeper.
-/

namespace Arbor

namespace Program

variable {program : Program} {limit depth : Nat} {id : NodeId}

/-- The fuel that a node needs at a depth: more than all nodes together for each call that is
left, and its own measure. -/
def fuelUnder (program : Program) (limit depth : Nat) (id : NodeId) : Nat :=
  (limit - depth) * (program.size + 2) + program.rank id

theorem rank_le_fuelUnder : program.rank id ≤ program.fuelUnder limit depth id :=
  Nat.le_add_left ..

theorem fuelUnder_le :
    program.fuelUnder limit depth id ≤ (limit - depth + 1) * (program.size + 2) := by
  rw [fuelUnder, Nat.succ_mul]
  have hrank := program.rank_le id
  omega

/-- A node that is referred to needs less. -/
theorem Descending.fuelUnder_lt (h : program.Descending) {ref : NodeId}
    (hrefers : program.Refers id ref) :
    program.fuelUnder limit depth ref < program.fuelUnder limit depth id :=
  Nat.add_lt_add_left (h.rank_lt hrefers) _

/-- Any node needs less one call deeper. -/
theorem fuelUnder_lt_of_depth_lt (h : depth < limit) (body : NodeId) :
    program.fuelUnder limit (depth + 1) body < program.fuelUnder limit depth id := by
  have hleft : limit - depth = limit - (depth + 1) + 1 := by omega
  have hbody := program.rank_le body
  rw [fuelUnder, fuelUnder, hleft, Nat.succ_mul]
  omega

end Program

variable {program : Program} {frame : Frame} {id : NodeId} {state : State} {limit : Nat}

/-- No frame deeper than `limit` is started. -/
def Frame.NoDeeper (limit : Nat) (_ started : Frame) (_ : State) : Prop :=
  started.depth ≤ limit

theorem Frame.gate_noDeeper (limit : Nat) (P : Marked → Prop) :
    Frame.Gate (fun frame => frame.depth ≤ limit) P (Frame.NoDeeper limit) where
  here hframe _ := hframe
  sequence hframe _ := hframe
  okay_sequence hframe := hframe
  static _ := Nat.zero_le limit
  okay_static := Nat.zero_le limit

theorem Frame.depth_lt_of_refusal? (hlimit : frame.limit = some limit)
    (hadmitted : frame.refusal? = none) : frame.depth < limit := by
  rw [Frame.refusal?, hlimit] at hadmitted
  simpa using hadmitted

/-- Under a limit, evaluation with enough fuel ends and starts no frame beyond the limit. -/
theorem eval_matches_limited (hprogram : program.Descending) (fuel : Nat) {frame : Frame}
    (hlimit : frame.limit = some limit) (hdepth : frame.depth ≤ limit) {id : NodeId}
    (hfuel : program.fuelUnder limit frame.depth id ≤ fuel) :
    Run.Matches False Eq (State.Everywhere fun _ => True) (eval program fuel frame id)
      (evalWithin program (Frame.NoDeeper limit) fuel frame id) (HandedOn fun _ => True) := by
  induction fuel generalizing frame id with
  | zero =>
    have hrank := Program.rank_le_fuelUnder.trans hfuel
    exact absurd (program.rank_pos id) (by omega)
  | succ fuel ih =>
    let inside : NodeId → Prop := fun ref => program.fuelUnder limit frame.depth ref ≤ fuel
    have hinside : ∀ ref, program.Refers id ref → inside ref :=
      fun ref hrefers => Nat.le_of_lt_succ ((hprogram.fuelUnder_lt hrefers).trans_le hfuel)
    have hregion : program.Region program (fun _ => True) inside :=
      ⟨fun _ => .refl program _, fun href hrefers => (hprogram.fuelUnder_lt hrefers).le.trans href,
        fun _ _ => trivial⟩
    have hends : ∀ ref, inside ref → program.EndsWithin fuel ref :=
      fun ref href => hprogram.endsWithin (Program.rank_le_fuelUnder.trans href)
    have hstatic : ∀ length, inside length → Run.Matches False Eq State.Functionless
        (eval program fuel {} length) (evalWithin program (Frame.NoDeeper limit) fuel {} length)
        (HandedOn Marked.NotFunction) :=
      fun length hlength => eval_matches_within (Frame.gate_noDeeper limit _) fuel
        (Nat.zero_le limit) (.inr (hends length hlength))
    have below : Lockstep program False Eq inside (fun _ => True) (eval program fuel)
        ((evalWithin program (Frame.NoDeeper limit) fuel).admitting (Frame.NoDeeper limit frame))
        fuel frame frame id := by
      refine
        { isFunction := rfl
          here := fun child hchild => (ih hlimit hdepth hchild).admitting fun _ _ => hdepth
          sequence := fun child hchild => ?_
          static := fun length hlength => ?_
          invoke := fun signature args _ hargs => ?_
          enough := .inr hends }
      · have hsame : frame.sequence.limit = some limit := hlimit
        exact (ih hsame hdepth hchild).admitting fun _ _ => hdepth
      · obtain ⟨heq, hends, -⟩ :=
          Run.matches_eq_iff.mp (hstatic length hlength) {} State.functionless_empty
        rw [Evaluator.admitting_apply (Nat.zero_le limit)]
        exact ⟨heq, hends⟩
      · cases hrefusal : frame.refusal? with
        | some refused =>
          exact Eval.invoke_matches_of_refused hrefusal hrefusal fun state state' heq => by rw [heq]
        | none =>
          -- the body may be any node, but it runs one call deeper
          have hdeeper := Frame.depth_lt_of_refusal? hlimit hrefusal
          have hsame : frame.callee.limit = some limit := hlimit
          have hbody : program.fuelUnder limit frame.callee.depth signature.body ≤ fuel :=
            Nat.le_of_lt_succ ((Program.fuelUnder_lt_of_depth_lt hdeeper _).trans_le hfuel)
          exact Eval.invoke_matches_of_admitted congruence_eq hargs hrefusal hrefusal
            ((ih hsame hdeeper hbody).admitting fun _ _ => hdeeper)
    exact eval_succ_matches (hereditary_true program) congruence_eq hregion below
      (.refl program id) hinside fun _ _ _ => trivial

/-- A call that is refused evaluates its callee and its arguments, records once, at the call, that
the limit is used up, and yields undefined. -/
theorem Evaluates.call_of_refused {callee : NodeId} {args : Span NodeId} {f m : Marked}
    {middle final : State} {signature : Signature}
    (hnode : program.node? id = some (.call callee args)) (hrefused : frame.refusal? = some limit)
    (hcallee : Evaluates program frame callee state f middle) (hresolved : f.unresolved = false)
    (hfunction : f.value = .function signature)
    (hcount : (program.children args).length = signature.arity)
    (h : Evaluates program frame id state m final) :
    ∃ fuel values ready,
      (program.children args).mapM (eval program fuel frame) middle = some (values, ready) ∧
      m = .undefined ∧ final = ready.record ⟨.callDepth limit, id⟩ := by
  obtain ⟨fuel, hrule, hcallee⟩ :=
    ((evaluates_iff_rule.mp h).and (evaluates_iff_eventually.mp hcallee)).exists
  rw [Eval.rule, hnode] at hrule
  obtain ⟨_, _, hcallee', hrest⟩ := Run.bind_eq_some_iff.mp hrule
  cases hcallee.symm.trans hcallee'
  rw [hfunction] at hrest
  simp only [hresolved, Bool.false_eq_true, if_false, Value.ty, Ty.signature?_ty, hcount, ne_eq,
    not_true_eq_false] at hrest
  obtain ⟨values, ready, hvalues, hinvoke⟩ := Run.bind_eq_some_iff.mp hrest
  rw [Eval.invoke, hrefused] at hinvoke
  cases hinvoke
  exact ⟨fuel, values, ready, hvalues, rfl, rfl⟩

/-- **Under a limit on active calls, evaluation ends.**  In a descending program, whatever
functions there are, as much fuel as all nodes need, times the calls that may be active, is enough;
no frame deeper than the limit is started; and a call that is refused, by a frame at the limit,
records one internal fault of its own and yields undefined. -/
theorem call_limit_ends (hprogram : program.Descending) (hlimit : frame.limit = some limit)
    (hdepth : frame.depth ≤ limit) (id : NodeId) (state : State) :
    (∀ fuel, (limit - frame.depth + 1) * (program.size + 2) ≤ fuel →
      (eval program fuel frame id state).isSome ∧
      evalWithin program (Frame.NoDeeper limit) fuel frame id state =
        eval program fuel frame id state) ∧
    (Fault.callDepth limit).kind = .internal ∧
    ∀ {frame : Frame} {id callee : NodeId} {args : Span NodeId} {state middle final : State}
      {f m : Marked} {signature : Signature},
      frame.limit = some limit → limit ≤ frame.depth →
      program.node? id = some (.call callee args) →
      Evaluates program frame callee state f middle → f.unresolved = false →
      f.value = .function signature → (program.children args).length = signature.arity →
      Evaluates program frame id state m final →
        ∃ fuel values ready,
          (program.children args).mapM (eval program fuel frame) middle = some (values, ready) ∧
          m = .undefined ∧ final = ready.record ⟨.callDepth limit, id⟩ := by
  refine ⟨fun fuel hfuel => ?_, rfl, ?_⟩
  · have hmatches := eval_matches_limited hprogram fuel hlimit hdepth
      (Program.fuelUnder_le.trans hfuel : program.fuelUnder limit frame.depth id ≤ fuel)
    obtain ⟨hwithin, hends, -⟩ := Run.matches_eq_iff.mp hmatches state state.everywhere_true
    exact ⟨hends.resolve_left not_false, hwithin⟩
  · intro frame id callee args state middle final f m signature hlimit hdepth hnode
    have hrefused : frame.refusal? = some limit := by
      rw [Frame.refusal?, hlimit]
      exact Option.filter_eq_some_iff.mpr ⟨rfl, by simpa using hdepth⟩
    exact Evaluates.call_of_refused hnode hrefused

/-- Two functions that call each other without end. -/
def pingPongProgram : Program where
  nodes := #[.var "pong" .undefined, .call ⟨0⟩ ⟨0, 0⟩, .var "ping" .undefined, .call ⟨2⟩ ⟨0, 0⟩]

/-- Both functions are bound. -/
def pingPongState : State where
  globals := .ofPairs [("ping", .plain (.function ⟨[], .int, ⟨1⟩⟩)),
    ("pong", .plain (.function ⟨[], .int, ⟨3⟩⟩))]

theorem call_limit_ends_pingPongProgram :
    (eval pingPongProgram 18 { limit := some 2 } ⟨3⟩ pingPongState).isSome ∧
    evalWithin pingPongProgram (Frame.NoDeeper 2) 18 { limit := some 2 } ⟨3⟩ pingPongState =
      eval pingPongProgram 18 { limit := some 2 } ⟨3⟩ pingPongState ∧
    ∃ fuel values ready,
      ([] : List NodeId).mapM (eval pingPongProgram fuel { depth := 2, limit := some 2 })
        pingPongState = some (values, ready) ∧
      State.record pingPongState ⟨.callDepth 2, ⟨3⟩⟩ = ready.record ⟨.callDepth 2, ⟨3⟩⟩ := by
  have hprogram : pingPongProgram.Descending := Program.descending_of_forall (by decide)
  have hlimit : ({ limit := some 2 } : Frame).limit = some 2 := rfl
  have hends := call_limit_ends hprogram hlimit (Nat.zero_le 2) ⟨3⟩ pingPongState
  obtain ⟨hsome, hwithin⟩ := hends.1 18 (by decide)
  have hnode : pingPongProgram.node? ⟨3⟩ = some (.call ⟨2⟩ ⟨0, 0⟩) := rfl
  have hcallee : Evaluates pingPongProgram { depth := 2, limit := some 2 } ⟨2⟩ pingPongState
      (.plain (.function ⟨[], .int, ⟨1⟩⟩)) pingPongState := ⟨1, rfl⟩
  have hcall : Evaluates pingPongProgram { depth := 2, limit := some 2 } ⟨3⟩ pingPongState
      .undefined (pingPongState.record ⟨.callDepth 2, ⟨3⟩⟩) := ⟨2, rfl⟩
  obtain ⟨fuel, values, ready, hvalues, -, hfinal⟩ :=
    hends.2.2 rfl le_rfl hnode hcallee rfl rfl rfl hcall
  exact ⟨hsome, hwithin, fuel, values, ready, hvalues, hfinal⟩

end Arbor

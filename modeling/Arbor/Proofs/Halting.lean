import Arbor.Proofs.Echo

/-!
# Static evaluation and checking end

The length of an array type is evaluated with nothing in scope, and no limit
guards it.  It needs none: without functions nothing is called, so in a descending
program as much fuel as there are nodes is enough.  Defaults and checks evaluate
lengths only, and so they end as well.

* `check_isSome` — checking ends in a descending program;
* `Program.Acyclic.eventually_endsWithin` — where no node refers to itself, all paths
  of references end, and so do all checks;
* `uncalled_without_functions` — evaluation without functions calls nothing, and
  what is computed statically ends.
-/

namespace Arbor

open Filter

variable {program : Program}

theorem Program.EndsWithin.check_isSome {fuel : Nat} {id : NodeId} (h : program.EndsWithin fuel id)
    (result : Option Ty) (mismatches : Array (Located Mismatch)) :
    (check program result fuel id mismatches).isSome := by
  have hself : Checking.Echoes False #[] 0 (Ty.Blurred #[]) (check program result fuel id)
      (check program result fuel id) := check_echoes_self le_rfl (.inr h)
  rcases hself mismatches with ⟨hfalse, -⟩ | ⟨ty, added, hcheck, -⟩
  · exact hfalse.elim
  · rw [hcheck]
    rfl

theorem check_isSome (hprogram : program.Descending) (result : Option Ty) {fuel : Nat}
    {id : NodeId} (hfuel : program.rank id ≤ fuel) (mismatches : Array (Located Mismatch)) :
    (check program result fuel id mismatches).isSome :=
  (hprogram.endsWithin hfuel).check_isSome result mismatches

/-! ### Acyclic programs -/

namespace Program

/-- No node refers to itself, not even through others. -/
def Acyclic (program : Program) : Prop :=
  ∀ id, ¬ Relation.TransGen program.Refers id id

theorem Descending.acyclic (h : program.Descending) : program.Acyclic := by
  have hrank : ∀ {id ref}, Relation.TransGen program.Refers id ref →
      program.rank ref < program.rank id := by
    intro id ref hpath
    induction hpath with
    | single hrefers => exact h.rank_lt hrefers
    | tail _ hrefers ih => exact (h.rank_lt hrefers).trans ih
  exact fun id hcycle => (hrank hcycle).false

instance : Finite NodeId :=
  Finite.of_injective (fun id : NodeId => id.index.toFin) fun id id' heq => by
    cases id
    cases id'
    exact congrArg NodeId.mk (UInt32.toFin_inj.mp heq)

/-- There are finitely many numbers, so paths that never come back to a node end. -/
theorem Acyclic.wellFounded (h : program.Acyclic) : WellFounded (flip program.Refers) := by
  have htrans : IsTrans NodeId (flip (Relation.TransGen program.Refers)) :=
    ⟨fun _ _ _ hfirst hrest => hrest.trans hfirst⟩
  have hirrefl : Std.Irrefl (flip (Relation.TransGen program.Refers)) := ⟨h⟩
  have hpaths := Finite.wellFounded_of_trans_of_irrefl (flip (Relation.TransGen program.Refers))
  have hstep : Subrelation (flip program.Refers) (flip (Relation.TransGen program.Refers)) :=
    fun hrefers => Relation.TransGen.single hrefers
  exact hstep.wf hpaths

theorem Acyclic.eventually_endsWithin (h : program.Acyclic) (id : NodeId) :
    ∀ᶠ depth in atTop, program.EndsWithin depth id := by
  induction id using h.wellFounded.induction with
  | _ id ih =>
    have hrefs : ∀ᶠ depth in atTop, ∀ ref, program.Refers id ref →
        program.EndsWithin depth ref := by
      cases hnode : program.node? id with
      | none =>
        refine Eventually.of_forall fun depth ref hrefers => ?_
        obtain ⟨node, hpresent, -⟩ := hrefers
        cases hnode.symm.trans hpresent
      | some node =>
        have hall := eventually_forall_mem (node.references program) fun ref href =>
          ih ref ⟨node, hnode, href⟩
        filter_upwards [hall] with depth hdepth ref hrefers
        obtain ⟨node', hnode', href⟩ := hrefers
        cases hnode.symm.trans hnode'
        exact hdepth ref href
    rw [← map_add_atTop_eq_nat 1, eventually_map]
    exact hrefs

end Program

/-- What evaluation of a node without functions does. A body runs in a deeper frame, so it would be
among what `Frame.Uncalled` does not admit. -/
structure CallsNothing (program : Program) (frame : Frame) (id : NodeId) (state : State) :
    Prop where
  /-- Whatever evaluates the nodes below, they are started in no deeper frame and without functions,
  so what is said here of the node holds of them as well. -/
  starts : ∀ ev : Evaluator, ev.HandsOn Marked.NotFunction → ∀ fuel,
    Eval.rule program (ev.admitting frame.Uncalled) fuel frame id state =
      Eval.rule program ev fuel frame id state
  /-- With any fuel, nothing else is started at any level. -/
  within : ∀ fuel, evalWithin program Frame.Uncalled fuel frame id state =
    eval program fuel frame id state
  value : ∀ m final, Evaluates program frame id state m final →
    m.Everywhere Marked.NotFunction ∧ final.Functionless
  /-- If the node is a call, it evaluates its callee and records one fault. -/
  call : ∀ callee args m final, program.node? id = some (.call callee args) →
    Evaluates program frame id state m final →
      ∃ f middle fault, Evaluates program frame callee state f middle ∧ m = .undefined ∧
        final = middle.record ⟨fault, id⟩ ∧
        (fault = .unresolvedCallee ∨ fault = .notCallable f.value.ty)

theorem callsNothing_of_functionless (program : Program) (frame : Frame) (id : NodeId)
    {state : State} (hstate : state.Functionless) : CallsNothing program frame id state where
  starts _ hev fuel := rule_admitting hev fuel frame id hstate
  within fuel := by
    have hmatches : Run.Matches True Eq State.Functionless (eval program fuel frame id)
        (evalWithin program Frame.Uncalled fuel frame id) (HandedOn Marked.NotFunction) :=
      eval_matches_within Frame.gate_uncalled fuel trivial (.inl trivial)
    exact ((Run.matches_eq_iff.mp hmatches) state hstate).1
  value m final heval := by
    obtain ⟨fuel, heval⟩ := heval
    obtain ⟨hm, hfinal⟩ := eval_everywhere (hereditary_notFunction program) fuel frame id state
      hstate m final heval
    exact ⟨Marked.everywhere_iff.mpr ⟨hm.self, fun part hpart => hm.part hpart⟩, hfinal⟩
  call _ _ _ _ hnode heval := heval.call_of_functionless hnode hstate

/-- **Without functions nothing is called.**  Evaluation that starts without functions enters no
function's body, neither yields nor stores a function, and every call it comes to records one
fault of its own.  So in a descending program the lengths of array types, the defaults of all
types and the checks of all nodes and functions are computed with as much fuel as there are
nodes. -/
theorem uncalled_without_functions (program : Program) :
    (∀ (frame : Frame) (id : NodeId) (state : State), state.Functionless →
      CallsNothing program frame id state) ∧
    (program.Descending → ∀ fuel, program.size < fuel →
      (∀ length, (staticLength (eval program fuel) length).run.isSome) ∧
      (∀ ty, (defaultValue (staticLength (eval program fuel)) ty).run.isSome) ∧
      (∀ result id mismatches, (check program result fuel id mismatches).isSome) ∧
      ∀ signature, (checkFunction program fuel signature).isSome) := by
  refine ⟨fun frame id state => callsNothing_of_functionless program frame id, ?_⟩
  intro hprogram fuel hfuel
  have hrank : ∀ id, program.rank id ≤ fuel := fun id => (program.rank_le id).trans hfuel
  refine ⟨fun length => staticLength_isSome hprogram (hrank length),
    fun ty => defaultValue_isSome hprogram ty hfuel,
    fun result id mismatches => check_isSome hprogram result (hrank id) mismatches, ?_⟩
  intro signature
  rw [checkFunction, Option.isSome_map]
  exact check_isSome hprogram _ (hrank signature.body) #[]

/-- An array of arrays, whose inner length is a call of something that is no function. -/
def callingProgram : Program where
  nodes := #[.int 2, .nil, .call ⟨1⟩ ⟨0, 1⟩, .arrayLiteral (.array .int ⟨2⟩) ⟨0⟩ ⟨0, 0⟩]
  childCells := #[⟨0⟩]

theorem uncalled_without_functions_callingProgram :
    (∃ f middle fault, Evaluates callingProgram {} ⟨1⟩ {} f middle ∧
      State.record {} ⟨.notCallable .undefined, ⟨2⟩⟩ = middle.record ⟨fault, ⟨2⟩⟩) ∧
    (check callingProgram none 5 ⟨3⟩ #[]).isSome := by
  have hprogram : callingProgram.Descending := Program.descending_of_forall (by decide)
  have hcall : Evaluates callingProgram {} ⟨2⟩ {} .undefined
      (State.record {} ⟨.notCallable .undefined, ⟨2⟩⟩) := ⟨2, rfl⟩
  have hnothing := (uncalled_without_functions callingProgram).1 {} ⟨2⟩ {}
    State.functionless_empty
  have hends := (uncalled_without_functions callingProgram).2 hprogram 5 (by decide)
  obtain ⟨f, middle, fault, hcallee, -, hfinal, -⟩ := hnothing.call _ _ _ _ rfl hcall
  exact ⟨⟨f, middle, fault, hcallee, hfinal⟩, hends.2.2.1 none ⟨3⟩ #[]⟩

end Arbor

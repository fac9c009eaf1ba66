import Arbor.Proofs.Lockstep

/-!
# Names stay bound, and faults have a place

Evaluation stores variables, and never removes one.  A composite assignment counts on
this: its target is resolved to a place in a variable that is bound, and then its value is
evaluated, which may assign and call as it likes.  The variable is bound still when the
place is written.  So a write is missed at one of its steps if at all, and the reserved
number, which stands by for a write without a variable, is not used.

All other faults are recorded at the node that is evaluated, or at one below it or below a
body that is called.  Where none of these is the reserved number, no fault is recorded there.

* `Evaluates.contains` — a name that is bound stays bound in its scope;
* `Eval.ResolvesTo.contains` — a resolved place is in a variable that is still bound after the
  value has been evaluated;
* `Evaluates.faults_located` — faults are recorded at nodes with a proper number;
* `bound_and_located` — the three together.
-/

namespace Arbor

open Eval

variable {program : Program} {frame : Frame} {id : NodeId} {state middle final : State} {m : Marked}

/-! ### Bound names -/

/-- A name that is bound before an evaluation is bound after it, in the same scope. -/
theorem Evaluates.contains (h : Evaluates program frame id state m final) (scope : Scope)
    {name : String} (hbound : (scope.variables state).contains name = true) :
    (scope.variables final).contains name = true := by
  obtain ⟨-, hreached⟩ := h.yields (hereditary_true program) (program.footprint_true _) trivial
    state.everywhere_true
  exact hreached.evolves.contains scope hbound

/-- With enough fuel, the target is resolved to this place. -/
def Eval.ResolvesTo (program : Program) (frame : Frame) (target : NodeId) (state : State)
    (place : Place) (middle : State) : Prop :=
  ∃ fuel, (resolve program (eval program fuel) frame fuel target).run state =
    some (.ok place, middle)

/-- The place is in a variable that is bound, even after something else has been evaluated. -/
theorem Eval.ResolvesTo.contains {target value : NodeId} {place : Place}
    (h : ResolvesTo program frame target state place middle)
    (hvalue : Evaluates program frame value middle m final) :
    (place.scope.variables final).contains place.root = true := by
  obtain ⟨fuel, hfuel⟩ := h
  obtain ⟨hplace, -⟩ := resolve_reached
    (fun frame child _ state _ => eval_yields_true program fuel frame child state)
    (program.footprint_true _) (fun _ _ => trivial) state.everywhere_true.reached fuel trivial _
    middle hfuel
  exact hvalue.contains place.scope hplace.bound

/-! ### Places of faults -/

/-- If the value is a function, its body has a proper number. -/
def Marked.BodyValid (m : Marked) : Prop :=
  ∀ signature, m.value = .function signature → signature.body ≠ .invalid

/-- All nodes that stand below others have a proper number. -/
def Program.ChildrenValid (program : Program) : Prop :=
  ∀ id child, program.HasChild id child → child ≠ .invalid

/-- It is enough to look at the nodes one by one. -/
theorem Program.childrenValid_of_forall (h : ∀ (i : Nat) (hi : i < program.size),
    ∀ child ∈ program.nodes[i].children program, child ≠ .invalid) : program.ChildrenValid := by
  intro id child hchild
  obtain ⟨node, hnode, hchild⟩ := hchild
  obtain ⟨hi, rfl⟩ := Array.getElem?_eq_some_iff.mp hnode
  exact h id.index.toNat hi child hchild

/-- Evaluation that starts at a proper number goes on to proper numbers only. -/
theorem Program.ChildrenValid.footprint (h : program.ChildrenValid) :
    program.Footprint (· ≠ .invalid) (fun _ => True) Marked.BodyValid where
  child _ hnode hchild := h _ _ ⟨_, hnode, hchild⟩
  stored _ _ _ _ := trivial
  body _ _ hfunction := hfunction _ rfl

theorem Evaluates.faults_located (hprogram : program.ChildrenValid)
    (hstate : state.Everywhere Marked.BodyValid) (hid : id ≠ .invalid)
    (h : Evaluates program frame id state m final) : ∃ recorded : Array (Located Fault),
      final.faults = state.faults ++ recorded ∧ ∀ fault ∈ recorded, fault.node ≠ .invalid := by
  have hP : Hereditary program Marked.BodyValid :=
    hereditary_function program fun signature => signature.body ≠ .invalid
  obtain ⟨-, hreached⟩ := h.yields hP hprogram.footprint hid hstate
  exact hreached.evolves.exists_recorded

/-- **Names stay bound, and faults have a place.**  Evaluation leaves every name bound that was
bound, in the same scope.  So the variable of a place that was resolved is there when the place is
written, whatever was evaluated in between, and the write can only be missed at one of its steps.
If no node below others, no body of a function at hand and not the node itself has the reserved
number, then no fault is recorded at the reserved number. -/
theorem bound_and_located (program : Program) (frame : Frame) (state : State) :
    (∀ id m final, Evaluates program frame id state m final → ∀ (scope : Scope) (name : String),
      (scope.variables state).contains name = true →
        (scope.variables final).contains name = true) ∧
    (∀ target place middle value m final, ResolvesTo program frame target state place middle →
      Evaluates program frame value middle m final →
        (place.scope.variables final).contains place.root = true ∧
        ∀ fault, place.store m final = .error fault →
          ∃ step ∈ place.steps, step.node = fault.node) ∧
    (program.ChildrenValid → state.Everywhere Marked.BodyValid →
      ∀ id m final, id ≠ .invalid → Evaluates program frame id state m final →
        ∃ recorded : Array (Located Fault), final.faults = state.faults ++ recorded ∧
          ∀ fault ∈ recorded, fault.node ≠ .invalid) := by
  refine ⟨fun id m final hends scope name hbound => hends.contains scope hbound, ?_, ?_⟩
  · intro target place middle value m final hresolves hvalue
    have hbound := hresolves.contains hvalue
    exact ⟨hbound, fun fault hfault => Place.exists_step_of_store_eq_error hbound hfault⟩
  · intro hprogram hstate id m final hid hends
    exact hends.faults_located hprogram hstate hid

/-- `a[0] = f()`, where the body of `f` is `a = 0`. -/
def replacingProgram : Program where
  nodes := #[.var "a" (.array .int ⟨1⟩), .int 0, .subscript ⟨0⟩ ⟨1⟩, .assign ⟨0⟩ ⟨1⟩ false,
    .var "f" .undefined, .call ⟨4⟩ ⟨0, 0⟩, .assign ⟨2⟩ ⟨5⟩ false]

/-- The array has an element before the call. -/
def replacingState : State where
  globals := .ofPairs [("a", .plain (.list .int ⟨1⟩ [.plain (.int 7)])),
    ("f", .plain (.function ⟨[], .undefined, ⟨3⟩⟩))]

/-- The call has replaced it. -/
def replacedState : State where
  globals := replacingState.globals.insert "a" (.plain (.int 0))

/-- The call takes the array away from under the place.  Still `a` is bound, and the write is missed
at the subscript. -/
theorem bound_and_located_replacingProgram :
    let missed : Located Fault := ⟨.notIndexable .int, ⟨2⟩⟩
    replacingProgram.ChildrenValid ∧ replacingState.Everywhere Marked.BodyValid ∧
    ResolvesTo replacingProgram {} ⟨2⟩ replacingState ⟨.global, "a", [.index 0 ⟨2⟩]⟩
      replacingState ∧
    Evaluates replacingProgram {} ⟨5⟩ replacingState .undefined replacedState ∧
    replacedState.globals.contains "a" = true ∧
    (∃ step ∈ [Step.index 0 ⟨2⟩], step.node = missed.node) ∧
    Evaluates replacingProgram {} ⟨6⟩ replacingState .undefined (replacedState.record missed) ∧
    ∃ recorded : Array (Located Fault), recorded = #[missed] ∧
      ∀ fault ∈ recorded, fault.node ≠ .invalid := by
  intro missed
  have hprogram : replacingProgram.ChildrenValid := Program.childrenValid_of_forall (by decide)
  have hstate : replacingState.Everywhere Marked.BodyValid := by
    have helement : (Marked.plain (.int 7)).Everywhere Marked.BodyValid :=
      Marked.everywhere_of_parts_eq_nil rfl nofun
    have harray : (Marked.list .int ⟨1⟩ [.plain (.int 7)]).Everywhere Marked.BodyValid :=
      Marked.everywhere_list nofun (List.forall_mem_singleton.mpr helement)
    have hfunction : (Marked.plain (.function ⟨[], .undefined, ⟨3⟩⟩)).Everywhere
        Marked.BodyValid := by
      refine Marked.everywhere_of_parts_eq_nil rfl fun signature h => ?_
      cases h
      decide
    refine ⟨Namespace.everywhere_empty, Namespace.everywhere_ofPairs ?_⟩
    exact List.forall_mem_cons.mpr ⟨harray, List.forall_mem_singleton.mpr hfunction⟩
  have hresolves : ResolvesTo replacingProgram {} ⟨2⟩ replacingState
      ⟨.global, "a", [.index 0 ⟨2⟩]⟩ replacingState := ⟨2, rfl⟩
  have hvalue : Evaluates replacingProgram {} ⟨5⟩ replacingState .undefined replacedState :=
    ⟨3, rfl⟩
  have hends : Evaluates replacingProgram {} ⟨6⟩ replacingState .undefined
      (replacedState.record missed) := ⟨4, rfl⟩
  obtain ⟨-, hplaces, hlocated⟩ := bound_and_located replacingProgram {} replacingState
  obtain ⟨hbound, hmissed⟩ := hplaces _ _ _ _ _ _ hresolves hvalue
  obtain ⟨recorded, hfaults, hnodes⟩ := hlocated hprogram hstate _ _ _ (by decide) hends
  have hrecorded : #[missed] = #[] ++ recorded := hfaults
  rw [Array.empty_append] at hrecorded
  exact ⟨hprogram, hstate, hresolves, hvalue, hbound, hmissed missed rfl, hends, recorded,
    hrecorded.symm, hnodes⟩

end Arbor

import Arbor.Proofs.Effects
import Arbor.Proofs.Lockstep

/-!
# Variables that a program does not name

Names come into evaluation through variable nodes only: a variable that is read,
the target of an assignment, the root of a composite target.  A parameter brings
a name of its own, but its binding lives in the locals of the call and goes with
them.  So a name that no variable node carries is out of reach: what it is bound
to is never written, and nothing depends on it.

* `State.AgreesExcept` — two states that differ in one name at most; everything
  that a program does to both keeps that (`congruence_agreesExcept`);
* `unnamed_untouched` — a name that does not occur is neither written nor read.
-/

namespace Arbor

open Eval

/-- The name that a variable node carries. -/
def Node.name? : Node → Option String
  | .var name _ => some name
  | _ => none

/-- No variable node of the program carries the name. -/
def Program.Unnamed (program : Program) (x : String) : Prop :=
  ∀ (id : NodeId) (name : String) (ty : Ty), program.node? id = some (.var name ty) → name ≠ x

/-- It is enough to look at the nodes one by one. -/
theorem Program.unnamed_of_forall {program : Program} {x : String}
    (h : ∀ (i : Nat) (hi : i < program.size), program.nodes[i].name? ≠ some x) :
    program.Unnamed x := by
  intro id name ty hnode heq
  obtain ⟨hi, hvar⟩ := Array.getElem?_eq_some_iff.mp hnode
  refine h id.index.toNat hi ?_
  rw [hvar]
  exact congrArg some heq

/-- The states differ in what `x` is bound to, and in nothing else. -/
structure State.AgreesExcept (x : String) (state state' : State) : Prop where
  names : ∀ (scope : Scope) (name : String), name ≠ x →
    (scope.variables state').get? name = (scope.variables state).get? name
  faults : state'.faults = state.faults

namespace State.AgreesExcept

variable {x : String} {state state' : State}

theorem symm (h : state.AgreesExcept x state') : state'.AgreesExcept x state :=
  ⟨fun scope name hname => (h.names scope name hname).symm, h.faults.symm⟩

/-- Both scopes agree on all other names. -/
theorem of_scopes
    (hlocals : ∀ name, name ≠ x → state'.locals.get? name = state.locals.get? name)
    (hglobals : ∀ name, name ≠ x → state'.globals.get? name = state.globals.get? name)
    (hfaults : state'.faults = state.faults) : state.AgreesExcept x state' := by
  refine ⟨fun scope name hname => ?_, hfaults⟩
  cases scope with
  | «local» => exact hlocals name hname
  | global => exact hglobals name hname

end State.AgreesExcept

/-- Binding another name on both sides makes no difference. -/
theorem get?_insert_congr {scope scope' : Namespace} {x name other : String} (m : Marked)
    (h : name ≠ x → scope'.get? name = scope.get? name) (hname : name ≠ x) :
    (NameMap.insert scope' other m).get? name = (NameMap.insert scope other m).get? name := by
  by_cases heq : name = other
  · subst heq
    rw [NameMap.get?_insert_self, NameMap.get?_insert_self]
  · rw [NameMap.get?_insert_of_ne _ heq, NameMap.get?_insert_of_ne _ heq]
    exact h hname

theorem congruence_agreesExcept (x : String) :
    Congruence (· ≠ x) (State.AgreesExcept x) where
  get? h hname scope := h.names scope _ hname
  insert := by
    intro state state' name h _ scope m
    cases scope with
    | «local» =>
      exact .of_scopes (fun other => get?_insert_congr m (h.names .local other))
        (h.names .global) h.faults
    | global =>
      exact .of_scopes (h.names .local)
        (fun other => get?_insert_congr m (h.names .global other)) h.faults
  record h fault := .of_scopes (h.names .local) (h.names .global)
    (congrArg (fun faults => Array.push faults fault) h.faults)
  enter h locals := .of_scopes (fun _ _ => rfl) (h.names .global) h.faults
  leave h h' := .of_scopes (h.names .local) (h'.names .global) h'.faults

variable {program : Program} {x : String}

/-- All nodes, where variables have other names. -/
theorem Program.Unnamed.region (h : program.Unnamed x) :
    program.Region program (· ≠ x) fun _ => True :=
  ⟨fun _ => .refl program _, fun _ _ => trivial, fun _ hnode => h _ _ _ hnode⟩

theorem Program.Unnamed.footprint (h : program.Unnamed x) :
    program.Footprint (fun _ => True) (· ≠ x) fun _ => True :=
  ⟨fun _ _ _ => trivial, fun _ _ _ hnode => h _ _ _ hnode, fun _ _ _ => trivial⟩

/-- From states that differ in `x` only, an outcome of the one is an outcome of the other. -/
theorem Evaluates.of_agreesExcept {frame : Frame} {id : NodeId} {state state' final : State}
    {m : Marked} (hx : program.Unnamed x) (hagree : state.AgreesExcept x state')
    (h : Evaluates program frame id state m final) :
    ∃ final', Evaluates program frame id state' m final' ∧ final.AgreesExcept x final' := by
  obtain ⟨fuel, hfuel⟩ := h
  have R := congruence_agreesExcept x
  have hmatches : Run.Matches True (State.AgreesExcept x) (State.Everywhere fun _ => True)
      (eval program fuel frame id) (eval program fuel frame id) (HandedOn fun _ => True) :=
    eval_matches R hx.region (hereditary_true program) (Frame.paired_eq R)
      (fun _ _ => trivial) (fun _ _ _ _ => rfl) fuel rfl trivial
  rcases hmatches state state' state.everywhere_true hagree with ⟨-, hnone, -⟩ |
    ⟨m', reached, final', hrun, hrun', hfinal, -⟩
  · rw [hnone] at hfuel
    cases hfuel
  · rw [hfuel, Option.some.injEq, Prod.mk.injEq] at hrun
    obtain ⟨rfl, rfl⟩ := hrun
    exact ⟨final', ⟨fuel, hrun'⟩, hfinal⟩

/-- **A variable that the program does not name is neither written nor read.**  Evaluation leaves it
bound in both scopes as it was, or unbound.  And two states that differ only in what it is bound to
lead to the same outcome, if there is one: the same value, the same faults, and states that again
differ in nothing else.  Parameters may well have that name. -/
theorem unnamed_untouched (hx : program.Unnamed x) (frame : Frame) (id : NodeId) (state : State) :
    (∀ m final, Evaluates program frame id state m final → ∀ scope : Scope,
      (scope.variables final).get? x = (scope.variables state).get? x) ∧
    ∀ state', state.AgreesExcept x state' →
      (∀ m final, Evaluates program frame id state m final →
        ∃ final', Evaluates program frame id state' m final' ∧ final.AgreesExcept x final') ∧
      (∀ m final', Evaluates program frame id state' m final' →
        ∃ final, Evaluates program frame id state m final ∧ final.AgreesExcept x final') := by
  constructor
  · intro m final hends scope
    obtain ⟨fuel, hfuel⟩ := hends
    have hevolves : state.Evolves (· ≠ x) final :=
      eval_evolves (hereditary_true program) hx.footprint fuel frame trivial
        state.everywhere_true m final hfuel
    exact hevolves.get?_of_not_stored (fun hne => hne rfl) scope
  · intro state' hagree
    refine ⟨fun m final hends => hends.of_agreesExcept hx hagree, fun m final' hends => ?_⟩
    obtain ⟨final, hends', hagree'⟩ := hends.of_agreesExcept hx hagree.symm
    exact ⟨final, hends', hagree'.symm⟩

/-- Calls a function of one parameter, which assigns to another variable. -/
def assigningProgram : Program where
  nodes := #[.int 1, .var "f" .undefined, .call ⟨1⟩ ⟨0, 1⟩, .var "y" .int, .assign ⟨3⟩ ⟨0⟩ false]
  childCells := #[⟨0⟩]

/-- The parameter of the function is called `x`. -/
def callingState : State where
  globals := .ofPairs [("f", .plain (.function ⟨[("x", .int)], .undefined, ⟨4⟩⟩)),
    ("y", .plain (.int 0))]

/-- A local and a global called `x` as well. -/
def hidingState : State where
  locals := callingState.locals.insert "x" (.plain (.bool true))
  globals := callingState.globals.insert "x" (.plain (.string "kept"))

theorem unnamed_untouched_assigningProgram :
    let final := { hidingState with globals := hidingState.globals.insert "y" (.plain (.int 1)) }
    Evaluates assigningProgram {} ⟨2⟩ hidingState .undefined final ∧
    final.locals.get? "x" = some (.plain (.bool true)) ∧
    final.globals.get? "x" = some (.plain (.string "kept")) ∧
    ∃ final', Evaluates assigningProgram {} ⟨2⟩ callingState .undefined final' ∧
      final.AgreesExcept "x" final' := by
  intro final
  have hx : assigningProgram.Unnamed "x" := Program.unnamed_of_forall (by decide)
  have hends : Evaluates assigningProgram {} ⟨2⟩ hidingState .undefined final := ⟨3, rfl⟩
  have hagree : callingState.AgreesExcept "x" hidingState :=
    .of_scopes (fun _ hname => NameMap.get?_insert_of_ne _ hname _)
      (fun _ hname => NameMap.get?_insert_of_ne _ hname _) rfl
  obtain ⟨hkept, hsame⟩ := unnamed_untouched hx {} ⟨2⟩ hidingState
  have hlocal := hkept .undefined final hends .local
  have hglobal := hkept .undefined final hends .global
  exact ⟨hends, hlocal, hglobal, (hsame callingState hagree.symm).1 .undefined final hends⟩

end Arbor

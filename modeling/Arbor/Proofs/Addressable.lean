import Arbor.Proofs.Binding
import Arbor.Proofs.Soundness

/-!
# Accepted assignments

The checker types an assignment by its value and its target, both of them checked as
expressions.  Evaluation takes another view.  An assignment yields undefined, whatever it
assigns.  Its target has to be a variable, or an element or a field of something that may
be assigned to (`Addressable`), and any other target is refused when the assignment runs.

So an accepted assignment may be refused, and where its own value is needed, as when it is
assigned once more, undefined takes the place of a value of its type.  What the checker
found is right for a proper target and a value that assigns nothing.

* `Accepts.addressable_or_leadsOut` — what accepted targets are;
* `evaluates_assign_unassignable_iff`, `LeadsOut.evaluates_assign_iff` — how a target is
  refused;
* `accepted_assignment_undefined` — what becomes of an accepted assignment.
-/

namespace Arbor

open Checking Eval Filter Typing

section Targets

variable (program : Program)

/-- The nodes with a slot of their own: variables, and the elements and fields of such nodes. -/
inductive Addressable : NodeId → Prop where
  | var {id : NodeId} {name : String} {ty : Ty} (hnode : program.node? id = some (.var name ty)) :
    Addressable id
  | subscript {id base index : NodeId} (hnode : program.node? id = some (.subscript base index))
    (hbase : Addressable base) : Addressable id
  | select {id base : NodeId} {name : String} (hnode : program.node? id = some (.select base name))
    (hbase : Addressable base) : Addressable id

/-- Whether the construct may be assigned to or through. -/
def Node.isPlace : Node → Bool
  | .var .. | .subscript .. | .select .. => true
  | _ => false

/-- Subscripts and selectors over a node that is no variable, with the fault that it causes. -/
inductive LeadsOut : NodeId → Located Fault → Prop where
  | base {id : NodeId} {node : Node} (hnode : program.node? id = some node)
    (hplace : node.isPlace = false) : LeadsOut id ⟨.unassignableBase node.describe, id⟩
  | subscript {id base index : NodeId} {fault : Located Fault}
    (hnode : program.node? id = some (.subscript base index)) (hbase : LeadsOut base fault) :
    LeadsOut id fault
  | select {id base : NodeId} {name : String} {fault : Located Fault}
    (hnode : program.node? id = some (.select base name)) (hbase : LeadsOut base fault) :
    LeadsOut id fault

variable {program} {result : Option Ty} {id : NodeId} {ty : Ty} {fault : Located Fault}

theorem LeadsOut.kind_eq (h : LeadsOut program id fault) : fault.cause.kind = .notSupported := by
  induction h with
  | base => rfl
  | subscript _ _ ih => exact ih
  | select _ _ ih => exact ih

/-- Every accepted target is one or the other. -/
theorem Accepts.addressable_or_leadsOut (h : Accepts program result id ty) :
    Addressable program id ∨ ∃ fault, LeadsOut program id fault := by
  obtain ⟨fuel, h⟩ := h
  -- a base is accepted with less fuel, so the chain of subscripts and selectors has an end
  induction fuel generalizing id ty with
  | zero => cases h
  | succ fuel ih =>
    rw [check_succ, Typing.rule] at h
    rcases hnode : program.node? id with _ | node
    · rw [hnode] at h
      exact absurd h not_passes_reject
    · cases hplace : node.isPlace with
      | false => exact .inr ⟨_, .base hnode hplace⟩
      | true =>
        rw [hnode] at h
        cases node with
        | var name attached => exact .inl (.var hnode)
        | subscript base index =>
          have hbase : ∀ _ : Unit, Grows (check program result fuel base >>= fun ty =>
              settle id (elementType ty)) :=
            fun _ => (check_grows _ _ _ _).bind fun ty => settle_grows id (elementType ty)
          obtain ⟨_, -, h⟩ := (passes_bind_iff fun ty =>
            (grows_expect ty .int _ index).bind hbase).mp h
          obtain ⟨_, -, h⟩ := (passes_bind_iff hbase).mp h
          obtain ⟨t, hbase, -⟩ := (passes_bind_iff fun t => settle_grows id _).mp h
          exact (ih hbase).imp (.subscript hnode) fun hout => hout.imp fun _ => .subscript hnode
        | select base name =>
          obtain ⟨t, hbase, -⟩ := (passes_bind_iff fun t => settle_grows id _).mp h
          exact (ih hbase).imp (.select hnode) fun hout => hout.imp fun _ => .select hnode
        | _ => cases hplace

/-- Resolving such a target fails before anything is evaluated. -/
theorem LeadsOut.resolve_eq (h : LeadsOut program id fault) : ∃ k, ∀ (ev : Evaluator)
    (frame : Frame) (depth : Nat), k ≤ depth →
      (resolve program ev frame depth id).run = pure (.error fault) := by
  induction h with
  | @base id node hnode hplace =>
    refine ⟨1, fun ev frame depth hdepth => ?_⟩
    obtain ⟨depth, rfl⟩ : ∃ n, depth = n + 1 := ⟨depth - 1, by omega⟩
    rw [run_resolve_succ, hnode]
    cases node <;> first | rfl | cases hplace
  | subscript hnode _ ih =>
    obtain ⟨k, ih⟩ := ih
    refine ⟨k + 1, fun ev frame depth hdepth => ?_⟩
    obtain ⟨depth, rfl⟩ : ∃ n, depth = n + 1 := ⟨depth - 1, by omega⟩
    rw [run_resolve_succ, hnode]
    dsimp only
    rw [ih ev frame depth (by omega)]
    rfl
  | select hnode _ ih =>
    obtain ⟨k, ih⟩ := ih
    refine ⟨k + 1, fun ev frame depth hdepth => ?_⟩
    obtain ⟨depth, rfl⟩ : ∃ n, depth = n + 1 := ⟨depth - 1, by omega⟩
    rw [run_resolve_succ, hnode]
    dsimp only
    rw [ih ev frame depth (by omega)]
    rfl

end Targets

/-! ### Assignments -/

section Assignments

variable {program : Program} {frame : Frame} {id target value : NodeId} {declares : Bool}
  {state final : State} {m : Marked}

/-- An assignment yields undefined. -/
theorem Evaluates.assign_eq_undefined (h : Evaluates program frame id state m final)
    (hnode : program.node? id = some (.assign target value declares)) : m = .undefined := by
  obtain ⟨fuel, h⟩ := (evaluates_iff_rule.mp h).exists
  rw [Eval.rule_assign hnode] at h
  exact assign_undefined program (eval program fuel) fuel frame id target value declares m final h

/-- A target that is no place is refused at once. -/
theorem evaluates_assign_unassignable_iff {node : Node}
    (hnode : program.node? id = some (.assign target value declares))
    (htarget : program.node? target = some node) (hplace : node.isPlace = false) :
    Evaluates program frame id state m final ↔
      m = .undefined ∧ final = state.record ⟨.unassignable node.describe, id⟩ := by
  have hrule : ∀ fuel, Eval.rule program (eval program fuel) fuel frame id =
      Run.fail (.unassignable node.describe) id := by
    intro fuel
    rw [Eval.rule_assign hnode, assign, htarget]
    cases node <;> first | rfl | cases hplace
  simp only [evaluates_iff_rule, hrule, Run.fail_apply, eventually_const, Option.some.injEq,
    Prod.mk.injEq, eq_comm]

/-- A target that leads out of all variables is refused when the value has been evaluated. -/
theorem LeadsOut.evaluates_assign_iff {fault : Located Fault} (h : LeadsOut program target fault)
    (hnode : program.node? id = some (.assign target value declares))
    (htarget : (∃ base index, program.node? target = some (.subscript base index)) ∨
      ∃ base name, program.node? target = some (.select base name)) :
    Evaluates program frame id state m final ↔
      ∃ v middle, Evaluates program frame value state v middle ∧ m = .undefined ∧
        final = middle.record fault := by
  obtain ⟨k, hresolve⟩ := h.resolve_eq
  have hrule : ∀ᶠ fuel in atTop, Eval.rule program (eval program fuel) fuel frame id =
      eval program fuel frame value >>= fun _ => Run.fail fault.cause fault.node := by
    filter_upwards [eventually_ge_atTop k] with fuel hfuel
    have hplace : assignPlace program (eval program fuel) fuel frame target value =
        eval program fuel frame value >>= fun _ => Run.report fault.cause fault.node := by
      rw [assignPlace, hresolve _ _ _ hfuel]
      rfl
    rw [Eval.rule_assign hnode, assign_eq_assignPlace htarget, hplace, bind_assoc]
    rfl
  rw [evaluates_bind_iff hrule]
  refine exists₂_congr fun v middle => and_congr_right fun _ => ?_
  simp only [Run.fail_apply, Option.some.injEq, Prod.mk.injEq, eq_comm]

/-- The value undefined conforms to no other type. -/
theorem Value.conforms_undefined_iff {ty : Ty} : Value.undefined.Conforms ty ↔ ty = .undefined := by
  constructor
  · intro h
    cases h
    rfl
  · rintro rfl
    exact .undefined

section Outcomes

variable (program frame id value state)

/-- The assignment yields undefined and records the fault, either at once or as soon as the value
has been evaluated, and does nothing else. -/
inductive Refused (fault : Located Fault) : Prop where
  | atOnce (h : ∀ m final, Evaluates program frame id state m final ↔
      m = .undefined ∧ final = state.record fault)
  | afterValue (h : ∀ m final, Evaluates program frame id state m final ↔
      ∃ v middle, Evaluates program frame value state v middle ∧ m = .undefined ∧
        final = middle.record fault)

/-- The assignment ends, and the first fault it records, if any, is excusable.  Without a fault, all
named variables still are of their types. -/
structure AssignedSoundly (G : String → Ty) (named : String → Prop) (final : State)
    (recorded : List (Located Fault)) : Prop where
  ends : Evaluates program frame id state .undefined final
  faults : final.faults = (state.recordAll recorded).faults
  excusable : ∀ first ∈ recorded.head?, first.cause.Excusable
  bound : recorded = [] → final.Bound G named

end Outcomes

variable {result : Option Ty} {ty : Ty}

/-- An accepted target that is not addressable is refused. -/
theorem exists_refused (hnode : program.node? id = some (.assign target value declares))
    (haccepts : Accepts program result id ty) (htarget : ¬ Addressable program target)
    (frame : Frame) (state : State) :
    ∃ fault : Located Fault, fault.cause.kind = .notSupported ∧
      Refused program frame id value state fault := by
  obtain ⟨-, slot, -, htarget', -⟩ := haccepts.assign hnode
  obtain ⟨fault, hfault⟩ := htarget'.addressable_or_leadsOut.resolve_left htarget
  cases hfault with
  | base hplain hplace =>
    exact ⟨_, rfl, .atOnce fun m final => evaluates_assign_unassignable_iff hnode hplain hplace⟩
  | subscript hsubscript hbase =>
    have hout : LeadsOut program target fault := .subscript hsubscript hbase
    exact ⟨fault, hout.kind_eq, .afterValue fun m final =>
      hout.evaluates_assign_iff hnode (.inl ⟨_, _, hsubscript⟩)⟩
  | select hselect hbase =>
    have hout : LeadsOut program target fault := .select hselect hbase
    exact ⟨fault, hout.kind_eq, .afterValue fun m final =>
      hout.evaluates_assign_iff hnode (.inr ⟨_, _, hselect⟩)⟩

/-- A value that assigns nothing goes to a proper target as it was checked. -/
theorem exists_assignedSoundly {G : String → Ty} {named : String → Prop}
    (hnode : program.node? id = some (.assign target value declares))
    (haccepts : Accepts program result id ty) (htarget : Target program G named target)
    (hvalue : Expression program G named value) (hlocals : state.locals.Clean)
    (hglobals : state.globals.Clean) (hbound : state.Bound G named) (frame : Frame) :
    ∃ final recorded, AssignedSoundly program frame id state G named final recorded := by
  have hfits : state.Fits G named state :=
    ⟨⟨hlocals, hglobals⟩, hbound, fun _ _ _ hm => .inr hm⟩
  obtain ⟨fuel, hkeeps⟩ : ∃ fuel, (eval program fuel).Keeps G named state .undefined id :=
    (eventually_assign_keeps hnode htarget hvalue haccepts).exists
  obtain ⟨m, final, recorded, heval, hfaults, hpost⟩ := hkeeps frame state
  have hends : Evaluates program frame id state m final := ⟨fuel, heval⟩
  obtain rfl := hends.assign_eq_undefined hnode
  refine ⟨final, recorded, hends, hfaults, fun first hfirst => ?_, fun hnone => ?_⟩
  · cases recorded with
    | nil => cases hfirst
    | cons head rest =>
      cases hfirst
      exact hpost hfits
  · subst hnone
    exact (hpost hfits).1.bound

/-- **Accepted assignments yield undefined**, so their type is right only if it is undefined.  A
target that is not addressable is refused, though it was accepted.  Otherwise, as long as the value
assigns nothing, the first fault is excusable, and without a fault all variables keep their types.
An assignment as the value of another leaves undefined in the variable. -/
theorem accepted_assignment_undefined
    (hnode : program.node? id = some (.assign target value declares))
    (haccepts : Accepts program result id ty) (frame : Frame) (state : State) :
    (∀ m final, Evaluates program frame id state m final →
      m = .undefined ∧ (m.value.Conforms ty ↔ ty = .undefined)) ∧
    (¬ Addressable program target → ∃ fault : Located Fault, fault.cause.kind = .notSupported ∧
      Refused program frame id value state fault) ∧
    (∀ G named, Target program G named target → Expression program G named value →
      state.locals.Clean → state.globals.Clean → state.Bound G named →
      ∃ final recorded, AssignedSoundly program frame id state G named final recorded) ∧
    ∀ target' value' declares' name attached,
      program.node? value = some (.assign target' value' declares') →
      program.node? target = some (.var name attached) →
      ∀ m final, Evaluates program frame id state m final →
        ∃ scope : Scope, (scope.variables final).get? name = some .undefined := by
  refine ⟨fun m final h => ?_, fun htarget => exists_refused hnode haccepts htarget frame state,
    fun G named htarget hvalue hlocals hglobals hbound =>
      exists_assignedSoundly hnode haccepts htarget hvalue hlocals hglobals hbound frame,
    fun target' value' declares' name attached hnested htarget m final h => ?_⟩
  · obtain rfl := h.assign_eq_undefined hnode
    exact ⟨rfl, Value.conforms_undefined_iff⟩
  · obtain ⟨v, middle, hvalue, -, rfl⟩ := (evaluates_assign_var_iff hnode htarget).mp h
    obtain rfl := hvalue.assign_eq_undefined hnested
    exact ⟨_, (middle.variableBound frame name declares .undefined).bound⟩

end Assignments

/-- `y = 1`, `x = (y = 1)` and `1 = 1`. -/
def chainedProgram : Program where
  nodes := #[.var "x" .int, .var "y" .int, .int 1, .assign ⟨1⟩ ⟨2⟩ false,
    .assign ⟨0⟩ ⟨3⟩ false, .assign ⟨2⟩ ⟨2⟩ false]

/-- Two locals. -/
def chainedState : State where
  locals := .ofPairs [("x", .plain (.int 5)), ("y", .plain (.int 6))]

theorem chainedState_bound : chainedState.Bound (fun _ => .int) (· ∈ ["x", "y"]) := by
  intro name hname
  rcases List.mem_pair.mp hname with rfl | rfl
  · exact ⟨_, rfl, .int 5⟩
  · exact ⟨_, rfl, .int 6⟩

/-- All three are accepted as integers: one goes well, one leaves undefined in `x`, and one is
refused. -/
theorem accepted_assignment_undefined_chainedProgram :
    (∃ final, Evaluates chainedProgram { isFunction := true } ⟨3⟩ chainedState .undefined final ∧
      final.faults = #[] ∧ final.Bound (fun _ => .int) (· ∈ ["x", "y"])) ∧
    (∃ final, Evaluates chainedProgram { isFunction := true } ⟨4⟩ chainedState .undefined final ∧
      ∃ scope : Scope, (scope.variables final).get? "x" = some .undefined) ∧
    ∃ fault : Located Fault, fault.cause.kind = .notSupported ∧
      Evaluates chainedProgram {} ⟨5⟩ {} .undefined (State.record {} fault) := by
  have hsingle : Accepts chainedProgram none ⟨3⟩ .int := ⟨2, rfl⟩
  have hnested : Accepts chainedProgram none ⟨4⟩ .int := ⟨3, rfl⟩
  have hrefused : Accepts chainedProgram none ⟨5⟩ .int := ⟨2, rfl⟩
  have hclean : chainedState.locals.Clean := Namespace.everywhere_ofPairs fun pair hpair => by
    rcases List.mem_pair.mp hpair with rfl | rfl
    · exact (Marked.fits_int 5).clean
    · exact (Marked.fits_int 6).clean
  refine ⟨?_, ?_, ?_⟩
  · obtain ⟨-, -, hsound, -⟩ :=
      accepted_assignment_undefined rfl hsingle { isFunction := true } chainedState
    obtain ⟨final, recorded, hassigned⟩ := hsound (fun _ => .int) (· ∈ ["x", "y"])
      (.var rfl (by decide) .int) (.int rfl) hclean Namespace.everywhere_empty chainedState_bound
    have hends : Evaluates chainedProgram { isFunction := true } ⟨3⟩ chainedState _ _ := ⟨2, rfl⟩
    obtain ⟨-, rfl⟩ := hassigned.ends.unique hends
    have hnone : recorded = [] := State.faults_recordAll_eq_iff.mp hassigned.faults.symm
    exact ⟨_, hassigned.ends, rfl, hassigned.bound hnone⟩
  · obtain ⟨-, -, -, hleft⟩ :=
      accepted_assignment_undefined rfl hnested { isFunction := true } chainedState
    have hends : Evaluates chainedProgram { isFunction := true } ⟨4⟩ chainedState .undefined _ :=
      ⟨3, rfl⟩
    exact ⟨_, hends, hleft _ _ _ _ _ rfl rfl _ _ hends⟩
  · obtain ⟨-, hrefuses, -⟩ := accepted_assignment_undefined rfl hrefused {} {}
    have hplain : ¬ Addressable chainedProgram ⟨2⟩ := by
      intro h
      cases h with
      | var hnode => cases hnode
      | subscript hnode => cases hnode
      | select hnode => cases hnode
    obtain ⟨fault, hkind, hfault⟩ := hrefuses hplain
    cases hfault with
    | atOnce h => exact ⟨fault, hkind, (h _ _).mpr ⟨rfl, rfl⟩⟩
    | afterValue h => exact ⟨fault, hkind, (h _ _).mpr ⟨_, {}, ⟨1, rfl⟩, rfl, rfl⟩⟩

/-- The checker finds the type of an integer for what ends as undefined, without a fault, and also
for what is not supported. -/
theorem assignment_not_of_checked_type :
    (Accepts chainedProgram none ⟨4⟩ .int ∧
      chainedState.Bound (fun _ => .int) (· ∈ ["x", "y"]) ∧ ∃ m final,
      Evaluates chainedProgram { isFunction := true } ⟨4⟩ chainedState m final ∧
      final.faults = #[] ∧ ¬ m.value.Conforms .int ∧ final.lookup "x" = some .undefined) ∧
    Accepts chainedProgram none ⟨5⟩ .int ∧ ∃ m final, Evaluates chainedProgram {} ⟨5⟩ {} m final ∧
      (∃ reported ∈ final.faults, reported.cause.kind = .notSupported) ∧
      ∀ reported ∈ final.faults, ¬ reported.cause.Excusable := by
  refine ⟨⟨⟨3, rfl⟩, chainedState_bound, _, _, ⟨3, rfl⟩, rfl, nofun, rfl⟩, ⟨2, rfl⟩, _, _,
    ⟨2, rfl⟩, ?_, ?_⟩
  · exact ⟨_, Array.mem_push_self, rfl⟩
  · intro reported hreported
    obtain rfl := List.mem_singleton.mp (Array.mem_def.mp hreported)
    simp [Fault.Excusable, Fault.kind]

end Arbor

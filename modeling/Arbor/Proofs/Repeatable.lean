import Arbor.Proofs.Earlier

/-!
# Expressions that only read

An expression in which nothing assigns and nothing calls reads the variables and records faults,
and has no other effect.  So it may be evaluated again: it yields the same value and records the
same faults once more, whatever has been recorded in the meantime.

The length in the type of a literal is not part of the expression.  It may assign, to variables
that exist beside the state and only while the length is computed.

* `Program.ReadsOnly` — no part of the expression assigns or calls;
* `Program.ReadsOnly.exists_recorded` — the value and the faults depend on the variables alone;
* `reads_only_repeatable` — the variables stay, and the second evaluation is like the first.
-/

namespace Arbor

/-- The node itself neither assigns nor calls. -/
def Node.readsOnly : Node → Bool
  | .assign .. | .call .. => false
  | _ => true

/-- No part of the expression assigns or calls. -/
def Program.ReadsOnly (program : Program) (id : NodeId) : Prop :=
  ∀ part node, program.Contains id part → program.node? part = some node →
    node.readsOnly = true

namespace Program

variable {program : Program} {id : NodeId}

/-- It is enough to look at nodes that have all their children among them. -/
theorem readsOnly_of_forall (parts : List NodeId) (hid : id ∈ parts)
    (h : ∀ part ∈ parts, ∀ node ∈ program.node? part,
      node.readsOnly = true ∧ ∀ child ∈ node.children program, child ∈ parts) :
    program.ReadsOnly id := by
  intro part node hpart hnode
  have hmem : part ∈ parts := by
    clear hnode
    induction hpart with
    | refl => exact hid
    | tail _ hchild ih =>
      obtain ⟨parent, hparent, hchild⟩ := hchild
      exact (h _ ih parent hparent).2 _ hchild
  exact (h part hmem node hnode).1

/-- Nothing is stored and nothing is called, and evaluation stays within the expression. -/
theorem ReadsOnly.footprint (h : program.ReadsOnly id) :
    program.Footprint (program.Contains id) (fun _ => False) (fun _ => True) where
  child hpart hnode hchild := Relation.ReflTransGen.tail hpart ⟨_, hnode, hchild⟩
  stored hpart hnode _ _ := Bool.false_ne_true (h _ _ hpart hnode)
  body hpart hnode _ := absurd (h _ _ hpart hnode) Bool.false_ne_true

end Program

variable {program : Program} {frame : Frame} {id : NodeId} {state final : State} {m : Marked}

/-- All that evaluation does to the state is to record faults, at parts of the expression. -/
theorem Program.ReadsOnly.eq_recordAll (hreads : program.ReadsOnly id)
    (h : Evaluates program frame id state m final) : ∃ recorded : List (Located Fault),
      final = state.recordAll recorded ∧ ∀ fault ∈ recorded, program.Contains id fault.node := by
  obtain ⟨-, hreached⟩ := h.yields (hereditary_true program) hreads.footprint
    Relation.ReflTransGen.refl state.everywhere_true
  have hkept : ∀ scope : Eval.Scope, scope.variables final = scope.variables state :=
    fun scope => NameMap.ext_get? fun _ => hreached.evolves.get?_of_not_stored not_false scope
  obtain ⟨recorded, hfaults, hlocated⟩ := hreached.evolves.exists_recorded
  have hrecorded : final.faults = state.faults ++ recorded.toList := by
    rw [hfaults]
    exact Array.ext' (by simp)
  refine ⟨recorded.toList, ?_, fun fault hfault => hlocated fault (Array.mem_toList_iff.mp hfault)⟩
  have hlocals : final.locals = state.locals := hkept .local
  have hglobals : final.globals = state.globals := hkept .global
  rw [State.recordAll, ← hlocals, ← hglobals, ← hrecorded]

/-- The value and the faults depend on the variables alone, and not on what was recorded before. -/
theorem Program.ReadsOnly.exists_recorded (hreads : program.ReadsOnly id)
    (h : Evaluates program frame id state m final) : ∃ recorded : List (Located Fault),
      (∀ fault ∈ recorded, program.Contains id fault.node) ∧
      ∀ earlier : Array (Located Fault), Evaluates program frame id
        { state with faults := earlier } m
        (State.recordAll { state with faults := earlier } recorded) := by
  rw [← state.preceded_faults, evaluates_preceded_iff] at h
  obtain ⟨alone, halone, -⟩ := h
  obtain ⟨recorded, rfl, hlocated⟩ := hreads.eq_recordAll halone
  refine ⟨recorded, hlocated, fun earlier => ?_⟩
  have hstate : State.preceded { state with faults := #[] } earlier =
      { state with faults := earlier } := by
    rw [State.preceded, Array.append_empty]
  rw [← hstate, evaluates_preceded_iff]
  exact ⟨_, halone, (State.preceded_recordAll ..).symm⟩

/-- **Expressions that only read are repeatable.**  If no part of an expression assigns or calls,
evaluation leaves all variables as they were and records faults at parts of the expression.
Evaluated again in the state that it left, it yields the same value and records the same faults
again. -/
theorem reads_only_repeatable (hreads : program.ReadsOnly id)
    (h : Evaluates program frame id state m final) :
    final.locals = state.locals ∧ final.globals = state.globals ∧
    ∃ recorded : List (Located Fault), final = state.recordAll recorded ∧
      (∀ fault ∈ recorded, program.Contains id fault.node) ∧
      Evaluates program frame id final m (final.recordAll recorded) := by
  obtain ⟨recorded, hlocated, hevaluates⟩ := hreads.exists_recorded h
  obtain ⟨-, rfl⟩ := h.unique (hevaluates state.faults)
  exact ⟨rfl, rfl, recorded, rfl, hlocated, hevaluates _⟩

/-- `[1 / 0, 1]`, whose length is computed by `n = 2; return n`. -/
def countedProgram : Program where
  nodes := #[.int 2, .var "n" .int, .assign ⟨1⟩ ⟨0⟩ true, .ret ⟨1⟩, .block ⟨0, 2⟩,
    .int 1, .int 0, .binary .div ⟨5⟩ ⟨6⟩, .arrayLiteral .int ⟨4⟩ ⟨2, 2⟩]
  childCells := #[⟨2⟩, ⟨3⟩, ⟨7⟩, ⟨5⟩]

/-- There is an `n` already, and a fault. -/
def countedState : State where
  locals := .ofPairs [("n", .plain (.string "text"))]
  faults := #[⟨.unresolvedCallee, ⟨0⟩⟩]

/-- The length assigns, and the literal does not. -/
theorem reads_only_repeatable_countedProgram :
    let divided : Located Fault := ⟨.operator .divisionByZero, ⟨7⟩⟩
    let literal : Marked := .list .int ⟨4⟩ [.undefined, .plain (.int 1)]
    let final : State := countedState.recordAll [divided]
    countedProgram.ReadsOnly ⟨8⟩ ∧
    Evaluates countedProgram {} ⟨8⟩ countedState literal final ∧
    final.locals = countedState.locals ∧
    Evaluates countedProgram {} ⟨8⟩ final literal (final.recordAll [divided]) := by
  intro divided literal final
  have hreads : countedProgram.ReadsOnly ⟨8⟩ :=
    Program.readsOnly_of_forall [⟨5⟩, ⟨6⟩, ⟨7⟩, ⟨8⟩] (by decide) (by decide)
  have hends : Evaluates countedProgram {} ⟨8⟩ countedState literal final := ⟨4, rfl⟩
  obtain ⟨hlocals, -, recorded, hfinal, -, hagain⟩ := reads_only_repeatable hreads hends
  have hrecorded : [divided] = recorded := by
    have hfaults : #[_, divided] = #[_] ++ recorded := congrArg State.faults hfinal
    simpa using congrArg Array.toList hfaults
  rw [← hrecorded] at hagain
  exact ⟨hreads, hends, hlocals, hagain⟩

end Arbor

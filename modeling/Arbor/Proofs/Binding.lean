import Arbor.Proofs.Fuel
import Arbor.Proofs.Scope

/-!
# Assignment to a variable

An assignment to a plain variable evaluates its value and then binds the name in one of the
two scopes.  Which one depends on the frame and on what is bound already, as the value left it
(`BindsLocally`).  A variable is read locals first, in any frame, so reading and writing may
differ: outside a function's body, the assignment to a name that is bound locally goes past
the local to the globals, and the local is read still (`BypassesLocal`).  There is no other
such case.

* `scopeOf_eq_local_iff` — the rule for the scope that is written;
* `evaluates_assign_var_iff` — the assignment stores a clean copy there;
* `assign_binds_variable` — this is all it does, and the variable is read back unless a local
  was bypassed.
-/

namespace Arbor

open Eval Filter

section Rule

variable (frame : Frame) (state : State) (name : String) (declares : Bool) (m : Marked)

/-- The variable is bound as a local: by a declaration, by a value that is unresolved, or in a
function's body unless the name is bound as a global only. -/
def BindsLocally : Prop :=
  declares = true ∨ m.unresolved = true ∨ frame.isFunction = true ∧
    ((∃ old, state.locals.get? name = some old) ∨
      state.locals.get? name = none ∧ state.globals.get? name = none)

/-- The assignment goes past a local to the globals. -/
structure BypassesLocal (old : Marked) : Prop where
  bound : state.locals.get? name = some old
  noFunction : frame.isFunction = false
  noDeclaration : declares = false
  resolved : m.unresolved = false

variable {frame state name declares m}

theorem scopeOf_eq_local_iff :
    scopeOf frame state name declares m = .local ↔ BindsLocally frame state name declares m := by
  unfold scopeOf BindsLocally NameMap.contains
  cases declares <;> cases m.unresolved <;> cases frame.isFunction <;>
    cases state.locals.get? name <;> cases state.globals.get? name <;> simp

/-- A local is bypassed exactly if it is not the local that is written. -/
theorem bypassesLocal_iff {old : Marked} :
    BypassesLocal frame state name declares m old ↔
      state.locals.get? name = some old ∧ ¬ BindsLocally frame state name declares m := by
  constructor
  · intro h
    refine ⟨h.bound, ?_⟩
    simp [BindsLocally, h.noFunction, h.noDeclaration, h.resolved]
  · intro h
    obtain ⟨hbound, hnot⟩ := h
    simp only [BindsLocally, not_or, not_and, Bool.not_eq_true] at hnot
    obtain ⟨hdeclares, hresolved, hfunction⟩ := hnot
    refine ⟨hbound, ?_, hdeclares, hresolved⟩
    by_contra hbody
    exact (hfunction (by simpa using hbody)).1 ⟨old, hbound⟩

end Rule

variable {program : Program} {frame : Frame} {id : NodeId} {state middle : State} {name : String}
  {m : Marked}

/-! ### Reading and writing a variable -/

theorem evaluates_var {ty : Ty} (hnode : program.node? id = some (.var name ty)) (frame : Frame)
    (state : State) : Evaluates program frame id state (state.read name) state := by
  refine ⟨1, ?_⟩
  rw [eval_succ, Eval.rule, hnode]
  rfl

theorem State.read_of_local (h : state.locals.get? name = some m) : state.read name = m := by
  rw [State.read, State.lookup, h]
  rfl

theorem State.read_of_global (hlocal : state.locals.get? name = none)
    (h : state.globals.get? name = some m) : state.read name = m := by
  rw [State.read, State.lookup, hlocal, h]
  rfl

/-- The state in which a clean copy of `m` is bound in the scope that an assignment writes. -/
def State.binding (state : State) (frame : Frame) (name : String) (declares : Bool) (m : Marked) :
    State :=
  (scopeOf frame state name declares m).update
    (NameMap.insert ((scopeOf frame state name declares m).variables state) name m.cleaned) state

theorem Eval.rule_assign {target value : NodeId} {declares : Bool}
    (hnode : program.node? id = some (.assign target value declares)) (ev : Evaluator) (fuel : Nat)
    (frame : Frame) : Eval.rule program ev fuel frame id =
      assign program ev fuel frame id target value declares := by
  simp only [Eval.rule, hnode]

/-- The value is evaluated, and then the variable is bound. -/
theorem evaluates_assign_var_iff {target value : NodeId} {declares : Bool} {ty : Ty}
    {final : State} (hnode : program.node? id = some (.assign target value declares))
    (htarget : program.node? target = some (.var name ty)) :
    Evaluates program frame id state m final ↔
      ∃ v middle, Evaluates program frame value state v middle ∧ m = .undefined ∧
        final = middle.binding frame name declares v := by
  have hrule : ∀ fuel, Eval.rule program (eval program fuel) fuel frame id =
      eval program fuel frame value >>= fun v =>
        bindVariable frame name declares v >>= fun _ => pure .undefined := by
    intro fuel
    rw [Eval.rule_assign hnode, assign, htarget]
  rw [evaluates_bind_iff (.of_forall hrule)]
  refine exists₂_congr fun v middle => and_congr_right fun _ => ?_
  constructor
  · intro h
    cases h
    exact ⟨rfl, rfl⟩
  · rintro ⟨rfl, rfl⟩
    rfl

/-- One variable of one scope is bound to a clean copy of `m`, and nothing else changes. -/
structure VariableBound (frame : Frame) (name : String) (declares : Bool) (m : Marked)
    (state final : State) (scope : Scope) : Prop where
  faults : final.faults = state.faults
  local_iff : scope = .local ↔ BindsLocally frame state name declares m
  bound : (scope.variables final).get? name = some m.cleaned
  unchanged : OnlyChanged scope name state final

theorem State.variableBound (state : State) (frame : Frame) (name : String) (declares : Bool)
    (m : Marked) :
    VariableBound frame name declares m state (state.binding frame name declares m)
      (scopeOf frame state name declares m) where
  faults := by
    unfold State.binding
    cases scopeOf frame state name declares m <;> rfl
  local_iff := scopeOf_eq_local_iff
  bound := get?_update_self _ name m.cleaned state
  unchanged := onlyChanged_update _ name m.cleaned state

/-- What is written as a local is read back. -/
theorem VariableBound.read_eq {declares : Bool} {scope : Scope} {final : State}
    (h : VariableBound frame name declares m state final scope)
    (hread : ∀ old, ¬ BypassesLocal frame state name declares m old) :
    final.read name = m.cleaned := by
  cases scope with
  | «local» => exact State.read_of_local h.bound
  | global =>
    have hnot : ¬ BindsLocally frame state name declares m := fun hlocal =>
      nomatch h.local_iff.mpr hlocal
    have hlocals : final.locals = state.locals := h.unchanged.scopes .local nofun
    have hunbound : state.locals.get? name = none := by
      apply Option.eq_none_iff_forall_ne_some.mpr
      intro old hold
      exact hread old (bypassesLocal_iff.mpr ⟨hold, hnot⟩)
    exact State.read_of_global (hlocals ▸ hunbound) h.bound

/-- Behind a local that was bypassed, the value is in the globals. -/
theorem VariableBound.read_of_bypassesLocal {declares : Bool} {scope : Scope} {final : State}
    {old : Marked} (h : VariableBound frame name declares m state final scope)
    (hold : BypassesLocal frame state name declares m old) :
    final.read name = old ∧ final.globals.get? name = some m.cleaned := by
  obtain ⟨hbound, hnot⟩ := bypassesLocal_iff.mp hold
  cases scope with
  | «local» => exact absurd (h.local_iff.mp rfl) hnot
  | global =>
    have hlocals : final.locals = state.locals := h.unchanged.scopes .local nofun
    exact ⟨State.read_of_local (hlocals ▸ hbound), h.bound⟩

/-- **A plain assignment binds one variable.**  When the value is evaluated, the assignment binds
the name to a clean copy of it in one scope, and does nothing else.  The variable is read back
afterwards, unless a local was bypassed, which then is read as before. -/
theorem assign_binds_variable {target value : NodeId} {declares : Bool} {ty : Ty}
    (hnode : program.node? id = some (.assign target value declares))
    (htarget : program.node? target = some (.var name ty))
    (hvalue : Evaluates program frame value state m middle) :
    ∃ final scope, Evaluates program frame id state .undefined final ∧
      VariableBound frame name declares m middle final scope ∧
      ∀ reference ty', program.node? reference = some (.var name ty') →
        ((∀ old, ¬ BypassesLocal frame middle name declares m old) →
          Evaluates program frame reference final m.cleaned final) ∧
        (∀ old, BypassesLocal frame middle name declares m old →
          Evaluates program frame reference final old final ∧
            final.globals.get? name = some m.cleaned) := by
  have hbound := middle.variableBound frame name declares m
  have hends := (evaluates_assign_var_iff hnode htarget).mpr ⟨m, middle, hvalue, rfl, rfl⟩
  refine ⟨_, _, hends, hbound, fun reference ty' href => ⟨?_, ?_⟩⟩
  · intro hread
    have hreads := evaluates_var href frame (middle.binding frame name declares m)
    rwa [hbound.read_eq hread] at hreads
  · intro old hold
    obtain ⟨hread, hglobal⟩ := hbound.read_of_bypassesLocal hold
    have hreads := evaluates_var href frame (middle.binding frame name declares m)
    rw [hread] at hreads
    exact ⟨hreads, hglobal⟩

/-- `p = (if local p = 5; true { p + 1 })`, whose value declares the local first. -/
def declaringProgram : Program where
  nodes := #[.var "p" .int, .int 5, .assign ⟨0⟩ ⟨1⟩ true, .bool true, .int 1,
    .binary .add ⟨0⟩ ⟨4⟩, .cond (some ⟨2⟩) ⟨3⟩ ⟨5⟩ none, .assign ⟨0⟩ ⟨6⟩ false]

/-- The state after the declaration. -/
def declaredState : State where
  locals := .ofPairs [("p", .plain (.int 5))]

/-- In a function's body the local that was just declared is written; elsewhere it is bypassed,
and the sum becomes a global. -/
theorem assign_binds_variable_declaringProgram :
    BypassesLocal {} declaredState "p" false (.plain (.int 6)) (.plain (.int 5)) ∧
    (∃ final, Evaluates declaringProgram {} ⟨7⟩ {} .undefined final ∧
      Evaluates declaringProgram {} ⟨0⟩ final (.plain (.int 5)) final ∧
      final.globals.get? "p" = some (.plain (.int 6))) ∧
    ∃ final, Evaluates declaringProgram { isFunction := true } ⟨7⟩ {} .undefined final ∧
      Evaluates declaringProgram { isFunction := true } ⟨0⟩ final (.plain (.int 6)) final := by
  have hbypass : BypassesLocal {} declaredState "p" false (.plain (.int 6)) (.plain (.int 5)) :=
    ⟨rfl, rfl, rfl, rfl⟩
  have hvalue : ∀ frame, Evaluates declaringProgram frame ⟨6⟩ {} (.plain (.int 6)) declaredState :=
    fun frame => ⟨3, rfl⟩
  have hnode : declaringProgram.node? ⟨7⟩ = some (.assign ⟨0⟩ ⟨6⟩ false) := rfl
  have htarget : declaringProgram.node? ⟨0⟩ = some (.var "p" .int) := rfl
  obtain ⟨final, -, hends, -, hreads⟩ := assign_binds_variable hnode htarget (hvalue {})
  obtain ⟨final', -, hends', -, hreads'⟩ :=
    assign_binds_variable hnode htarget (hvalue { isFunction := true })
  refine ⟨hbypass, ⟨final, hends, (hreads ⟨0⟩ .int rfl).2 _ hbypass⟩, final', hends', ?_⟩
  exact (hreads' ⟨0⟩ .int rfl).1 fun old hold => nomatch hold.noFunction

end Arbor

import Arbor.Eval.Place

/-!
# Variables and their scopes

A variable is read in the scope where it is bound, locals first, and a composite
assignment writes it there.  Writing one variable of one scope leaves everything
else as it is (`OnlyChanged`).

* `get?_of_boundIn?`, `read_update` — reading a variable in the scope where it is
  bound, before and after it is written there;
* `onlyChanged_update` — what is not written stays;
* `Place.store_eq` — storing to a place writes its variable.
-/

namespace Arbor

open Eval

variable {root : String} {steps : List Step} {state : State}

/-- The variable `root` as an expression. -/
def State.read (state : State) (root : String) : Marked :=
  (state.lookup root).getD .miss

/-- Only the variable `root` of the scope differs. -/
structure OnlyChanged (scope : Scope) (root : String) (state final : State) : Prop where
  names : ∀ name, name ≠ root →
    (scope.variables final).get? name = (scope.variables state).get? name
  scopes : ∀ other, other ≠ scope → other.variables final = other.variables state

theorem onlyChanged_update (scope : Scope) (root : String) (m : Marked) (state : State) :
    OnlyChanged scope root state
      (scope.update (NameMap.insert (scope.variables state) root m) state) := by
  constructor
  · intro name hname
    cases scope <;> exact NameMap.get?_insert_of_ne _ hname m
  · intro other hother
    cases scope <;> cases other <;> first | rfl | exact absurd rfl hother

theorem get?_update_self (scope : Scope) (root : String) (m : Marked) (state : State) :
    (scope.variables (scope.update (NameMap.insert (scope.variables state) root m) state)).get?
      root = some m := by
  cases scope <;> exact NameMap.get?_insert_self ..

/-- What is bound elsewhere, or under another name, stays as it was. -/
theorem OnlyChanged.get?_eq {written scope : Scope} {name : String} {final : State}
    (h : OnlyChanged written root state final) (hother : ¬ (scope = written ∧ name = root)) :
    (scope.variables final).get? name = (scope.variables state).get? name := by
  by_cases hsame : scope = written
  · subst hsame
    exact h.names name fun hname => hother ⟨rfl, hname⟩
  · rw [h.scopes scope hsame]

/-- Other variables are found as before. -/
theorem OnlyChanged.lookup {scope : Scope} {final : State} (h : OnlyChanged scope root state final)
    {name : String} (hname : name ≠ root) : final.lookup name = state.lookup name := by
  have hlocal : final.locals.get? name = state.locals.get? name := by
    cases scope with
    | «local» => exact h.names name hname
    | global => exact congrArg (·.get? name) (h.scopes .local nofun)
  have hglobal : final.globals.get? name = state.globals.get? name := by
    cases scope with
    | «local» => exact congrArg (·.get? name) (h.scopes .global nofun)
    | global => exact h.names name hname
  rw [State.lookup, State.lookup, hlocal, hglobal]

/-- A variable that is written is found with its new value, unless a local hides it. -/
theorem lookup_update (scope : Scope) (root : String) (m : Marked) (state : State) :
    (scope.update (NameMap.insert (scope.variables state) root m) state).lookup root = some m ∨
      (scope.update (NameMap.insert (scope.variables state) root m) state).lookup root =
        state.lookup root := by
  cases scope with
  | «local» => simp [State.lookup, Scope.update, Scope.variables]
  | global => cases hlocal : state.locals.get? root <;>
      simp [State.lookup, Scope.update, Scope.variables, hlocal]

theorem boundIn?_eq_local_iff :
    boundIn? state root = some .local ↔ (state.locals.get? root).isSome = true := by
  unfold boundIn?
  unfold NameMap.contains
  split
  · next h => simp [h]
  · next h => split <;> simp [h]

theorem boundIn?_eq_global_iff :
    boundIn? state root = some .global ↔
      state.locals.get? root = none ∧ (state.globals.get? root).isSome = true := by
  unfold boundIn?
  unfold NameMap.contains
  cases state.locals.get? root <;> cases state.globals.get? root <;> simp

theorem boundIn?_eq_none_iff :
    boundIn? state root = none ↔
      state.locals.get? root = none ∧ state.globals.get? root = none := by
  unfold boundIn?
  unfold NameMap.contains
  cases state.locals.get? root <;> cases state.globals.get? root <;> simp

/-- A variable is read in the scope where it is bound. -/
theorem get?_of_boundIn? {scope : Scope} (h : boundIn? state root = some scope) :
    (scope.variables state).get? root = some (state.read root) := by
  unfold State.read State.lookup
  cases scope with
  | «local» =>
    obtain ⟨m, hm⟩ := Option.isSome_iff_exists.mp (boundIn?_eq_local_iff.mp h)
    simp [Scope.variables, hm]
  | global =>
    obtain ⟨hlocal, hglobal⟩ := boundIn?_eq_global_iff.mp h
    obtain ⟨m, hm⟩ := Option.isSome_iff_exists.mp hglobal
    simp [Scope.variables, hlocal, hm]

/-- A new value of the variable is read afterwards. -/
theorem read_update {scope : Scope} (h : boundIn? state root = some scope) (m : Marked) :
    (scope.update (NameMap.insert (scope.variables state) root m) state).read root = m := by
  unfold State.read State.lookup
  cases scope with
  | «local» => simp [Scope.update, Scope.variables]
  | global =>
    obtain ⟨hlocal, -⟩ := boundIn?_eq_global_iff.mp h
    simp [Scope.update, Scope.variables, hlocal]

/-- A variable that is found is bound somewhere. -/
theorem exists_boundIn? {m : Marked} (h : state.lookup root = some m) :
    ∃ scope, boundIn? state root = some scope ∧ (scope.variables state).get? root = some m := by
  cases hscope : boundIn? state root with
  | none =>
    obtain ⟨hlocal, hglobal⟩ := boundIn?_eq_none_iff.mp hscope
    simp [State.lookup, hlocal, hglobal] at h
  | some scope =>
    have hread := get?_of_boundIn? hscope
    rw [State.read, h] at hread
    exact ⟨scope, rfl, hread⟩

theorem read_of_boundIn?_eq_none (h : boundIn? state root = none) : state.read root = .miss := by
  obtain ⟨hlocal, hglobal⟩ := boundIn?_eq_none_iff.mp h
  rw [State.read, State.lookup, hlocal, hglobal]
  rfl

theorem Place.store_eq {scope : Scope} {old : Marked} (v : Marked)
    (hold : (scope.variables state).get? root = some old) :
    Place.store ⟨scope, root, steps⟩ v state = (replaceAt v.cleaned steps old).map fun new =>
      scope.update (NameMap.insert (scope.variables state) root new) state := by
  unfold Place.store
  dsimp only
  rw [hold]
  rfl

theorem Place.store_faults {place : Place} {v : Marked} {stored : State}
    (h : place.store v state = .ok stored) : stored.faults = state.faults := by
  obtain ⟨scope, root, steps⟩ := place
  cases hold : (scope.variables state).get? root with
  | none =>
    unfold Place.store at h
    simp [hold] at h
  | some old =>
    rw [store_eq v hold] at h
    cases hnew : replaceAt v.cleaned steps old with
    | error fault => simp [hnew, Except.map] at h
    | ok new =>
      simp only [hnew, Except.map, Except.ok.injEq] at h
      rw [← h]
      cases scope <;> rfl

/-- Steps that lead nowhere fail at the first of them that does. -/
theorem exists_step_of_replaceAt_eq_error {new m : Marked} {fault : Located Fault}
    (h : replaceAt new steps m = .error fault) : ∃ step ∈ steps, step.node = fault.node := by
  induction steps generalizing m with
  | nil => cases h
  | cons step rest ih =>
    cases step with
    | index n node =>
      unfold replaceAt at h
      split at h
      · next elem length items _ =>
        split at h
        · cases h
          exact ⟨_, List.mem_cons_self, rfl⟩
        · split at h
          · cases h
            exact ⟨_, List.mem_cons_self, rfl⟩
          · next item _ =>
            cases hrest : replaceAt new rest item with
            | error cause =>
              rw [hrest] at h
              cases h
              obtain ⟨step, hstep, hnode⟩ := ih hrest
              exact ⟨step, List.mem_cons_of_mem _ hstep, hnode⟩
            | ok item' =>
              rw [hrest] at h
              cases h
      · cases h
        exact ⟨_, List.mem_cons_self, rfl⟩
    | field name node =>
      unfold replaceAt at h
      split at h
      · split at h
        · cases h
          exact ⟨_, List.mem_cons_self, rfl⟩
        · next old _ =>
          cases hrest : replaceAt new rest old with
          | error cause =>
            rw [hrest] at h
            cases h
            obtain ⟨step, hstep, hnode⟩ := ih hrest
            exact ⟨step, List.mem_cons_of_mem _ hstep, hnode⟩
          | ok old' =>
            rw [hrest] at h
            cases h
      · cases h
        exact ⟨_, List.mem_cons_self, rfl⟩

/-- While its variable is bound, a place is missed at one of its steps. -/
theorem Place.exists_step_of_store_eq_error {place : Place} {m : Marked} {fault : Located Fault}
    (hbound : (place.scope.variables state).contains place.root = true)
    (h : place.store m state = .error fault) : ∃ step ∈ place.steps, step.node = fault.node := by
  obtain ⟨scope, root, steps⟩ := place
  obtain ⟨old, hold⟩ := Option.isSome_iff_exists.mp hbound
  rw [Place.store_eq m hold] at h
  cases hnew : replaceAt m.cleaned steps old with
  | error cause =>
    rw [hnew] at h
    cases h
    exact exists_step_of_replaceAt_eq_error hnew
  | ok new =>
    rw [hnew] at h
    cases h

/-- The state after an attempt to store. -/
def State.after (state : State) : Except (Located Fault) State → State
  | .ok stored => stored
  | .error fault => state.record fault

theorem writePlace_apply (place : Except (Located Fault) Place) (v : Marked) (state : State) :
    writePlace place v state =
      some ((), state.after (place.bind fun place => place.store v state)) := by
  rw [writePlace, Run.bind_apply, Run.get_apply, Option.bind_some]
  cases place.bind fun place => place.store v state <;> rfl

end Arbor

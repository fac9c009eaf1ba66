import Arbor.Eval.Access
import Arbor.Program

/-!
# Assignment

A plain variable is bound in one of the two scopes (`scopeOf`).  A composite
target, a chain of subscripts and selectors over a variable, is resolved to a
place before the value is evaluated: the scope and name of its root variable and
the steps from there to the slot.  The write then follows the steps and replaces
what it finds, or reports the first step that leads nowhere and changes nothing.

* `replaceAt_nil` — without steps the whole value is replaced;
* `Place.store` changes one variable of one scope, or nothing.
-/

namespace Arbor.Eval

/-- Where a variable is bound. -/
inductive Scope where
  | local
  | global
  deriving DecidableEq

/-- One step into a composite value, with the node that takes it. -/
inductive Step where
  | index (position : Int64) (node : NodeId)
  | field (name : String) (node : NodeId)

/-- The node that takes a step. -/
def Step.node : Step → NodeId
  | .index _ node => node
  | .field _ node => node

/-- A slot inside a variable. -/
structure Place where
  scope : Scope
  root : String
  /-- The steps from the root to the slot. -/
  steps : List Step

/-- The variables of a scope. -/
def Scope.variables : Scope → State → Namespace
  | .local, state => state.locals
  | .global, state => state.globals

/-- Replace the variables of a scope. -/
def Scope.update : Scope → Namespace → State → State
  | .local, bindings, state => { state with locals := bindings }
  | .global, bindings, state => { state with globals := bindings }

/-- The scope that an assignment to a plain variable writes: the locals for a declaration, for a
value that came from an unbound variable, and for a local of the function whose body this is;
otherwise the globals if the name is bound there, and else the frame's own scope. -/
def scopeOf (frame : Frame) (state : State) (name : String) (declares : Bool) (m : Marked) :
    Scope :=
  if declares || m.unresolved || (frame.isFunction && state.locals.contains name) then .local
  else if state.globals.contains name then .global
  else if frame.isFunction then .local
  else .global

/-- Bind a plain variable. -/
def bindVariable (frame : Frame) (name : String) (declares : Bool) (m : Marked) : Run Unit :=
  modify fun state =>
    let scope := scopeOf frame state name declares m
    scope.update ((scope.variables state).save name m) state

/-- Follow steps into a value and replace what is there; the slots on the way keep their marks. -/
def replaceAt (new : Marked) : List Step → Marked → Except (Located Fault) Marked
  | [], _ => .ok new
  | .index n node :: rest, m =>
    match m.value with
    | .list elem length items =>
      match position? n items.length with
      | none => .error ⟨.indexOutOfBounds n items.length, node⟩
      | some i =>
        match items[i]? with
        | none => .error ⟨.indexOutOfBounds n items.length, node⟩
        | some item => do
          let item ← replaceAt new rest item
          .ok { m with value := .list elem length (items.set i item) }
    | v => .error ⟨.notIndexable v.ty, node⟩
  | .field name node :: rest, m =>
    match m.value with
    | .record shape fields =>
      match Entries.get? name fields with
      | none => .error ⟨.noField name, node⟩
      | some old => do
        let old ← replaceAt new rest old
        .ok { m with value := .record shape (Entries.put name old fields) }
    | v => .error ⟨.notSelectable name v.ty, node⟩

@[simp] theorem replaceAt_nil (new m : Marked) : replaceAt new [] m = .ok new := rfl

/-- Stepping to an element succeeds in a list that has this position, if the rest does. -/
theorem replaceAt_index_eq_ok_iff {new m m' : Marked} {n : Int64} {node : NodeId}
    {rest : List Step} :
    replaceAt new (.index n node :: rest) m = .ok m' ↔
      ∃ elem length items i item item', m.value = .list elem length items ∧
        position? n items.length = some i ∧ items[i]? = some item ∧
        replaceAt new rest item = .ok item' ∧
        m' = { m with value := .list elem length (items.set i item') } := by
  constructor
  · intro h
    cases hv : m.value with
    | list elem length items =>
      cases hi : position? n items.length with
      | none => simp [replaceAt, hv, hi] at h
      | some i =>
        cases hitem : items[i]? with
        | none => simp [replaceAt, hv, hi, hitem] at h
        | some item =>
          cases hrest : replaceAt new rest item with
          | error fault => simp [replaceAt, hv, hi, hitem, hrest, bind, Except.bind] at h
          | ok item' =>
            simp only [replaceAt, hv, hi, hitem, hrest, bind, Except.bind, Except.ok.injEq] at h
            exact ⟨elem, length, items, i, item, item', rfl, hi, hitem, hrest, h.symm⟩
    | _ => simp [replaceAt, hv] at h
  · intro h
    obtain ⟨elem, length, items, i, item, item', hv, hi, hitem, hrest, rfl⟩ := h
    simp [replaceAt, hv, hi, hitem, hrest, bind, Except.bind]

/-- Stepping to a field succeeds in a record that holds it, if the rest does. -/
theorem replaceAt_field_eq_ok_iff {new m m' : Marked} {name : String} {node : NodeId}
    {rest : List Step} :
    replaceAt new (.field name node :: rest) m = .ok m' ↔
      ∃ shape fields old old', m.value = .record shape fields ∧
        Entries.get? name fields = some old ∧ replaceAt new rest old = .ok old' ∧
        m' = { m with value := .record shape (Entries.put name old' fields) } := by
  constructor
  · intro h
    cases hv : m.value with
    | record shape fields =>
      cases hold : Entries.get? name fields with
      | none => simp [replaceAt, hv, hold] at h
      | some old =>
        cases hrest : replaceAt new rest old with
        | error fault => simp [replaceAt, hv, hold, hrest, bind, Except.bind] at h
        | ok old' =>
          simp only [replaceAt, hv, hold, hrest, bind, Except.bind, Except.ok.injEq] at h
          exact ⟨shape, fields, old, old', rfl, hold, hrest, h.symm⟩
    | _ => simp [replaceAt, hv] at h
  · intro h
    obtain ⟨shape, fields, old, old', hv, hold, hrest, rfl⟩ := h
    simp [replaceAt, hv, hold, hrest, bind, Except.bind]

namespace Place

/-- The node of the first step; a place without steps belongs to no node. -/
def firstNode (place : Place) : NodeId :=
  (place.steps.head?.map Step.node).getD .invalid

/-- The state after writing a clean copy of `m` to a place. -/
def store (place : Place) (m : Marked) (state : State) : Except (Located Fault) State :=
  match (place.scope.variables state).get? place.root with
  | none => .error ⟨.unresolvedRoot place.root, place.firstNode⟩
  | some old => do
    let new ← replaceAt m.cleaned place.steps old
    .ok (place.scope.update ((place.scope.variables state).insert place.root new) state)

end Place

/-- The scope where a name is bound, locals first. -/
def boundIn? (state : State) (name : String) : Option Scope :=
  if state.locals.contains name then some .local
  else if state.globals.contains name then some .global
  else none

/-- Resolve a target from its root outward, evaluating indices on the way. -/
def resolve (program : Program) (ev : Evaluator) (frame : Frame) :
    Nat → NodeId → ExceptT (Located Fault) Run Place
  | 0, _ => ExceptT.lift Run.outOfFuel
  | fuel + 1, id =>
    match program.node? id with
    | some (.var name _) => do
      match boundIn? (← get) name with
      | some scope => pure ⟨scope, name, []⟩
      | none => throw ⟨.unresolvedRoot name, id⟩
    | some (.subscript base index) => do
      let place ← resolve program ev frame fuel base
      let index ← ExceptT.lift (ev frame index)
      match index.value.int? with
      | some n => pure { place with steps := place.steps ++ [.index n id] }
      | none => throw ⟨.indexNotInt index.value.ty, id⟩
    | some (.select base name) => do
      let place ← resolve program ev frame fuel base
      pure { place with steps := place.steps ++ [.field name id] }
    | some other => throw ⟨.unassignableBase other.describe, id⟩
    | none => throw ⟨.missingNode id, id⟩

@[simp] theorem run_resolve_zero (program : Program) (ev : Evaluator) (frame : Frame)
    (id : NodeId) : (resolve program ev frame 0 id).run = Run.outOfFuel :=
  rfl

/-- One level of resolving a target, as a run that ends in a place or a fault. -/
theorem run_resolve_succ (program : Program) (ev : Evaluator) (frame : Frame) (fuel : Nat)
    (id : NodeId) :
    (resolve program ev frame (fuel + 1) id).run =
      match program.node? id with
      | some (.var name _) => do
        match boundIn? (← get) name with
        | some scope => pure (.ok ⟨scope, name, []⟩)
        | none => pure (.error ⟨.unresolvedRoot name, id⟩)
      | some (.subscript base index) => do
        match ← (resolve program ev frame fuel base).run with
        | .ok place =>
          let index ← ev frame index
          match index.value.int? with
          | some n => pure (.ok { place with steps := place.steps ++ [.index n id] })
          | none => pure (.error ⟨.indexNotInt index.value.ty, id⟩)
        | .error fault => pure (.error fault)
      | some (.select base name) => do
        match ← (resolve program ev frame fuel base).run with
        | .ok place => pure (.ok { place with steps := place.steps ++ [.field name id] })
        | .error fault => pure (.error fault)
      | some other => pure (.error ⟨.unassignableBase other.describe, id⟩)
      | none => pure (.error ⟨.missingNode id, id⟩) := by
  rw [resolve]
  rcases program.node? id with _ | node
  · rfl
  · cases node with
    | var name ty =>
      funext state
      simp only [ExceptT.run_bind]
      show (match boundIn? state name with
        | some scope => pure ⟨scope, name, []⟩
        | none => throw (⟨.unresolvedRoot name, id⟩ : Located Fault) :
          ExceptT (Located Fault) Run Place) state = _
      rw [Run.bind_apply, Run.get_apply, Option.bind_some]
      rcases boundIn? state name with _ | scope <;> rfl
    | subscript base index =>
      simp only [ExceptT.run_bind, ExceptT.run_lift]
      congr 1
      funext outcome
      rcases outcome with fault | place
      · rfl
      · simp only [bind_map_left]
        congr 1
    | select base name =>
      simp only [ExceptT.run_bind, ExceptT.run_pure]
      congr 1
      funext outcome
      cases outcome <;> rfl
    | _ => rfl

/-- Write a value to a resolved place, or record why that is impossible. -/
def writePlace (place : Except (Located Fault) Place) (m : Marked) : Run Unit := do
  let state ← get
  match place.bind fun place => place.store m state with
  | .ok stored => set stored
  | .error fault => Run.report fault.cause fault.node

/-- Assign to a composite target: the place is resolved before the value is evaluated. -/
def assignPlace (program : Program) (ev : Evaluator) (fuel : Nat) (frame : Frame)
    (target value : NodeId) : Run Unit := do
  let place ← (resolve program ev frame fuel target).run
  let m ← ev frame value
  writePlace place m

/-- An assignment, which yields undefined in any case. -/
def assign (program : Program) (ev : Evaluator) (fuel : Nat) (frame : Frame)
    (id target value : NodeId) (declares : Bool) : Run Marked := do
  match program.node? target with
  | some (.var name _) =>
    let m ← ev frame value
    bindVariable frame name declares m
  | some (.subscript ..) | some (.select ..) => assignPlace program ev fuel frame target value
  | some other => Run.report (.unassignable other.describe) id
  | none => Run.report (.missingTarget target) id
  pure .undefined

/-- An assignment to a subscript or a selector writes a place. -/
theorem assign_eq_assignPlace {program : Program} {target : NodeId}
    (htarget : (∃ base index, program.node? target = some (.subscript base index)) ∨
      ∃ base name, program.node? target = some (.select base name))
    (ev : Evaluator) (fuel : Nat) (frame : Frame) (id value : NodeId) (declares : Bool) :
    assign program ev fuel frame id target value declares =
      (do assignPlace program ev fuel frame target value; pure .undefined) := by
  rcases htarget with ⟨base, index, htarget⟩ | ⟨base, name, htarget⟩ <;> rw [assign, htarget]

end Arbor.Eval

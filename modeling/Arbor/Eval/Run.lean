import Arbor.Fault
import Arbor.Namespace

/-!
# Runs

Evaluation threads a state, the two scopes and the faults recorded so far, and
may run out of fuel; it never stops for a fault.  A run is therefore a function
from a state to a result and a new state, or to nothing when the fuel was too
little.  What stays fixed while one body runs is its frame.

* `Run.bind_eq_some_iff` — a sequence of two runs succeeds through a middle
  state.
-/

namespace Arbor

/-- What evaluation reads and changes. -/
structure State where
  locals : Namespace := ∅
  globals : Namespace := ∅
  /-- The faults recorded so far, the oldest first. -/
  faults : Array (Located Fault) := #[]

/-- What holds for one body while it runs. -/
structure Frame where
  /-- Whether assignments are directly in a function's body. -/
  isFunction : Bool := false
  /-- The number of active calls. -/
  depth : Nat := 0
  /-- The most calls that may be active, if there is a limit. -/
  limit : Option Nat := none

namespace Frame

/-- The frame of a statement sequence: the same call, but no function body. -/
def sequence (frame : Frame) : Frame :=
  { frame with isFunction := false }

/-- The frame of a function called from here. -/
def callee (frame : Frame) : Frame :=
  { frame with isFunction := true, depth := frame.depth + 1 }

/-- The limit on active calls, if it is used up. -/
def refusal? (frame : Frame) : Option Nat :=
  frame.limit.filter fun limit => limit ≤ frame.depth

end Frame

namespace State

/-- The variable of that name, locals first. -/
def lookup (state : State) (name : String) : Option Marked :=
  (state.locals.get? name).or (state.globals.get? name)

/-- Record a fault. -/
def record (state : State) (fault : Located Fault) : State :=
  { state with faults := state.faults.push fault }

/-- Record faults in this order. -/
def recordAll (state : State) (faults : List (Located Fault)) : State :=
  { state with faults := state.faults ++ faults }

@[simp] theorem recordAll_nil (state : State) : state.recordAll [] = state := by
  simp [recordAll]

theorem faults_recordAll_eq_iff {state : State} {faults : List (Located Fault)} :
    (state.recordAll faults).faults = state.faults ↔ faults = [] := by
  simp [recordAll, ← Array.toList_inj]

theorem recordAll_append (state : State) (faults more : List (Located Fault)) :
    state.recordAll (faults ++ more) = (state.recordAll faults).recordAll more := by
  have hfaults : state.faults ++ (faults ++ more) = state.faults ++ faults ++ more :=
    Array.ext' (by simp)
  rw [recordAll, hfaults, recordAll, recordAll]

theorem recordAll_singleton (state : State) (fault : Located Fault) :
    state.recordAll [fault] = state.record fault := by
  have hfaults : state.faults ++ [fault] = state.faults.push fault := Array.ext' (by simp)
  rw [recordAll, hfaults, record]

end State

/-- A computation over the state; without a result when the fuel is too little. -/
abbrev Run := StateT State Option

namespace Run

/-- Record a fault at a node. -/
def report (fault : Fault) (node : NodeId) : Run Unit :=
  modify (·.record ⟨fault, node⟩)

/-- Record a fault at a node and yield undefined in place of its value. -/
def fail (fault : Fault) (node : NodeId) : Run Marked := do
  report fault node
  pure .undefined

/-- The run that always lacks fuel. -/
def outOfFuel {α : Type} : Run α := fun _ => none

/-- A computation beside the state. -/
def aside {α : Type} (computed : Option α) : Run α :=
  fun state => computed.map (·, state)

variable {α β : Type}

@[simp] theorem pure_apply (a : α) (state : State) : (pure a : Run α) state = some (a, state) :=
  rfl

@[simp] theorem get_apply (state : State) : (get : Run State) state = some (state, state) := rfl

@[simp] theorem set_apply (new state : State) : (set new : Run Unit) state = some ((), new) := rfl

@[simp] theorem modify_apply (change : State → State) (state : State) :
    (modify change : Run Unit) state = some ((), change state) := rfl

@[simp] theorem outOfFuel_apply (state : State) : (outOfFuel : Run α) state = none := rfl

@[simp] theorem aside_apply (computed : Option α) (state : State) :
    aside computed state = computed.map (·, state) := rfl

theorem bind_apply (run : Run α) (next : α → Run β) (state : State) :
    (run >>= next) state = (run state).bind fun reached => next reached.1 reached.2 := rfl

theorem bind_eq_some_iff {run : Run α} {next : α → Run β} {state final : State} {b : β} :
    (run >>= next) state = some (b, final) ↔
      ∃ a middle, run state = some (a, middle) ∧ next a middle = some (b, final) := by
  rw [bind_apply, Option.bind_eq_some_iff]
  exact ⟨fun ⟨⟨a, middle⟩, h⟩ => ⟨a, middle, h⟩, fun ⟨a, middle, h⟩ => ⟨(a, middle), h⟩⟩

theorem discard_eq_some_iff {run : Run α} {state final : State} {done : Unit} :
    (discard run : Run Unit) state = some (done, final) ↔ ∃ a, run state = some (a, final) := by
  have hdiscard : (discard run : Run Unit) = (fun _ => ()) <$> run := rfl
  rw [hdiscard, map_eq_pure_bind, bind_eq_some_iff]
  constructor
  · intro h
    obtain ⟨a, middle, hrun, hdone⟩ := h
    cases hdone
    exact ⟨a, hrun⟩
  · intro h
    obtain ⟨a, hrun⟩ := h
    exact ⟨a, final, hrun, rfl⟩

@[simp] theorem report_apply (fault : Fault) (node : NodeId) (state : State) :
    report fault node state = some ((), state.record ⟨fault, node⟩) := rfl

@[simp] theorem fail_apply (fault : Fault) (node : NodeId) (state : State) :
    fail fault node state = some (.undefined, state.record ⟨fault, node⟩) := rfl

end Run

/-- A way to evaluate nodes. The rules for the constructs are given over any such way, and
are tied to themselves with one unit of fuel less at every level (see `Arbor.Eval`). -/
abbrev Evaluator := Frame → NodeId → Run Marked

end Arbor

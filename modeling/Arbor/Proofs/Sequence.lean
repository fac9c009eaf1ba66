import Arbor.Proofs.Fuel

/-!
# Statement sequences

Statements run one after the other, and the first that returns ends the sequence.  So two
runs are joined by running the second unless the first returns (`Run.andThen`).  Joining is
associative, and a sequence is the join of its parts, however it is divided.

A block runs its statements in the frame of a sequence, which is its own frame of a sequence,
and hands a returned value up as it is.  Inside another block it therefore does what its
statements do in its place, with one more unit of fuel.

* `Run.andThen_assoc` — joining runs is associative;
* `Eval.sequence_append` — a sequence is the join of its parts;
* `blocks_compose` — nested blocks may be dissolved, and what stands behind a return may be
  dropped.
-/

namespace Arbor

/-! ### Joining runs -/

namespace Run

/-- Run one after the other, unless the first returns. -/
def andThen (run next : Run Marked) : Run Marked := do
  let m ← run
  if m.returned then pure m else next

variable {run more next later : Run Marked} {state : State}

theorem andThen_assoc (run next last : Run Marked) :
    (run.andThen next).andThen last = run.andThen (next.andThen last) := by
  rw [andThen, andThen, andThen, bind_assoc]
  congr 1
  funext m
  by_cases hreturned : m.returned = true
  · rw [if_pos hreturned, if_pos hreturned, LawfulMonad.pure_bind, if_pos hreturned]
  · rw [if_neg hreturned, if_neg hreturned, andThen]

/-- A run that returns is not followed by anything. -/
theorem andThen_of_returned {m : Marked} {final : State} (h : run state = some (m, final))
    (hm : m.returned = true) (next : Run Marked) : run.andThen next state = some (m, final) := by
  rw [andThen, bind_apply, h, Option.bind_some, if_pos hm, pure_apply]

theorem Below.andThen (h : Below run more) (hnext : Below next later) :
    Below (run.andThen next) (more.andThen later) := by
  refine h.bind fun m => ?_
  split
  · exact .refl _
  · exact hnext

end Run

/-! ### Sequences -/

namespace Eval

variable {ev : Evaluator} {frame : Frame}

theorem sequence_cons (statement : NodeId) (rest : List NodeId) :
    sequence ev frame (statement :: rest) =
      (ev frame statement).andThen (sequence ev frame rest) := rfl

/-- A sequence in two parts. -/
theorem sequence_append (xs ys : List NodeId) :
    sequence ev frame (xs ++ ys) = (sequence ev frame xs).andThen (sequence ev frame ys) := by
  induction xs with
  | nil => rfl
  | cons statement rest ih =>
    calc sequence ev frame (statement :: (rest ++ ys))
        = (ev frame statement).andThen (sequence ev frame (rest ++ ys)) := sequence_cons ..
      _ = (ev frame statement).andThen
            ((sequence ev frame rest).andThen (sequence ev frame ys)) := by rw [ih]
      _ = (sequence ev frame (statement :: rest)).andThen (sequence ev frame ys) :=
          (Run.andThen_assoc ..).symm

end Eval

/-! ### Blocks -/

/-- The node is a block of these statements. -/
def Program.IsBlock (program : Program) (id : NodeId) (statements : List NodeId) : Prop :=
  ∃ body, program.node? id = some (.block body) ∧ program.children body = statements

/-- Two nodes have the same outcomes: either both end or none does, and then they yield the same
value and leave the same variables and faults. -/
def SameOutcomes (program : Program) (frame : Frame) (state : State) (id other : NodeId) : Prop :=
  ∀ m final, Evaluates program frame id state m final ↔ Evaluates program frame other state m final

variable {program : Program} {frame : Frame} {state : State} {id : NodeId}
  {statements : List NodeId}

theorem Program.IsBlock.eval_succ (h : program.IsBlock id statements) (fuel : Nat) (frame : Frame) :
    eval program (fuel + 1) frame id =
      Eval.sequence (eval program fuel) frame.sequence statements := by
  obtain ⟨body, hnode, rfl⟩ := h
  rw [Arbor.eval_succ, Eval.rule, hnode]

/-- With as much fuel, a block does no more than its statements. -/
theorem Program.IsBlock.eval_below (h : program.IsBlock id statements) (fuel : Nat)
    (frame : Frame) :
    Run.Below (eval program fuel frame id)
      (Eval.sequence (eval program fuel) frame.sequence statements) := by
  cases fuel with
  | zero => exact .outOfFuel _
  | succ fuel =>
    rw [h.eval_succ]
    exact Eval.sequence_below (Arbor.eval_below program (Nat.le_succ fuel)) _ _

/-- A block ends if its statements do, and as they do. -/
theorem Program.IsBlock.evaluates_iff (h : program.IsBlock id statements) {m : Marked}
    {final : State} : Evaluates program frame id state m final ↔
      ∃ fuel, Eval.sequence (eval program fuel) frame.sequence statements state =
        some (m, final) := by
  constructor
  · intro heval
    obtain ⟨fuel, heval⟩ := heval
    exact ⟨fuel, h.eval_below fuel frame state (m, final) heval⟩
  · intro hruns
    obtain ⟨fuel, hruns⟩ := hruns
    exact ⟨fuel + 1, by rw [h.eval_succ, hruns]⟩

/-- A block among statements does what its own statements do in its place. -/
theorem dissolved_sameOutcomes {nested inner flat : NodeId} {xs zs ys : List NodeId}
    (hnested : program.IsBlock nested (xs ++ inner :: ys)) (hinner : program.IsBlock inner zs)
    (hflat : program.IsBlock flat (xs ++ zs ++ ys)) :
    SameOutcomes program frame state nested flat := by
  -- the same join, but for the middle part, which takes one unit of fuel more in the block
  have hnestedParts : ∀ ev : Evaluator, Eval.sequence ev frame.sequence (xs ++ inner :: ys) =
      (Eval.sequence ev frame.sequence xs).andThen
        ((ev frame.sequence inner).andThen (Eval.sequence ev frame.sequence ys)) := by
    intro ev
    rw [Eval.sequence_append, Eval.sequence_cons]
  have hflatParts : ∀ ev : Evaluator, Eval.sequence ev frame.sequence (xs ++ zs ++ ys) =
      (Eval.sequence ev frame.sequence xs).andThen
        ((Eval.sequence ev frame.sequence zs).andThen (Eval.sequence ev frame.sequence ys)) := by
    intro ev
    rw [List.append_assoc, Eval.sequence_append, Eval.sequence_append]
  intro m final
  rw [hnested.evaluates_iff, hflat.evaluates_iff]
  constructor
  · intro h
    obtain ⟨fuel, h⟩ := h
    refine ⟨fuel, ?_⟩
    rw [hnestedParts] at h
    rw [hflatParts]
    exact Run.Below.andThen (.refl _)
      ((hinner.eval_below fuel frame.sequence).andThen (.refl _)) state (m, final) h
  · intro h
    obtain ⟨fuel, h⟩ := h
    refine ⟨fuel + 1, ?_⟩
    have hmore : (eval program fuel).Below (eval program (fuel + 1)) :=
      eval_below program (Nat.le_succ fuel)
    rw [hflatParts] at h
    rw [hnestedParts, hinner.eval_succ]
    exact (Eval.sequence_below hmore _ xs).andThen
      (Run.Below.andThen (.refl _) (Eval.sequence_below hmore _ ys)) state (m, final) h

/-- Statements behind a return are not run. -/
theorem sameOutcomes_of_returned {alone longer : NodeId} {xs ys : List NodeId}
    (halone : program.IsBlock alone xs) (hlonger : program.IsBlock longer (xs ++ ys)) {m : Marked}
    {final : State} (h : Evaluates program frame alone state m final) (hm : m.returned = true) :
    SameOutcomes program frame state longer alone := by
  have hsame : Evaluates program frame longer state m final := by
    obtain ⟨fuel, hruns⟩ := halone.evaluates_iff.mp h
    refine hlonger.evaluates_iff.mpr ⟨fuel, ?_⟩
    rw [Eval.sequence_append]
    exact Run.andThen_of_returned hruns hm _
  intro m' final'
  constructor
  · intro h'
    obtain ⟨rfl, rfl⟩ := hsame.unique h'
    exact h
  · intro h'
    obtain ⟨rfl, rfl⟩ := h.unique h'
    exact hsame

/-- **Statement sequences compose.**  A block that stands among statements may be replaced by its
own statements; and statements that follow a return may be dropped. -/
theorem blocks_compose (program : Program) (frame : Frame) (state : State) :
    (∀ nested inner flat xs zs ys, program.IsBlock nested (xs ++ inner :: ys) →
      program.IsBlock inner zs → program.IsBlock flat (xs ++ zs ++ ys) →
      SameOutcomes program frame state nested flat) ∧
    (∀ alone longer xs ys m final, program.IsBlock alone xs →
      program.IsBlock longer (xs ++ ys) → Evaluates program frame alone state m final →
      m.returned = true → SameOutcomes program frame state longer alone) := by
  constructor
  · intro nested inner flat xs zs ys hnested hinner hflat
    exact dissolved_sameOutcomes hnested hinner hflat
  · intro alone longer xs ys m final halone hlonger h hm
    exact sameOutcomes_of_returned halone hlonger h hm

/-- `x = 1; (y = !1; return x); x = 2` with the parentheses as a block, without them, and without
the last statement. -/
def nestingProgram : Program where
  nodes := #[.var "x" .int, .int 1, .assign ⟨0⟩ ⟨1⟩ false, .not ⟨1⟩, .var "y" .bool,
    .assign ⟨4⟩ ⟨3⟩ false, .ret ⟨0⟩, .int 2, .assign ⟨0⟩ ⟨7⟩ false,
    .block ⟨0, 2⟩, .block ⟨2, 3⟩, .block ⟨5, 4⟩, .block ⟨5, 3⟩]
  childCells := #[⟨5⟩, ⟨6⟩, ⟨2⟩, ⟨9⟩, ⟨8⟩, ⟨2⟩, ⟨5⟩, ⟨6⟩, ⟨8⟩]

/-- All three record the fault of the negation and return 1, which is still the value of `x`. -/
theorem blocks_compose_nestingProgram :
    (nestingProgram.IsBlock ⟨10⟩ ([⟨2⟩] ++ ⟨9⟩ :: [⟨8⟩]) ∧ nestingProgram.IsBlock ⟨9⟩ [⟨5⟩, ⟨6⟩] ∧
      nestingProgram.IsBlock ⟨11⟩ ([⟨2⟩] ++ [⟨5⟩, ⟨6⟩] ++ [⟨8⟩]) ∧
      nestingProgram.IsBlock ⟨12⟩ [⟨2⟩, ⟨5⟩, ⟨6⟩]) ∧
    ∃ m final, m.returned = true ∧ m.value = .int 1 ∧ final.faults.size = 1 ∧
      Evaluates nestingProgram { isFunction := true } ⟨12⟩ {} m final ∧
      Evaluates nestingProgram { isFunction := true } ⟨11⟩ {} m final ∧
      Evaluates nestingProgram { isFunction := true } ⟨10⟩ {} m final := by
  have hnested : nestingProgram.IsBlock ⟨10⟩ ([⟨2⟩] ++ ⟨9⟩ :: [⟨8⟩]) := ⟨_, rfl, rfl⟩
  have hinner : nestingProgram.IsBlock ⟨9⟩ [⟨5⟩, ⟨6⟩] := ⟨_, rfl, rfl⟩
  have hflat : nestingProgram.IsBlock ⟨11⟩ ([⟨2⟩] ++ [⟨5⟩, ⟨6⟩] ++ [⟨8⟩]) := ⟨_, rfl, rfl⟩
  have halone : nestingProgram.IsBlock ⟨12⟩ [⟨2⟩, ⟨5⟩, ⟨6⟩] := ⟨_, rfl, rfl⟩
  obtain ⟨hdissolve, hdrop⟩ := blocks_compose nestingProgram { isFunction := true } {}
  have hends : Evaluates nestingProgram { isFunction := true } ⟨12⟩ {} _ _ := ⟨4, rfl⟩
  have hlonger := (hdrop _ _ _ _ _ _ halone hflat hends rfl _ _).mpr hends
  have houter := (hdissolve _ _ _ _ _ _ hnested hinner hflat _ _).mpr hlonger
  exact ⟨⟨hnested, hinner, hflat, halone⟩, _, _, rfl, rfl, rfl, hends, hlonger, houter⟩

end Arbor

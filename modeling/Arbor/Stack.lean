/-!
# Deep recursion

Walking a program recurses once per level of its tree and, through calls, once
per level of every active body, so the depth is bounded only by the program.  A
walk that counts its levels down runs every so many levels on a stack of its
own, as a task that its caller waits for.  Waiting for a task is the value of
the task, so this changes nothing about the result (`Stack.deepen_eq`).
-/

namespace Arbor.Stack

/-- How many levels share one stack. -/
def levelsPerStack : Nat := 256

/-- Run `walk` at `level`, on a new stack if this level begins one. -/
def deepen {α : Type} (level : Nat) (walk : Unit → α) : α :=
  if level % levelsPerStack = 0 then (Task.spawn walk Task.Priority.dedicated).get else walk ()

@[simp] theorem deepen_eq {α : Type} (level : Nat) (walk : Unit → α) :
    deepen level walk = walk () := by
  unfold deepen
  split <;> rfl

end Arbor.Stack

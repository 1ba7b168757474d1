import Interpose.Instance.Registers
import Interpose.Keyed

/-!
# Tasks

Tasks that instances wait for. A task is pending until it gets a result, and it gets one only once; whoever waits for
it until then is handed the result in the order of registration. Numbers are given out in turn, so that the number of
a task that is gone is not given to another one until all numbers have been used.

Main definitions: `Tasks`, `Tasks.create?`, `Tasks.register` and `Tasks.complete`.
-/

namespace Interpose

/-- Why an operation on a task is refused. -/
inductive TaskError
  | invalidId (raw : Cell)
  | completed (raw : Cell)
  | pending (raw : Cell)
deriving DecidableEq

/-- What a refusal says to a reader. -/
def TaskError.message : TaskError → String
  | invalidId raw => "invalid task id " ++ toString raw.val
  | completed raw => "task " ++ toString raw.val ++ " already completed"
  | pending raw => "task " ++ toString raw.val ++ " has not completed"

/-- One task. -/
structure Task where
  /-- The result, once there is one. -/
  result : Option Cell
  /-- Those who wait for it, in the order of registration. -/
  waiters : List Token
deriving DecidableEq

/-- A task that nobody waits for yet. -/
def Task.fresh : Task where
  result := none
  waiters := []

/-- The tasks there are, and the number that was given out last. -/
structure Tasks where
  tasks : Keyed TaskId Task
  last : Cell

namespace Tasks

/-- There are no tasks, and no number was given out. -/
def empty : Tasks where
  tasks := .empty
  last := 0

/-- How many tasks there are. -/
def size (t : Tasks) : Nat :=
  t.tasks.size

/-- Whether there is a task with this number. -/
def contains (t : Tasks) (task : TaskId) : Bool :=
  t.tasks.contains task

/-- The number after a number; after the greatest comes 1. -/
def next (c : Cell) : Cell :=
  (c.add? 1).getD 1

/-- The first number from `c` on that no task has, if it is among the first `bound`. -/
def vacant? (t : Tasks) : (bound : Nat) → Cell → Option Cell
  | 0, _ => none
  | bound + 1, c => if t.contains ⟨c⟩ then t.vacant? bound (next c) else some c

/-- Makes a task. None if every number is taken: then the search for a number never ends. Of one number more than there
are tasks, one is not taken unless the numbers come round before. -/
def create? (t : Tasks) : Option (TaskId × Tasks) :=
  (t.vacant? (t.size + 1) (next t.last)).map fun c => (⟨c⟩, { tasks := t.tasks.insert ⟨c⟩ .fresh, last := c })

/-- The result of a task, while it has none `none`. -/
def result (t : Tasks) (task : TaskId) : Except TaskError (Option Cell) :=
  match t.tasks.get? task with
  | some entry => .ok entry.result
  | none => .error (.invalidId task.raw)

/-- Remembers who waits for a pending task. -/
def register (t : Tasks) (task : TaskId) (token : Token) : Except TaskError Tasks :=
  match t.tasks.get? task with
  | none => .error (.invalidId task.raw)
  | some entry =>
    match entry.result with
    | some _ => .error (.completed task.raw)
    | none => .ok { t with tasks := t.tasks.insert task { entry with waiters := entry.waiters ++ [token] } }

/-- Gives a pending task its result, and answers who waited for it. -/
def complete (t : Tasks) (task : TaskId) (value : Cell) : Except TaskError (List Token × Tasks) :=
  match t.tasks.get? task with
  | none => .error (.invalidId task.raw)
  | some entry =>
    match entry.result with
    | some _ => .error (.completed task.raw)
    | none => .ok (entry.waiters, { t with tasks := t.tasks.insert task { result := some value, waiters := [] } })

/-- Drops a task with those who wait for it, and says whether it was there. -/
def remove (t : Tasks) (task : TaskId) : Bool × Tasks :=
  (t.contains task, { t with tasks := t.tasks.erase task })

end Tasks

end Interpose

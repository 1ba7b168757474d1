import Interpose.Native.Call
import Interpose.World.Layers

/-!
# Natives on tasks and threads

What scripts can do with tasks: make them, give them a result, ask for it, and wait for it. Waiting for a task that has
its result is just asking for it; otherwise the call that asks is suspended. A script can also have itself handed to the
thread system.

Main definitions: `Act.completeTask`, `TaskNative.run` and `NativeAct.runDetach`.
-/

namespace Interpose

/-- What the host does to continue an instance with the result of the task it waited for. -/
abbrev Resume (σ : Type) :=
  Token → Cell → σ → σ

namespace Act

variable {σ : Type}

/-- Hands a result to the one who waited for it. -/
def resumeWaiter (resume : Resume σ) (value : Cell) (token : Token) : Act σ Unit := do
  match (← get).resumer with
  | .drop => notify (.waiterDropped token.owner)
  | .host =>
    record (.resumed token value)
    modify fun w => { w with host := resume token value w.host }

/-- Hands a result to those who waited for it, one after another. -/
def resumeWaiters (resume : Resume σ) (value : Cell) : List Token → Act σ Unit
  | [] => pure ()
  | token :: rest => do
    resumeWaiter resume value token
    resumeWaiters resume value rest

/-- Makes a task. -/
def createTask : Act σ TaskId :=
  fun w => w.tasks.create?.map fun (task, tasks) => (task, { w with tasks })

/-- Gives a task its result, and answers how many waited for it. -/
def completeTask (resume : Resume σ) (task : TaskId) (value : Cell) : Act σ (Except TaskError Nat) := do
  match (← get).tasks.complete task value with
  | .error e => pure (.error e)
  | .ok (waiters, tasks) =>
    modify fun w => { w with tasks }
    resumeWaiters resume value waiters
    pure (.ok waiters.length)

/-- Remembers who waits for a task. -/
def registerWaiter (task : TaskId) (token : Token) : Act σ (Except TaskError Unit) := do
  match (← get).tasks.register task token with
  | .error e => pure (.error e)
  | .ok tasks =>
    modify fun w => { w with tasks }
    pure (.ok ())

/-- Drops a task, and says whether it was there, which is recorded. -/
def removeTask (task : TaskId) : Act σ Bool := do
  let (removed, tasks) := (← get).tasks.remove task
  modify fun w => { w with tasks }
  if removed then record (.taskRemoved task)
  pure removed

end Act

open NativeAct

variable {σ : Type}

/-- The result of a task, while it has none `none`. -/
def NativeAct.taskResult (task : TaskId) : NativeAct σ (Option Cell) := do
  match (← lift get).tasks.result task with
  | .ok result => pure result
  | .error e => fail (.task e)

namespace TaskNative

/-- Makes a task. -/
def runNew : NativeAct σ Cell := do
  let task ← lift Act.createTask
  pure task.raw

/-- Gives a task its result: `task, value`. -/
def runSetResult (resume : Resume σ) (params : List Cell) : NativeAct σ Cell := do
  require params 2
  match ← lift (Act.completeTask resume ⟨argument params 0 0⟩ (argument params 1 0)) with
  | .ok _ => pure 1
  | .error e => fail (.task e)

/-- The result of a task that has one: `task`. -/
def runGetResult (params : List Cell) : NativeAct σ Cell := do
  require params 1
  match ← taskResult ⟨argument params 0 0⟩ with
  | some value => pure value
  | none => fail (.task (.pending (argument params 0 0)))

/-- Whether there is a task with a number: `task`. -/
def runValid (params : List Cell) : NativeAct σ Cell := do
  require params 1
  pure (.ofBool ((← lift get).tasks.contains ⟨argument params 0 0⟩))

/-- The result of a task, or the status that suspends the call until there is one: `task`. -/
def runAwait (k : SubsystemId) (i : InstanceId) (params : List Cell) : NativeAct σ Cell := do
  require params 1
  match ← taskResult ⟨argument params 0 0⟩ with
  | some value => pure value
  | none =>
    let status ← lift (Act.requestAwait k i ⟨argument params 0 0⟩ 0)
    fail (.status status)

/-- What a native on tasks does when an instance calls it. -/
def run (resume : Resume σ) (k : SubsystemId) (i : InstanceId) (params : List Cell) : TaskNative → NativeAct σ Cell
  | new => runNew
  | setResult => runSetResult resume params
  | getResult => runGetResult params
  | valid => runValid params
  | await => runAwait k i params

end TaskNative

/-- The status that hands the call over to the thread system: `marker = 0`. -/
def NativeAct.runDetach (k : SubsystemId) (i : InstanceId) (params : List Cell) : NativeAct σ Cell := do
  let status ← lift (Act.requestDetach k i ⟨argument params 0 0⟩ 0)
  fail (.status status)

end Interpose

import Interpose.Handle
import Interpose.Keyed
import Interpose.Status

/-!
# Execution contexts

Every intercepted execute call of an instance has a *frame*, and the frames of one instance form a stack. Code that
runs inside a call asks for the call to be suspended by writing into the innermost frame; the call itself reads that
frame when it comes back with the status `sleep`.

Main definitions: `Frame`, `Contexts` and the two requests, `Contexts.requestAwait` and `Contexts.requestDetach`.
-/

namespace Interpose

/-- Why a call came back with the status `sleep`. -/
inductive PauseReason
  /-- Nobody asked for it. -/
  | none
  /-- The instance waits for a task. -/
  | await
  /-- The thread system takes the instance over. -/
  | detach
deriving DecidableEq

/-- One intercepted execute call. -/
structure Frame where
  reason : PauseReason
  /-- What the caller is told once the suspension is handed on. -/
  result : Cell
  awaiting : Option TaskId
  reclaim : ReclaimMarker
deriving DecidableEq

/-- The frame of a call in which nothing was asked for. -/
def Frame.fresh : Frame where
  reason := .none
  result := 0
  awaiting := none
  reclaim := ⟨0⟩

/-- The frame of a call that waits for a task. -/
def Frame.await (f : Frame) (task : TaskId) (result : Cell) : Frame :=
  { f with reason := .await, awaiting := some task, result }

/-- The frame of a call that is handed to the thread system. -/
def Frame.detach (f : Frame) (marker : ReclaimMarker) (result : Cell) : Frame :=
  { f with reason := .detach, reclaim := marker, result }

/-- The frames of the instances that have executed, innermost first. An instance is listed from its first call on, also
while it is not executing. -/
structure Contexts where
  frameStacks : Keyed InstanceId (List Frame)

namespace Contexts

/-- No instance has executed. -/
def empty : Contexts :=
  ⟨.empty⟩

/-- The frames of an instance. -/
def frames (c : Contexts) (i : InstanceId) : List Frame :=
  (c.frameStacks.get? i).getD []

/-- How many calls of an instance are under way. -/
def depth (c : Contexts) (i : InstanceId) : Nat :=
  (c.frames i).length

/-- The innermost frame of an instance. -/
def top? (c : Contexts) (i : InstanceId) : Option Frame :=
  (c.frames i).head?

/-- How many instances are listed. -/
def size (c : Contexts) : Nat :=
  c.frameStacks.size

/-- Opens a frame, and answers how many there are now. -/
def push (c : Contexts) (i : InstanceId) : Nat × Contexts :=
  (c.depth i + 1, ⟨c.frameStacks.insert i (.fresh :: c.frames i)⟩)

/-- Closes the innermost frame and answers it; none if there is no frame to close. -/
def pop (c : Contexts) (i : InstanceId) : Option Frame × Contexts :=
  match c.frames i with
  | f :: rest => (some f, ⟨c.frameStacks.insert i rest⟩)
  | [] => (none, c)

/-- Changes the innermost frame; none if there is none. -/
def editTop? (c : Contexts) (i : InstanceId) (change : Frame → Frame) : Option Contexts :=
  match c.frames i with
  | f :: rest => some ⟨c.frameStacks.insert i (change f :: rest)⟩
  | [] => none

/-- The status and the contexts after a request for a suspension: `sleep` if there was a frame to write it into, and
`invalidState` outside of any call. -/
def settle (c : Contexts) : Option Contexts → Status × Contexts
  | some c => (.sleep, c)
  | none => (.invalidState, c)

/-- Asks for the innermost call to wait for a task. The code that asks has to hand the status on. -/
def requestAwait (c : Contexts) (i : InstanceId) (task : TaskId) (result : Cell) : Status × Contexts :=
  c.settle (c.editTop? i fun f => f.await task result)

/-- Asks for the innermost call to be handed to the thread system. The code that asks has to hand the status on. -/
def requestDetach (c : Contexts) (i : InstanceId) (marker : ReclaimMarker) (result : Cell) : Status × Contexts :=
  c.settle (c.editTop? i fun f => f.detach marker result)

/-- Forgets an instance with all its frames, and says whether it was listed. -/
def remove (c : Contexts) (i : InstanceId) : Bool × Contexts :=
  (c.frameStacks.contains i, ⟨c.frameStacks.erase i⟩)

/-! ## The frames after an operation -/

@[simp] theorem frames_empty (i : InstanceId) : empty.frames i = [] := rfl

theorem frames_insert (c : Contexts) (i j : InstanceId) (fs : List Frame) :
    frames ⟨c.frameStacks.insert i fs⟩ j = if j = i then fs else c.frames j := by
  unfold frames
  rw [Keyed.get?_insert]
  split <;> rfl

theorem frames_push (c : Contexts) (i j : InstanceId) :
    (c.push i).2.frames j = if j = i then .fresh :: c.frames i else c.frames j :=
  c.frames_insert i j _

theorem frames_pop (c : Contexts) (i j : InstanceId) :
    (c.pop i).2.frames j = if j = i then (c.frames i).tail else c.frames j := by
  unfold pop
  split
  · rename_i f rest h
    rw [frames_insert, h]
    rfl
  · rename_i h
    split
    · rename_i hj
      rw [hj, h]
      rfl
    · rfl

/-- Where there is no frame, a change of the innermost one leaves everything as it is. -/
theorem frames_settle_editTop? (c : Contexts) (i j : InstanceId) (change : Frame → Frame) :
    (c.settle (c.editTop? i change)).2.frames j = if j = i then (c.frames i).modifyHead change else c.frames j := by
  unfold editTop?
  split
  · rename_i f rest h
    show frames ⟨c.frameStacks.insert i (change f :: rest)⟩ j = _
    rw [frames_insert, h]
    rfl
  · rename_i h
    show c.frames j = _
    split
    · rename_i hj
      rw [hj, h]
      rfl
    · rfl

theorem frames_remove (c : Contexts) (i j : InstanceId) :
    (c.remove i).2.frames j = if j = i then [] else c.frames j := by
  unfold remove frames
  rw [Keyed.get?_erase]
  split <;> rfl

end Contexts

end Interpose

import Interpose.World

/-!
# Hook layers in the world

Creating, installing and dropping hook layers, the suspensions that natives ask them for, and the unloading of an
instance.

Main definitions: `Act.newSubsystem`, `Act.install`, `Act.uninstall`, `Act.drop`, `Act.requestAwait`,
`Act.requestDetach` and `Act.unload`.
-/

namespace Interpose.Act

variable {σ : Type}

/-! ## Hooks -/

/-- Makes a hook layer whose hooks replace the entries that are in the table now. -/
def newSubsystem (config : Config) (collaborators : Collaborators) : Act σ SubsystemId :=
  fun w =>
    let k : SubsystemId := ⟨w.subsystems.size⟩
    some (k, { w with subsystems := w.subsystems.push (.new k w.exports config collaborators) })

/-- Switches a hook on or off, and says whether that changed anything. -/
def toggle (k : SubsystemId) (x : Export) (on : Bool) : Act σ Bool :=
  onMount k x fun m => m.toggle on

/-- Switches hooks on or off, and answers for how many that changed anything. -/
def toggleAll (k : SubsystemId) (on : Bool) : List Export → Act σ Nat
  | [] => pure 0
  | x :: rest => do
    let changed ← toggle k x on
    let n ← toggleAll k on rest
    pure (if changed then n + 1 else n)

/-- Switches on the hooks that the configuration asks for. -/
def install (k : SubsystemId) : Act σ Nat := do
  let s ← getSubsystem k
  toggleAll k true s.wantedExports

/-- Switches every hook off. -/
def uninstall (k : SubsystemId) : Act σ Nat :=
  toggleAll k false Export.all

/-- Switches every hook on, whatever the configuration asks for. -/
def installAll (k : SubsystemId) : Act σ Nat :=
  toggleAll k true Export.all

/-- Chooses whether references are followed. -/
def setRefArgs (k : SubsystemId) (on : Bool) : Act σ Unit :=
  onSubsystem k fun s => ((), { s with refArgs := on })

/-- The owner of a hook layer drops it: its hooks are switched off, and it ends with the last call under way. -/
def drop (k : SubsystemId) : Act σ Unit := do
  let _ ← uninstall k
  onSubsystem k fun s => ((), { s with owned := false })

/-- Puts the hook of the execute export back into its slot, if it is switched on. -/
def reattachExec (k : SubsystemId) : Act σ Unit :=
  onMount k .exec fun m => ((), m.reattach)

/-! ## Frames -/

/-- Closes the innermost frame of an instance. That there is none is reported. -/
def popFrame (k : SubsystemId) (i : InstanceId) : Act σ (Option Frame) := do
  match ← onContexts k fun c => c.pop i with
  | some f => pure (some f)
  | none =>
    notify (.popWithoutFrame i)
    pure none

/-- Asks for the innermost call of an instance to wait for a task. -/
def requestAwait (k : SubsystemId) (i : InstanceId) (task : TaskId) (result : Cell) : Act σ Status := do
  let s ← onContexts k fun c => c.requestAwait i task result
  record (.awaitRequested k i task result s)
  pure s

/-- Asks for the innermost call of an instance to be handed to the thread system. -/
def requestDetach (k : SubsystemId) (i : InstanceId) (marker : ReclaimMarker) (result : Cell) : Act σ Status := do
  let s ← onContexts k fun c => c.requestDetach i marker result
  record (.detachRequested k i marker result s)
  pure s

/-! ## Callbacks -/

/-- Gives an instance another callback, and keeps the one it had. A callback that is already kept stays the one to go
back to. -/
def swapCallback (k : SubsystemId) (i : InstanceId) (callback : Callback) : Act σ Unit := do
  let current ← onInstance i fun a => (a.callback, { a with callback })
  onSubsystem k fun s =>
    ((), if s.callbacks.contains i then s else { s with callbacks := s.callbacks.insert i current })

/-- Takes the callback that is kept for an instance, and leaves the instance alone. -/
def takeCallback (k : SubsystemId) (i : InstanceId) : Act σ (Option Callback) :=
  onSubsystem k fun s => (s.callbacks.get? i, { s with callbacks := s.callbacks.erase i })

/-- Gives an instance the callback back that is kept for it, and says whether one was kept. -/
def restoreCallback (k : SubsystemId) (i : InstanceId) : Act σ Bool := do
  match ← takeCallback k i with
  | some callback => onInstance i fun a => (true, { a with callback })
  | none => pure false

/-- Drops the callback that is kept for an instance, and says whether one was kept. -/
def forgetCallback (k : SubsystemId) (i : InstanceId) : Act σ Bool :=
  onSubsystem k fun s => (s.callbacks.contains i, { s with callbacks := s.callbacks.erase i })

/-! ## Unloading -/

/-- Forgets an instance that is going away: its frames, the callback kept for it, and the addresses it has bound. -/
def unload (k : SubsystemId) (i : InstanceId) : Act σ Unit := do
  let _ ← onContexts k fun c => c.remove i
  let kept ← forgetCallback k i
  let _ ← onPool k fun p => p.forget i
  record (.unloaded k i kept)

end Interpose.Act

import Interpose.Notice
import Interpose.Subsystem

/-!
# The world

Everything the machine, the hook layers and the host can change: the instances, the table of exports that all of them
call through, the hook layers, the tasks, a state of the host's own, and a journal of what was reported and of whom the
layers called. The journal is only ever written to.

An operation on the world that does not call host code is an `Act`: it answers a value and the next world, or `none`
where it has no answer, because it names something that does not exist, reads or writes beyond a buffer, or would run
for ever.

Main definitions: `World`, `Act`, and the ways to work on one instance, one hook layer or one hook.
-/

namespace Interpose

/-- Who continues an instance when the task it waits for has its result. -/
inductive Resumer
  /-- Nobody; that is reported. -/
  | drop
  | host
deriving DecidableEq

/-- An entry of the journal. -/
inductive Event
  | notice (n : Notice)
  /-- A layer gave an execute call a frame. -/
  | entered (k : SubsystemId) (i : InstanceId)
  /-- An execute call that was given a frame is over. -/
  | left (k : SubsystemId) (i : InstanceId)
  /-- A layer was asked to let an instance wait, and answered a status. -/
  | awaitRequested (k : SubsystemId) (i : InstanceId) (task : TaskId) (result : Cell) (s : Status)
  /-- A layer was asked to hand an instance to the thread system, and answered a status. -/
  | detachRequested (k : SubsystemId) (i : InstanceId) (marker : ReclaimMarker) (result : Cell) (s : Status)
  /-- A layer forgot an instance, for which it did or did not keep a callback. -/
  | unloaded (k : SubsystemId) (i : InstanceId) (kept : Bool)
  /-- The task system of a layer was asked to remember a token. -/
  | registered (k : SubsystemId) (task : TaskId) (token : Token)
  /-- The thread system of a layer was handed an instance, when `slot` stood in the caller's place for a result. -/
  | detached (k : SubsystemId) (i : InstanceId) (marker : ReclaimMarker) (slot : Option Cell)
  /-- The event source of a layer was asked which callback a name belongs to. -/
  | lookedUp (k : SubsystemId) (i : InstanceId) (name : String) (id : Option Nat)
  /-- The event source of a layer was asked to answer a callback, when `slot` stood in the caller's place for a
  result. -/
  | invoked (k : SubsystemId) (id : Nat) (i : InstanceId) (slot : Option Cell)
  /-- The host was asked to continue an instance. -/
  | resumed (token : Token) (result : Cell)
  /-- A string of a layer was ended by hand. -/
  | stringRemoved (k : SubsystemId) (id : StringId)
  /-- A task was dropped. -/
  | taskRemoved (task : TaskId)
  /-- A mark of the host's own. -/
  | mark (number : Nat)
deriving DecidableEq

/-- Everything that can change; `σ` is the state of the host. -/
structure World (σ : Type) where
  instances : Array Instance
  exports : PerExport Entry
  subsystems : Array Subsystem
  tasks : Tasks
  resumer : Resumer
  journal : Array Event
  host : σ

/-- The world before anything was created. -/
def World.initial {σ : Type} (resumer : Resumer) (host : σ) : World σ where
  instances := #[]
  exports := .const .plain
  subsystems := #[]
  tasks := .empty
  resumer := resumer
  journal := #[]
  host := host

/-- An operation without host code. -/
abbrev Act (σ α : Type) :=
  StateT (World σ) Option α

namespace World

variable {σ : Type}

/-- An instance. -/
def instance? (w : World σ) (i : InstanceId) : Option Instance :=
  w.instances[i.index]?

/-- A hook layer. -/
def subsystem? (w : World σ) (k : SubsystemId) : Option Subsystem :=
  w.subsystems[k.index]?

/-- Puts an instance in the place of the one with its name. -/
def setInstance (w : World σ) (i : InstanceId) (a : Instance) : World σ :=
  { w with instances := w.instances.setIfInBounds i.index a }

/-- Puts a hook layer in the place of the one with its name. -/
def setSubsystem (w : World σ) (k : SubsystemId) (s : Subsystem) : World σ :=
  { w with subsystems := w.subsystems.setIfInBounds k.index s }

/-- Whether the detours of a hook layer still lead to it. -/
def isAlive (w : World σ) (k : SubsystemId) : Bool :=
  match w.subsystem? k with
  | some s => s.alive
  | none => false

/-- What a call through an export reaches. -/
def entry (w : World σ) (x : Export) : Entry :=
  (w.exports.get x).effective w.isAlive

/-- Writes into the journal. -/
def record (w : World σ) (e : Event) : World σ :=
  { w with journal := w.journal.push e }

end World

namespace Act

variable {σ α : Type}

/-- The answer is not defined. -/
def undefined : Act σ α :=
  fun _ => none

/-- An answer that may not be defined. -/
def ofOption : Option α → Act σ α
  | some a => pure a
  | none => undefined

/-- Looks at an instance. -/
def getInstance (i : InstanceId) : Act σ Instance :=
  fun w => (w.instance? i).map fun a => (a, w)

/-- Looks at a hook layer. -/
def getSubsystem (k : SubsystemId) : Act σ Subsystem :=
  fun w => (w.subsystem? k).map fun s => (s, w)

/-- Works on an instance. -/
def onInstance (i : InstanceId) (f : Instance → α × Instance) : Act σ α :=
  fun w => (w.instance? i).map fun a => ((f a).1, w.setInstance i (f a).2)

/-- Works on an instance, where that may not be defined. -/
def onInstance? (i : InstanceId) (f : Instance → Option (α × Instance)) : Act σ α :=
  fun w => (w.instance? i).bind fun a => (f a).map fun r => (r.1, w.setInstance i r.2)

/-- Works on a hook layer. -/
def onSubsystem (k : SubsystemId) (f : Subsystem → α × Subsystem) : Act σ α :=
  fun w => (w.subsystem? k).map fun s => ((f s).1, w.setSubsystem k (f s).2)

/-- Works on the frames of a hook layer. -/
def onContexts (k : SubsystemId) (f : Contexts → α × Contexts) : Act σ α :=
  onSubsystem k fun s => ((f s.contexts).1, { s with contexts := (f s.contexts).2 })

/-- Works on the pool of a hook layer. -/
def onPool (k : SubsystemId) (f : Pool → α × Pool) : Act σ α :=
  onSubsystem k fun s => ((f s.pool).1, { s with pool := (f s.pool).2 })

/-- Works on a hook and the slot it belongs to. -/
def onMount (k : SubsystemId) (x : Export) (f : Mount → α × Mount) : Act σ α :=
  fun w => (w.subsystem? k).map fun s =>
    let (a, m) := f ⟨s.hooks.get x, w.exports.get x⟩
    (a, { w.setSubsystem k { s with hooks := s.hooks.set m.hook x } with exports := w.exports.set m.slot x })

/-- Writes into the journal. -/
def record (e : Event) : Act σ Unit :=
  fun w => some ((), w.record e)

/-- Reports something. -/
def notify (n : Notice) : Act σ Unit :=
  record (.notice n)

/-- Ends a string of a hook layer, and answers it. That it was there is recorded. -/
def removeString (k : SubsystemId) (id : StringId) : Act σ (Except PoolError CellString) := do
  match ← onPool k fun p => p.perform (.remove id) with
  | .ok s =>
    record (.stringRemoved k id)
    pure (.ok s)
  | .error e => pure (.error e)

/-- Performs an operation on the pool of a hook layer. -/
def operate (k : SubsystemId) : (a : Pool.Action) → Act σ a.Reply
  | .remove id => removeString k id
  | a => onPool k fun p => p.perform a

/-- Records a status on an instance, and answers it. -/
def raise (i : InstanceId) (s : Status) : Act σ Status :=
  onInstance i fun a => (s, a.raise s)

/-- Takes a hook out of its slot for a call that is passed on, and says whether it was there. -/
def borrow (k : SubsystemId) (x : Export) : Act σ Bool :=
  onMount k x Mount.detach

/-- Ends the passing on of a call. -/
def giveBack (k : SubsystemId) (x : Export) (took : Bool) : Act σ Unit :=
  onMount k x fun m => ((), m.giveBack took)

/-- Passes a call on to the entry that a hook replaced. -/
def pastHook (k : SubsystemId) (x : Export) (call : Act σ α) : Act σ α := do
  let took ← borrow k x
  let a ← call
  giveBack k x took
  pure a

end Act

end Interpose

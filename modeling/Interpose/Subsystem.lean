import Interpose.Config
import Interpose.Contexts
import Interpose.Hook
import Interpose.Instance
import Interpose.Pool

/-!
# Hook layers

A hook layer owns one hook for each export, and everything that its detours work with: the frames of the calls under
way, the string pool, the callbacks that it has taken off instances for a while, and the systems it hands suspended
instances to.

A layer ends when its owner drops it. Calls of it that are under way then keep it going until they are over; after that
its detours pass everything on.
-/

namespace Interpose

/-- Who remembers the instances that wait for a task. -/
inductive TaskSystem
  /-- Nobody. -/
  | unsupported
  /-- The tasks of the world. -/
  | tasks
  | host
deriving DecidableEq

/-- Who takes detached instances over. -/
inductive ThreadSystem
  /-- Nobody. -/
  | unsupported
  | host
deriving DecidableEq

/-- Who answers synthetic callbacks. -/
inductive EventSource
  /-- Nobody: no name belongs to a callback, and none does anything. -/
  | unsupported
  | host
deriving DecidableEq

/-- The systems a hook layer hands work to. -/
structure Collaborators where
  tasks : TaskSystem
  threads : ThreadSystem
  events : EventSource
deriving DecidableEq

/-- A hook layer. -/
structure Subsystem where
  config : Config
  hooks : PerExport Hook
  contexts : Contexts
  /-- Intercepted execute calls under way, of all instances. -/
  execDepth : Nat
  pool : Pool
  collaborators : Collaborators
  /-- The callbacks that were taken off instances. -/
  callbacks : Keyed InstanceId Callback
  /-- Whether the cell behind a valid address may itself be a pooled address. -/
  refArgs : Bool
  /-- Whether the owner still has it. -/
  owned : Bool
  /-- Calls under way that keep it going. -/
  holds : Nat

namespace Subsystem

/-- A hook layer that finds `found` in the table. Nothing is installed yet. -/
def new (k : SubsystemId) (found : PerExport Entry) (config : Config) (collaborators : Collaborators) : Subsystem where
  config := config
  hooks := found.map (Hook.new k)
  contexts := .empty
  execDepth := 0
  pool := .empty
  collaborators := collaborators
  callbacks := .empty
  refArgs := config.refArgs
  owned := true
  holds := 0

/-- Whether the detours still lead here. -/
def alive (s : Subsystem) : Bool :=
  s.owned || 0 < s.holds

/-- The exports that the configuration asks to be intercepted. -/
def wantedExports (s : Subsystem) : List Export :=
  Export.all.filter fun x => x != .measure || s.config.lengthHook

end Subsystem

end Interpose

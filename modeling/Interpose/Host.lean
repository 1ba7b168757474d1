import Interpose.Host.Program

/-!
# Hosts

A host is everything the machine is embedded in: the bodies of functions, natives and callbacks, and the systems that a
hook layer hands work to. The task system and the resumer act on the host's own state alone; handlers of callbacks and
the thread system run programs, and with these anything can happen.
-/

namespace Interpose

/-- What a handler answers to a callback: what it writes into the caller's place for a result, and the name of the
function to run instead, if there is one. -/
structure Handled where
  result : Option Cell
  forward : Option String

/-- Everything the machine is embedded in. -/
structure Host (σ : Type) where
  /-- The body of a function of a script. -/
  script : Code → InstanceId → Program σ (Except Status Cell)
  /-- The body of a native. -/
  native : Code → InstanceId → List Cell → Program σ (Except Status Cell)
  /-- What answers native calls of an instance with a callback of the host's. -/
  callback : Code → InstanceId → Cell → List Cell → Program σ (Except Status Cell)
  /-- The callback that a name belongs to. -/
  callbackIds : CallbackIds σ
  /-- The handler of callbacks; it is told what stands in the caller's place for a result. -/
  invoke : SubsystemId → Nat → InstanceId → Option Cell → Program σ Handled
  /-- The thread system. -/
  detach : SubsystemId → InstanceId → ReclaimMarker → Program σ Unit
  /-- The task system: it remembers a token, or says why it does not. -/
  register : SubsystemId → TaskId → Token → σ → Except String Unit × σ
  /-- What continues an instance. -/
  resume : Resume σ

end Interpose

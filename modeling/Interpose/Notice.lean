import Interpose.Config
import Interpose.Native.Error

/-!
# Notices

What the hook layer reports to a log: each notice is a thing that happened, with its level, the part of the layer it
comes from, its text, and the values that belong to it.
-/

namespace Interpose

/-- How serious a notice is. -/
inductive Notice.Level
  | error
  | warning
deriving DecidableEq

/-- The text a level is shown as. -/
def Notice.Level.text : Notice.Level → String
  | error => "ERROR"
  | warning => "WARN"

/-- A value that belongs to a notice. -/
inductive Notice.Field
  | owner (i : InstanceId)
  | number (c : Cell)
  | text (s : String)
deriving DecidableEq

/-- A thing that is reported. -/
inductive Notice
  /-- A scope ended whose frame is gone. -/
  | popWithoutFrame (i : InstanceId)
  /-- A native was called through the intercepting callback, but no callback to go back to is known. -/
  | callbackLost (i : InstanceId)
  /-- A call came back suspended, but its frame is gone. -/
  | contextLost (i : InstanceId)
  /-- A call is to wait, but for no task. -/
  | awaitWithoutTask (i : InstanceId)
  /-- A call came back suspended that nobody asked to suspend. -/
  | sleepWithoutReason (i : InstanceId)
  /-- The task system did not take the instance. -/
  | registrationFailed (i : InstanceId) (task : TaskId) (why : String)
  /-- There is no thread system to take the instance. -/
  | detachIgnored (i : InstanceId) (marker : ReclaimMarker)
  /-- Nobody continues an instance that waited. -/
  | waiterDropped (i : InstanceId)
  /-- A native was misused. -/
  | nativeFailed (name : String) (i : InstanceId) (e : NativeError)
  /-- A variable of the environment holds no switch. -/
  | switchIgnored (ignored : Config.Ignored)
deriving DecidableEq

namespace Notice

/-- How serious a notice is. -/
def level : Notice → Level
  | popWithoutFrame _ => .warning
  | detachIgnored _ _ => .warning
  | waiterDropped _ => .warning
  | switchIgnored _ => .warning
  | _ => .error

/-- The part of the layer a notice comes from. -/
def target : Notice → String
  | popWithoutFrame _ => "vmhook::hooks"
  | callbackLost _ => "vmhook::hooks"
  | switchIgnored _ => "vmhook::hooks"
  | waiterDropped _ => "vmhook::tasks"
  | nativeFailed _ _ _ => "vmhook::natives"
  | _ => "vmhook::dispatch"

/-- The text of a notice. -/
def message : Notice → String
  | popWithoutFrame _ => "pop without a pushed frame"
  | callbackLost _ => "callback hook cannot be restored"
  | contextLost _ => "execution context lost while suspended"
  | awaitWithoutTask _ => "await without a task"
  | sleepWithoutReason _ => "sleep without a pause reason"
  | registrationFailed _ _ why => "task registration failed: " ++ why
  | detachIgnored _ _ => "no thread system, detach ignored"
  | waiterDropped _ => "no resumer, waiter dropped"
  | nativeFailed _ _ e => e.message
  | switchIgnored _ => "ignoring unrecognized switch"

/-- The values of a notice, each under its name. -/
def fields : Notice → List (String × Field)
  | popWithoutFrame i => [("instance", .owner i)]
  | callbackLost i => [("instance", .owner i)]
  | contextLost i => [("instance", .owner i)]
  | awaitWithoutTask i => [("instance", .owner i)]
  | sleepWithoutReason i => [("instance", .owner i)]
  | registrationFailed i task _ => [("instance", .owner i), ("task", .number task.raw)]
  | detachIgnored i marker => [("instance", .owner i), ("marker", .number marker.raw)]
  | waiterDropped i => [("instance", .owner i)]
  | nativeFailed name i _ => [("native", .text name), ("instance", .owner i)]
  | switchIgnored ignored => [("key", .text ignored.name), ("value", .text ignored.value)]

end Notice

end Interpose

import Interpose.Host
import Interpose.Run

/-!
# The machine and its detours

How an execute call and a native call run. Both go through what the world holds at that moment: an execute call through
the table of exports, a native call through the callback of the instance; so both may meet the machine's own entry, a
detour of a hook layer, or host code, and host code may make calls of its own.

An intercepted execute call has a frame and is counted. While it is passed on to the entry it replaced, the hook is out of
its slot; calls that natives make in the meantime are to be intercepted all the same. For that the instance gets another
callback for the time of the call: the first native call puts the hook back into its slot and the old callback back on
the instance, and then goes the usual way. A call that comes back suspended is handed to the task system or the thread
system, as its frame says.

Main definitions: `intercepted` (the detour of the execute export), `forwardNative` (the callback), `route` (what becomes
of a suspended call), and `enter`, which ties the calls together. Calls nest at most `depth` deep, and a run that would
nest deeper is cut on its way into the next call; `Program.runIn` gives the fuel for both.
-/

namespace Interpose

/-- A call into the machine. -/
inductive Call
  /-- Execute an index through the table. -/
  | exec (i : InstanceId) (slot : Option Cell) (index : Cell)
  /-- Call a native through a callback. -/
  | dispatch (callback : Callback) (i : InstanceId) (index : Cell) (params : List Cell)

/-- What a call answers. -/
abbrev Call.Reply : Call → Type
  | .exec _ _ _ => ExecReply
  | .dispatch _ _ _ _ => Except Status Cell

/-- How calls are answered. -/
abbrev Calls (σ : Type) :=
  (c : Call) → Run σ c.Reply

namespace ExecReply

/-- A call that succeeded. -/
def success (slot : Option Cell) : ExecReply :=
  ⟨.ok (), slot⟩

/-- A call that failed. -/
def failure (s : Status) (slot : Option Cell) : ExecReply :=
  ⟨.error s, slot⟩

end ExecReply

/-- Runs a program; its calls are answered by `calls`. -/
def Program.run {σ α : Type} (host : Host σ) (calls : Calls σ) : Program σ α → Run σ α
  | done a => pure a
  | look next => do
    Run.tick
    let w ← Run.world
    (next w).run host calls
  | remember change next => do
    Run.tick
    Run.act (modify fun w => { w with host := change w.host })
    next.run host calls
  | act o next => do
    Run.tick
    let r ← Run.act (o.perform host.callbackIds host.resume)
    (next r).run host calls
  | exec i slot index next => do
    Run.tick
    let r ← calls (.exec i slot index)
    (next r).run host calls
  | call i index params next => do
    Run.tick
    let a ← Run.act (Act.getInstance i)
    let r ← calls (.dispatch a.callback i index params)
    (next r).run host calls

namespace Machine

variable {σ : Type} (host : Host σ) (calls : Calls σ)

/-! ## The machine's own entries -/

/-- The function that an index names. Nothing is ever left to be continued, and synthetic callbacks are no functions. -/
def scriptOf (a : Instance) (index : Cell) : Option Code :=
  match ExecIndex.decode index with
  | .main => (a.findFunction? "main").bind a.function?
  | .function position => a.function? position
  | .resume => none
  | .synthetic _ => none

/-- The machine's own entry of the execute export. -/
def plainExec (i : InstanceId) (slot : Option Cell) (index : Cell) : Run σ ExecReply := do
  let a ← Run.act (Act.getInstance i)
  match scriptOf a index with
  | none =>
    let s ← Run.act (Act.raise i .index)
    pure (.failure s slot)
  | some code =>
    match ← Run.within (.script i code) ((host.script code i).run host calls) with
    | .ok value => pure (.success (slot.map fun _ => value))
    | .error s =>
      let s ← Run.act (Act.raise i s)
      pure (.failure s slot)

/-- What a native does when an instance calls it. -/
def runNative (i : InstanceId) (n : Native) (params : List Cell) : Run σ (Except Status Cell) :=
  Run.within (.native i n)
    (match n with
      | .string k n => Run.act (Act.settleNative n.name i (n.run k i params))
      | .task k n => Run.act (Act.settleNative n.name i (n.run host.resume k i params))
      | .detach k => Run.act (Act.settleNative "thread_detach" i (NativeAct.runDetach k i params))
      | .host code => (host.native code i params).run host calls)

/-- The machine's own callback. -/
def plainDispatch (i : InstanceId) (index : Cell) (params : List Cell) : Run σ (Except Status Cell) := do
  let a ← Run.act (Act.getInstance i)
  match a.native? index with
  | none =>
    let s ← Run.act (Act.raise i .notFound)
    pure (.error s)
  | some n => runNative host calls i n params

/-! ## Suspended calls -/

/-- Asks the host's task system to remember a token. -/
def registerWithHost (k : SubsystemId) (task : TaskId) (token : Token) : Act σ (Except String Unit) :=
  fun w =>
    let (answer, state) := host.register k task token w.host
    some (answer, { w with host := state })

/-- Asks the tasks of the world to remember a token. -/
def registerWithTasks (task : TaskId) (token : Token) : Act σ (Except String Unit) := do
  match ← Act.registerWaiter task token with
  | .ok _ => pure (.ok ())
  | .error e => pure (.error e.message)

/-- Asks the task system of a hook layer to remember a token. -/
def register (k : SubsystemId) (task : TaskId) (token : Token) : Act σ (Except String Unit) := do
  let s ← Act.getSubsystem k
  Act.record (.registered k task token)
  match s.collaborators.tasks with
  | .unsupported => pure (.error ("no task system to await task " ++ toString task.raw.val))
  | .tasks => registerWithTasks task token
  | .host => registerWithHost host k task token

/-- Hands an instance to the thread system of a hook layer. -/
def detach (k : SubsystemId) (i : InstanceId) (marker : ReclaimMarker) (slot : Option Cell) : Run σ Unit := do
  let s ← Run.act (Act.getSubsystem k)
  Run.act (Act.record (.detached k i marker slot))
  match s.collaborators.threads with
  | .unsupported => Run.act (Act.notify (.detachIgnored i marker))
  | .host => Run.within (.detach k i) ((host.detach k i marker).run host calls)

/-- Records that a suspended call was handed on, so that its instance has no error. -/
def clearError (i : InstanceId) : Act σ Unit :=
  Act.onInstance i fun a => ((), { a with error := none })

/-- Reports why a suspended call could not be handed on, and raises the status `invalidState`. -/
def reject (i : InstanceId) (why : Notice) (slot : Option Cell) : Act σ ExecReply := do
  Act.notify why
  let s ← Act.raise i .invalidState
  pure (.failure s slot)

/-- What becomes of a call that came back suspended with a frame. A call that is handed on counts as a success, with the
result that was asked for. -/
def route (k : SubsystemId) (i : InstanceId) (f : Frame) (slot : Option Cell) : Run σ ExecReply := do
  let written := slot.map fun _ => f.result
  match f.reason, f.awaiting with
  | .none, _ => Run.act (reject i (.sleepWithoutReason i) slot)
  | .await, none => Run.act (reject i (.awaitWithoutTask i) slot)
  | .await, some task =>
    let a ← Run.act (Act.getInstance i)
    match ← Run.act (register host k task ⟨i, a.registers⟩) with
    | .error why => Run.act (reject i (.registrationFailed i task why) slot)
    | .ok _ =>
      Run.act (clearError i)
      pure (.success written)
  | .detach, _ =>
    detach host calls k i f.reclaim written
    Run.act (clearError i)
    pure (.success written)

/-! ## Intercepted execute calls -/

/-- Keeps a hook layer going for the time of a run. -/
def holding {α : Type} (k : SubsystemId) (r : Run σ α) : Run σ α := do
  Run.act (Act.onSubsystem k fun s => ((), { s with holds := s.holds + 1 }))
  let a ← r
  Run.act (Act.onSubsystem k fun s => ((), { s with holds := s.holds - 1 }))
  pure a

/-- Opens a frame for a call, and counts the call. -/
def openFrame (k : SubsystemId) (i : InstanceId) : Act σ Unit := do
  let _ ← Act.onContexts k fun c => c.push i
  Act.onSubsystem k fun s => ((), { s with execDepth := s.execDepth + 1 })
  Act.record (.entered k i)

/-- Closes the frame of a call. When the last call that was counted is over, the temporary strings are collected. -/
def closeFrame (k : SubsystemId) (i : InstanceId) : Act σ Unit := do
  let _ ← Act.popFrame k i
  let before ← Act.onSubsystem k fun s => (s.execDepth, { s with execDepth := s.execDepth - 1 })
  Act.record (.left k i)
  if before = 1 then
    let _ ← Act.onPool k Pool.collect
    pure ()
  else pure ()

/-- Passes an execute call on to the entry that the hook replaced. While a hook that was in its slot is out of it, native
calls go through the callback of the layer. -/
def passOn (k : SubsystemId) (i : InstanceId) (slot : Option Cell) (index : Cell) : Run σ ExecReply := do
  let s ← Run.act (Act.getSubsystem k)
  if s.hooks.exec.attached then
    Run.act (Act.swapCallback k i (.intercept k))
    let took ← Run.act (Act.borrow k .exec)
    let r ← calls (.exec i slot index)
    Run.act (Act.giveBack k .exec took)
    let _ ← Run.act (Act.restoreCallback k i)
    pure r
  else calls (.exec i slot index)

/-- What a hook layer makes of the answer of the entry it replaced: a suspended call is handed on as its frame says, and
cannot be if the frame is gone. -/
def settle (k : SubsystemId) (i : InstanceId) (r : ExecReply) : Run σ ExecReply :=
  match r.status with
  | .error .sleep => do
    let s ← Run.act (Act.getSubsystem k)
    match s.contexts.top? i with
    | some f => route host calls k i f r.slot
    | none => Run.act (reject i (.contextLost i) r.slot)
  | _ => pure r

/-- An execute call with a frame of its own. -/
def framed (k : SubsystemId) (i : InstanceId) (slot : Option Cell) (index : Cell) : Run σ ExecReply := do
  Run.act (openFrame k i)
  let r ← passOn calls k i slot index
  let r ← settle host calls k i r
  Run.act (closeFrame k i)
  pure r

/-- Lets the event source of a hook layer answer a callback. -/
def invoke (k : SubsystemId) (i : InstanceId) (id : Nat) (slot : Option Cell) : Run σ Handled := do
  let s ← Run.act (Act.getSubsystem k)
  Run.act (Act.record (.invoked k id i slot))
  match s.collaborators.events with
  | .unsupported => pure ⟨none, none⟩
  | .host => Run.within (.handler k i id) ((host.invoke k id i slot).run host calls)

/-- The detour of the execute export. A synthetic callback is answered by its handler, which may name a function to run
instead; that name is looked up past the layer, so it is never taken for a callback again. -/
def intercepted (k : SubsystemId) (i : InstanceId) (slot : Option Cell) (index : Cell) : Run σ ExecReply :=
  holding k
    (match ExecIndex.decode index with
      | .synthetic id => do
        let handled ← invoke host calls k i id slot
        let slot := slot.map fun c => handled.result.getD c
        match handled.forward with
        | none => pure (.success slot)
        | some name =>
          match ← Run.act (Act.lookupPast host.callbackIds k i name) with
          | .error s => pure (.failure s slot)
          | .ok index => framed host calls k i slot index
      | _ => framed host calls k i slot index)

/-! ## Native calls during an intercepted call -/

/-- The first native call of an intercepted call: the hook goes back into its slot, the callback that was kept goes back
on the instance, and the call goes through it. -/
def forwardNative (k : SubsystemId) (i : InstanceId) (index : Cell) (params : List Cell) : Run σ (Except Status Cell) :=
  holding k do
    match ← Run.act (Act.takeCallback k i) with
    | some callback =>
      Run.act (Act.reattachExec k)
      Run.act (Act.onInstance i fun a => ((), { a with callback }))
      calls (.dispatch callback i index params)
    | none =>
      Run.act (Act.notify (.callbackLost i))
      let s ← Run.act (Act.raise i .callback)
      pure (.error s)

/-! ## Calls -/

/-- Executes an index through the table. -/
def exec (i : InstanceId) (slot : Option Cell) (index : Cell) : Run σ ExecReply := do
  match (← Run.world).entry .exec with
  | .plain => plainExec host calls i slot index
  | .detour k _ => intercepted host calls k i slot index

/-- Calls a native through a callback. The callback of a layer that is gone leads nowhere. -/
def dispatch (callback : Callback) (i : InstanceId) (index : Cell) (params : List Cell) : Run σ (Except Status Cell) := do
  match callback with
  | .standard => plainDispatch host calls i index params
  | .intercept k =>
    if (← Run.world).isAlive k then forwardNative calls k i index params
    else
      let s ← Run.act (Act.raise i .callback)
      pure (.error s)
  | .host code => Run.within (.callback i code) ((host.callback code i index params).run host calls)

/-- Answers calls that nest at most `depth` deep. -/
def enter (host : Host σ) : (depth : Nat) → Calls σ
  | 0, _ => Run.under .machine Run.stop
  | depth + 1, .exec i slot index => Run.under .machine (exec host (enter host depth) i slot index)
  | depth + 1, .dispatch callback i index params =>
    Run.under .machine (dispatch host (enter host depth) callback i index params)

end Machine

/-- Runs a program of the host's, from outside of any call, with fuel for `fuel` steps. -/
def Program.runIn {σ α : Type} (p : Program σ α) (host : Host σ) (fuel : Nat) (w : World σ) : Outcome σ α :=
  p.run host (Machine.enter host fuel) .outside w fuel

end Interpose

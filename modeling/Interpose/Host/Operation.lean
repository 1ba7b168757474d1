import Interpose.Native.Strings
import Interpose.Native.Tasks
import Interpose.World.Lookup

/-!
# Operations of the host

What host code can ask for without any code being run on the way, as data: so that a program of the host can be looked
at, and a class of programs is a condition on the operations it uses.

Main definitions: `Operation`, what each of them answers, and `Operation.perform`.
-/

namespace Interpose

/-- An operation that runs no code. -/
inductive Operation
  -- instances
  | newInstance (cells : Nat)
  | addFunction (i : InstanceId) (name : String) (code : Code)
  | addNative (i : InstanceId) (name : String) (code : Code)
  | registerModule (k : SubsystemId) (i : InstanceId) (module : NativeModule)
  | findNative (i : InstanceId) (name : String)
  | lookup (i : InstanceId) (name : String)
  | readRegisters (i : InstanceId)
  | setRegister (i : InstanceId) (r : Register) (c : Cell)
  | restore (i : InstanceId) (token : Token)
  | raise (i : InstanceId) (s : Status)
  | clearError (i : InstanceId)
  -- memory
  | allot (i : InstanceId) (cells : Nat)
  | allocCells (i : InstanceId) (cells : List Cell)
  | release (i : InstanceId) (hea : Cell)
  | peek (i : InstanceId) (address : Cell)
  | poke (i : InstanceId) (address c : Cell)
  | stringLength (i : InstanceId) (address : Cell)
  | readString (i : InstanceId) (address : Cell)
  | readCells (i : InstanceId) (address : Cell) (count : Nat)
  | writeString (i : InstanceId) (address : Cell) (cells : List Cell) (capacity : Nat)
  -- hook layers
  | newSubsystem (config : Config) (collaborators : Collaborators)
  | drop (k : SubsystemId)
  | install (k : SubsystemId)
  | uninstall (k : SubsystemId)
  | installAll (k : SubsystemId)
  | toggle (k : SubsystemId) (x : Export) (on : Bool)
  | setRefArgs (k : SubsystemId) (on : Bool)
  | requestAwait (k : SubsystemId) (i : InstanceId) (task : TaskId) (result : Cell)
  | requestDetach (k : SubsystemId) (i : InstanceId) (marker : ReclaimMarker) (result : Cell)
  | unload (k : SubsystemId) (i : InstanceId)
  -- parts of a hook layer that its owner can also work on directly
  | pool (k : SubsystemId) (a : Pool.Action)
  | pushFrame (k : SubsystemId) (i : InstanceId)
  | popFrame (k : SubsystemId) (i : InstanceId)
  | setFrame (k : SubsystemId) (i : InstanceId) (f : Frame)
  | removeFrames (k : SubsystemId) (i : InstanceId)
  | swapCallback (k : SubsystemId) (i : InstanceId) (code : Code)
  | takeCallback (k : SubsystemId) (i : InstanceId)
  | restoreCallback (k : SubsystemId) (i : InstanceId)
  | forgetCallback (k : SubsystemId) (i : InstanceId)
  -- tasks
  | createTask
  | completeTask (task : TaskId) (value : Cell)
  | registerWaiter (task : TaskId) (token : Token)
  | removeTask (task : TaskId)
  -- the journal
  | mark (number : Nat)
  | notify (n : Notice)

namespace Operation

/-- What an operation answers. -/
abbrev Reply : Operation → Type
  | newInstance _ => InstanceId
  | addFunction _ _ _ => Nat
  | addNative _ _ _ => Unit
  | registerModule _ _ _ => Nat
  | findNative _ _ => Option Cell
  | lookup _ _ => Except Status Cell
  | readRegisters _ => Registers
  | setRegister _ _ _ => Unit
  | restore _ _ => Except Status Unit
  | raise _ _ => Status
  | clearError _ => Unit
  | allot _ _ => Except Status Cell
  | allocCells _ _ => Except Status Cell
  | release _ _ => Unit
  | peek _ _ => Except Status Cell
  | poke _ _ _ => Except Status Unit
  | stringLength _ _ => Except Status Nat
  | readString _ _ => Except Status (List Cell)
  | readCells _ _ _ => Except Status (List Cell)
  | writeString _ _ _ _ => Except Status Nat
  | newSubsystem _ _ => SubsystemId
  | drop _ => Unit
  | install _ => Nat
  | uninstall _ => Nat
  | installAll _ => Nat
  | toggle _ _ _ => Bool
  | setRefArgs _ _ => Unit
  | requestAwait _ _ _ _ => Status
  | requestDetach _ _ _ _ => Status
  | unload _ _ => Unit
  | pool _ a => a.Reply
  | pushFrame _ _ => Nat
  | popFrame _ _ => Option Frame
  | setFrame _ _ _ => Bool
  | removeFrames _ _ => Bool
  | swapCallback _ _ _ => Unit
  | takeCallback _ _ => Option Callback
  | restoreCallback _ _ => Bool
  | forgetCallback _ _ => Bool
  | createTask => TaskId
  | completeTask _ _ => Except TaskError Nat
  | registerWaiter _ _ => Except TaskError Unit
  | removeTask _ => Bool
  | mark _ => Unit
  | notify _ => Unit

variable {σ : Type}

/-- Performs an operation, with the answers of the host that it may need. -/
def perform (ids : CallbackIds σ) (resume : Resume σ) : (o : Operation) → Act σ o.Reply
  | newInstance cells => fun w =>
    some (⟨w.instances.size⟩, { w with instances := w.instances.push (.new cells) })
  | addFunction i name code => Act.onInstance i fun a => a.addFunction name code
  | addNative i name code => Act.onInstance i fun a => ((), a.registerNatives [(name, .host code)])
  | registerModule k i module =>
    Act.onInstance i fun a => ((module.natives k).length, a.registerNatives (module.natives k))
  | findNative i name => do
    let a ← Act.getInstance i
    pure (a.findNative? name)
  | lookup i name => Act.lookup ids i name
  | readRegisters i => do
    let a ← Act.getInstance i
    pure a.registers
  | setRegister i r c => Act.onInstance i fun a => ((), { a with registers := a.registers.set c r })
  | restore i token => Act.onInstance i fun a => a.restore i token
  | raise i s => Act.raise i s
  | clearError i => Act.onInstance i fun a => ((), { a with error := none })
  | allot i cells => Act.onInstance? i fun a => a.allot? cells
  | allocCells i cells => Act.onInstance? i fun a => a.allocCells? cells
  | release i hea => Act.onInstance i fun a => ((), a.release hea)
  | peek i address => Act.peek i address
  | poke i address c => Act.poke i address c
  | stringLength i address => Act.stringLength i address
  | readString i address => Act.readString i address
  | readCells i address count => Act.readCells i address count
  | writeString i address cells capacity => Act.writeString i address cells capacity
  | newSubsystem config collaborators => Act.newSubsystem config collaborators
  | drop k => Act.drop k
  | install k => Act.install k
  | uninstall k => Act.uninstall k
  | installAll k => Act.installAll k
  | toggle k x on => Act.toggle k x on
  | setRefArgs k on => Act.setRefArgs k on
  | requestAwait k i task result => Act.requestAwait k i task result
  | requestDetach k i marker result => Act.requestDetach k i marker result
  | unload k i => Act.unload k i
  | pool k a => Act.operate k a
  | pushFrame k i => Act.onContexts k fun c => c.push i
  | popFrame k i => Act.popFrame k i
  | setFrame k i f => Act.onContexts k fun c =>
    match c.editTop? i fun _ => f with
    | some c => (true, c)
    | none => (false, c)
  | removeFrames k i => Act.onContexts k fun c => c.remove i
  | swapCallback k i code => Act.swapCallback k i (.host code)
  | takeCallback k i => Act.takeCallback k i
  | restoreCallback k i => Act.restoreCallback k i
  | forgetCallback k i => Act.forgetCallback k i
  | createTask => Act.createTask
  | completeTask task value => Act.completeTask resume task value
  | registerWaiter task token => Act.registerWaiter task token
  | removeTask task => Act.removeTask task
  | mark number => Act.record (.mark number)
  | notify n => Act.notify n

end Operation

end Interpose

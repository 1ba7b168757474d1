import Interpose.ExecIndex
import Interpose.World

/-!
# Looking functions up

The export that looks a function up by name answers the cell to execute it with. A hook layer asks the host first: a
name that belongs to a synthetic callback gets the index of that callback, and every other name is looked up among the
functions of the instance.

Main definitions: `Act.lookup` and `Act.lookupPast`, which does not ask the host of the layer.
-/

namespace Interpose

/-- Which callback a name belongs to, according to the host of a hook layer. -/
abbrev CallbackIds (σ : Type) :=
  σ → SubsystemId → InstanceId → String → Option Nat

namespace Act

variable {σ : Type}

/-- The index of a function by the machine's own entry: the first function with that name. -/
def lookupPlain (i : InstanceId) (name : String) : Act σ (Except Status Cell) := do
  let a ← getInstance i
  match (a.findFunction? name).bind Cell.ofNat? with
  | some index => pure (.ok index)
  | none => pure (.error .notFound)

/-- The callback that a name belongs to. -/
def callbackId (ids : CallbackIds σ) (k : SubsystemId) (i : InstanceId) (name : String) : Act σ (Option Nat) := do
  let s ← getSubsystem k
  let id ← match s.collaborators.events with
    | .unsupported => pure none
    | .host => do
      let w ← get
      pure (ids w.host k i name)
  record (.lookedUp k i name id)
  pure id

/-- The index of a callback, if its number can be folded into one. -/
def callbackIndex (id : Nat) : Except Status Cell :=
  match (ExecIndex.synthetic id).encode with
  | some index => .ok index
  | none => .error .index

/-- The index for a name through the table, past at most `bound - 1` detours. -/
def lookupWithin (ids : CallbackIds σ) (i : InstanceId) (name : String) : (bound : Nat) → Act σ (Except Status Cell)
  | 0 => undefined
  | bound + 1 => do
    match (← get).entry .lookup with
    | .plain => lookupPlain i name
    | .detour k _ =>
      match ← callbackId ids k i name with
      | some id => pure (callbackIndex id)
      | none => pastHook k .lookup (lookupWithin ids i name bound)

/-- The index for a name through the table. -/
def lookup (ids : CallbackIds σ) (i : InstanceId) (name : String) : Act σ (Except Status Cell) := do
  lookupWithin ids i name ((← get).subsystems.size + 1)

/-- The index for a name past a hook layer, whose host is not asked. -/
def lookupPast (ids : CallbackIds σ) (k : SubsystemId) (i : InstanceId) (name : String) :
    Act σ (Except Status Cell) :=
  pastHook k .lookup (lookup ids i name)

end Act

end Interpose

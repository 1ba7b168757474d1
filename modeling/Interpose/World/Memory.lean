import Interpose.World

/-!
# Memory through the table of exports

Instances reach memory through two exports: one turns an address into a *place*, the other measures the string at a
place. On the machine's own entries a place lies in the memory of the instance. A hook layer adds the buffers of its
pool: an address that the machine does not know may be the address of a pooled string, or of the null string, and if
the layer follows references, so may the cell behind an address that the machine does know.

A detour asks the entry it replaced first, and takes its own hook out of the slot while it does. So a call passes each
hook at most once, and there are never more detours on its way than hook layers; a call that met more would come back
to a detour whose hook is out of the slot already, and for ever.

Main definitions: `Act.resolve`, `Act.measure`, and the operations of an instance that are built from them.
-/

namespace Interpose

/-- Where an address leads. -/
inductive Place
  /-- Into the memory of an instance. -/
  | memory (i : InstanceId) (index : Nat)
  /-- To the buffer of the null string of a hook layer. -/
  | null (k : SubsystemId)
  /-- To a part of a pooled string of a hook layer. -/
  | pooled (k : SubsystemId) (id : StringId) (part : Part)
deriving DecidableEq

/-- How many cells of a record lie in front of a part. -/
def Part.start : Part → Nat
  | .view => 1
  | .record => 0

namespace World

variable {σ : Type}

/-- The cells from a place to the end of its buffer. -/
def cellsAt? (w : World σ) : Place → Option (List Cell)
  | .memory i index => (w.instance? i).map fun a => a.memory.drop index
  | .null k => (w.subsystem? k).map fun s => [s.pool.nullCell]
  | .pooled k id part => (w.subsystem? k).bind fun s => (s.pool.get? id).map fun t => t.record.drop part.start

end World

namespace Act

variable {σ : Type}

/-! ## Reading and writing at a place -/

/-- The cells from a place to the end of its buffer. -/
def cellsAt (p : Place) : Act σ (List Cell) :=
  fun w => (w.cellsAt? p).map fun cells => (cells, w)

/-- The cell at a place. -/
def cellAt (p : Place) : Act σ Cell := do
  let cells ← cellsAt p
  ofOption cells.head?

/-- Writes over the cells of a pooled string from a part on. -/
def writeString? (p : Pool) (id : StringId) (part : Part) (cells : List Cell) : Option Pool :=
  (p.entry? id).bind fun e => (e.string.write? part.start cells).map fun string => p.setEntry id { e with string }

/-- Writes cells at a place. They have to fit into its buffer. -/
def writeAt (p : Place) (cells : List Cell) : Act σ Unit :=
  match p with
  | .memory i index =>
    onInstance? i fun a => (Buffer.overwrite? a.memory index cells).map fun memory => ((), { a with memory })
  | .null k => fun w =>
    (w.subsystem? k).bind fun s => match cells with
      | [] => some ((), w)
      | [c] => some ((), w.setSubsystem k { s with pool := { s.pool with nullCell := c } })
      | _ => none
  | .pooled k id part => fun w =>
    (w.subsystem? k).bind fun s => (writeString? s.pool id part cells).map fun pool =>
      ((), w.setSubsystem k { s with pool })

/-! ## Resolving an address -/

/-- The place of an address by the machine's own entry. -/
def resolvePlain (i : InstanceId) (address : Cell) : Act σ (Except Status Place) := do
  let a ← getInstance i
  match a.cellIndex? address with
  | some index => pure (.ok (.memory i index))
  | none => pure (.error .memoryAccess)

/-- The place of an address of the pool: the emptied buffer of the null string, or a part of a string the instance has
bound, which is remembered as the one resolved last. -/
def resolvePooled (k : SubsystemId) (i : InstanceId) (address : Cell) : Act σ (Option Place) :=
  if Address.isNull address then
    onPool k fun p => (some (.null k), p.resetNull)
  else
    onPool k fun p =>
      match p.resolve? i address with
      | some (id, part) => (some (.pooled k id part), p.setCache id)
      | none => (none, p)

/-- What a hook layer makes of the answer of the entry it replaced. -/
def virtualize (k : SubsystemId) (i : InstanceId) (address : Cell) :
    Except Status Place → Act σ (Except Status Place)
  | .error .memoryAccess => do
    match ← resolvePooled k i address with
    | some p => pure (.ok p)
    | none => pure (.error .memoryAccess)
  | .ok p => do
    let s ← getSubsystem k
    if s.refArgs then
      let value ← cellAt p
      match ← resolvePooled k i value with
      | some q => pure (.ok q)
      | none => pure (.ok p)
    else pure (.ok p)
  | .error s => pure (.error s)

/-- The place of an address through the table, past at most `bound - 1` detours. -/
def resolveWithin (i : InstanceId) (address : Cell) : (bound : Nat) → Act σ (Except Status Place)
  | 0 => undefined
  | bound + 1 => do
    match (← get).entry .resolve with
    | .plain => resolvePlain i address
    | .detour k _ =>
      let resolved ← pastHook k .resolve (resolveWithin i address bound)
      virtualize k i address resolved

/-- The place of an address through the table. -/
def resolve (i : InstanceId) (address : Cell) : Act σ (Except Status Place) := do
  resolveWithin i address ((← get).subsystems.size + 1)

/-! ## Measuring a string -/

/-- The number of cells in front of the first zero, by the machine's own entry. -/
def measurePlain (p : Place) : Act σ Nat := do
  let cells ← cellsAt p
  ofOption (Buffer.terminated? cells)

/-- The length that a hook layer knows without looking for a zero: that of the string it resolved last. -/
def knownLength (s : Subsystem) (k : SubsystemId) : Place → Option Nat
  | .pooled l id part => if l = k then s.pool.cachedLength? id part else none
  | _ => none

/-- The length of the string at a place through the table, past at most `bound - 1` detours. -/
def measureWithin (p : Place) : (bound : Nat) → Act σ Nat
  | 0 => undefined
  | bound + 1 => do
    match (← get).entry .measure with
    | .plain => measurePlain p
    | .detour k _ =>
      match knownLength (← getSubsystem k) k p with
      | some length => pure length
      | none => pastHook k .measure (measureWithin p bound)

/-- The length of the string at a place through the table. -/
def measure (p : Place) : Act σ Nat := do
  measureWithin p ((← get).subsystems.size + 1)

/-! ## Operations of an instance -/

/-- The string at an address. -/
def readString (i : InstanceId) (address : Cell) : Act σ (Except Status (List Cell)) := do
  match ← resolve i address with
  | .error s => pure (.error s)
  | .ok p =>
    let length ← measure p
    let cells ← cellsAt p
    let text ← ofOption (Buffer.first? cells length)
    pure (.ok text)

/-- The first `count` cells at an address. -/
def readCells (i : InstanceId) (address : Cell) (count : Nat) : Act σ (Except Status (List Cell)) :=
  if count = 0 then pure (.ok [])
  else do
    match ← resolve i address with
    | .error s => pure (.error s)
    | .ok p =>
      let cells ← cellsAt p
      let first ← ofOption (Buffer.first? cells count)
      pure (.ok first)

/-- Writes cells and a terminator at an address, where there is room for `capacity` cells, and answers how many cells
were written in front of the terminator. Without any room nothing is written. -/
def writeString (i : InstanceId) (address : Cell) (cells : List Cell) (capacity : Nat) : Act σ (Except Status Nat) :=
  if capacity = 0 then pure (.ok 0)
  else do
    match ← resolve i address with
    | .error s => pure (.error s)
    | .ok p =>
      let text := cells.take (capacity - 1)
      writeAt p (text ++ [0])
      pure (.ok text.length)

/-- The cell at an address. -/
def peek (i : InstanceId) (address : Cell) : Act σ (Except Status Cell) := do
  match ← resolve i address with
  | .error s => pure (.error s)
  | .ok p =>
    let c ← cellAt p
    pure (.ok c)

/-- Writes one cell at an address. -/
def poke (i : InstanceId) (address c : Cell) : Act σ (Except Status Unit) := do
  match ← resolve i address with
  | .error s => pure (.error s)
  | .ok p =>
    writeAt p [c]
    pure (.ok ())

/-- The length of the string at an address. -/
def stringLength (i : InstanceId) (address : Cell) : Act σ (Except Status Nat) := do
  match ← resolve i address with
  | .error s => pure (.error s)
  | .ok p =>
    let length ← measure p
    pure (.ok length)

end Act

end Interpose

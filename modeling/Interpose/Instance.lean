import Interpose.Buffer
import Interpose.Instance.Registers
import Interpose.Native.Kind
import Interpose.Status

/-!
# Instances

One running script: its memory, registers, functions and natives, the callback through which its native calls go, and
the status of the last operation that failed. Memory is one buffer; the heap grows from its low end up to the register
`hea`, the stack lies from the register `stk` up to the high end, and only these two parts have addresses.

An operation whose effect no rule of the machine fixes, such as an allocation from a heap whose end a host has set
outside of memory, answers `none`.

Main definitions: `Instance`, `Instance.cellIndex?` (what an address means), `Instance.allot?` and
`Instance.registerNatives`.
-/

namespace Interpose

/-- What runs when an instance calls a native. -/
inductive Callback
  /-- Looks the native up and runs it. -/
  | standard
  /-- Lets a hook layer go back into its slot first. -/
  | intercept (k : SubsystemId)
  /-- The host answers. -/
  | host (code : Code)
deriving DecidableEq

/-- One running script. -/
structure Instance where
  memory : List Cell
  registers : Registers
  callback : Callback
  /-- The status of the last operation that failed. -/
  error : Option Status
  /-- The functions of the script by position. Of two with one name, the first is the one that is found. -/
  functions : List (String × Code)
  /-- The natives by position, under distinct names. -/
  natives : List (String × Native)

namespace Instance

/-- The address behind the last cell of a memory; where that is no cell, the greatest address of a cell. -/
def topOf (cells : Nat) : Cell :=
  ((Cell.ofNat? cells).bind fun c => c.mul? Cell.bytes).getD ⟨2147483644, by decide, by decide⟩

/-- An instance with an empty heap, an empty stack, and `cells` cells of memory. -/
def new (cells : Nat) : Instance where
  memory := List.replicate cells 0
  registers := { cip := 0, frm := topOf cells, stk := topOf cells, hea := 0, pri := 0, alt := 0 }
  callback := .standard
  error := none
  functions := []
  natives := []

/-- The address behind the last cell of the stack. -/
def stackTop (a : Instance) : Cell :=
  topOf a.memory.length

/-- Records a status. -/
def raise (a : Instance) (s : Status) : Instance :=
  { a with error := some s }

/-! ## Memory -/

/-- The place in memory that an address means: a whole number of cells, below the end of the heap or on the stack. -/
def cellIndex? (a : Instance) (address : Cell) : Option Nat :=
  if address < 0 ∨ address.val % 4 ≠ 0 then none
  else if address < a.registers.hea ∨ (a.registers.stk ≤ address ∧ address < a.stackTop) then
    let index := (address.val / 4).toNat
    if index < a.memory.length then some index else none
  else none

/-- The place in memory at which the heap ends when its end is `hea`. -/
def heapIndex? (hea : Cell) : Option Nat :=
  let index := hea.val.tdiv 4
  if 0 ≤ index then some index.toNat else none

/-- Extends the heap by cells that are zero, and answers the address of the first. There is no memory for a number of
cells that no address can measure, and a heap that would reach into the stack collides with it. -/
def allot? (a : Instance) (cells : Nat) : Option (Except Status Cell × Instance) :=
  match (Cell.ofNat? cells).bind fun c => c.mul? Cell.bytes with
  | none => some (.error .memory, a)
  | some bytes =>
    match a.registers.hea.add? bytes with
    | none => some (.error .memory, a)
    | some limit =>
      if a.registers.stk < limit then some (.error .stackCollision, a.raise .stackCollision)
      else do
        let start ← heapIndex? a.registers.hea
        let memory ← Buffer.overwrite? a.memory start (List.replicate cells 0)
        pure (.ok a.registers.hea, { a with memory, registers := { a.registers with hea := limit } })

/-- Puts cells and a terminator at the end of the heap, and answers their address. -/
def allocCells? (a : Instance) (cells : List Cell) : Option (Except Status Cell × Instance) := do
  match ← a.allot? (cells.length + 1) with
  | (.error s, a) => pure (.error s, a)
  | (.ok address, a) =>
    let start ← heapIndex? address
    let memory ← Buffer.overwrite? a.memory start cells
    pure (.ok address, { a with memory })

/-- Takes the heap back to an earlier end; anything else is no earlier end and changes nothing. -/
def release (a : Instance) (hea : Cell) : Instance :=
  if 0 ≤ hea ∧ hea < a.registers.hea then { a with registers := { a.registers with hea } } else a

/-! ## Functions and natives -/

/-- Adds a function, and answers its position. -/
def addFunction (a : Instance) (name : String) (code : Code) : Nat × Instance :=
  (a.functions.length, { a with functions := a.functions ++ [(name, code)] })

/-- The function at a position. -/
def function? (a : Instance) (position : Nat) : Option Code :=
  a.functions[position]?.map Prod.snd

/-- The position of the first function with a name. -/
def findFunction? (a : Instance) (name : String) : Option Nat :=
  a.functions.findIdx? fun f => f.1 == name

/-- The natives with one more. One under a name that is taken replaces the other in its place. -/
def addNative (natives : List (String × Native)) (name : String) (native : Native) : List (String × Native) :=
  match natives with
  | [] => [(name, native)]
  | (other, n) :: rest => if other = name then (other, native) :: rest else (other, n) :: addNative rest name native

/-- Registers natives one after another. -/
def registerNatives (a : Instance) (natives : List (String × Native)) : Instance :=
  { a with natives := natives.foldl (fun ns n => addNative ns n.1 n.2) a.natives }

/-- The index of a native by name. -/
def findNative? (a : Instance) (name : String) : Option Cell :=
  (a.natives.findIdx? fun n => n.1 == name).bind Cell.ofNat?

/-- The native with an index. -/
def native? (a : Instance) (index : Cell) : Option Native :=
  index.toNat?.bind fun n => a.natives[n]?.map Prod.snd

/-! ## Suspension -/

/-- Takes the registers back that a token of this instance holds. A token of another instance is refused, and the
refusal is recorded. -/
def restore (a : Instance) (self : InstanceId) (token : Token) : Except Status Unit × Instance :=
  if token.owner = self then (.ok (), { a with registers := token.registers })
  else (.error .invalidState, a.raise .invalidState)

end Instance

end Interpose

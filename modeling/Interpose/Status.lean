import Interpose.Cell

/-!
# Status codes

How an entry point of the machine can fail. Every status has a number, under which it crosses the boundary between the
machine and its host, and a text. Success has the number 0 and is no status: a call that succeeds answers a value.
-/

namespace Interpose

/-- A way in which a call into the machine fails. -/
inductive Status
  | exit
  | assertion
  | stackCollision
  | bounds
  | memoryAccess
  | invalidInstruction
  | stackLow
  | heapLow
  | callback
  | native
  | divide
  | sleep
  | invalidState
  | memory
  | format
  | version
  | notFound
  | index
  | params
  | general
deriving DecidableEq, Repr

namespace Status

/-- The number a status crosses the boundary with. -/
def code : Status → Nat
  | exit => 1
  | assertion => 2
  | stackCollision => 3
  | bounds => 4
  | memoryAccess => 5
  | invalidInstruction => 6
  | stackLow => 7
  | heapLow => 8
  | callback => 9
  | native => 10
  | divide => 11
  | sleep => 12
  | invalidState => 13
  | memory => 16
  | format => 17
  | version => 18
  | notFound => 19
  | index => 20
  | params => 25
  | general => 27

/-- The status with a number: none for 0, and `general` for a number that no other status has. -/
def ofCode? (c : Cell) : Option Status :=
  match c.val with
  | 0 => none
  | 1 => some exit
  | 2 => some assertion
  | 3 => some stackCollision
  | 4 => some bounds
  | 5 => some memoryAccess
  | 6 => some invalidInstruction
  | 7 => some stackLow
  | 8 => some heapLow
  | 9 => some callback
  | 10 => some native
  | 11 => some divide
  | 12 => some sleep
  | 13 => some invalidState
  | 16 => some memory
  | 17 => some format
  | 18 => some version
  | 19 => some notFound
  | 20 => some index
  | 25 => some params
  | _ => some general

/-- What a status says to a reader. -/
def message : Status → String
  | exit => "forced exit"
  | assertion => "assertion failed"
  | stackCollision => "stack/heap collision"
  | bounds => "index out of bounds"
  | memoryAccess => "invalid memory access"
  | invalidInstruction => "invalid instruction"
  | stackLow => "stack underflow"
  | heapLow => "heap underflow"
  | callback => "no callback, or invalid callback"
  | native => "native function failed"
  | divide => "divide by zero"
  | sleep => "execution paused"
  | invalidState => "invalid state for this access"
  | memory => "out of memory"
  | format => "invalid file format"
  | version => "file is for a newer version of the VM"
  | notFound => "function not found"
  | index => "invalid index parameter"
  | params => "parameter error"
  | general => "general error"

/-- A status is known by its number. -/
theorem ofCode?_code (s : Status) : ofCode? (Cell.ofNat s.code) = some s := by
  cases s <;> rfl

end Status

end Interpose

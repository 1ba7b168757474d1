import Interpose.Handle

/-!
# Registers

The registers of an instance, and the token that a suspended instance leaves behind: a copy of its registers, which is
all that is needed to continue it.
-/

namespace Interpose

/-- The registers of an instance. Those that hold addresses count bytes. -/
structure Registers where
  /-- The next instruction. -/
  cip : Cell
  /-- The frame of the running function. -/
  frm : Cell
  /-- The lowest cell of the stack. -/
  stk : Cell
  /-- The end of the heap. -/
  hea : Cell
  pri : Cell
  alt : Cell
deriving DecidableEq

/-- The name of a register. -/
inductive Register
  | cip
  | frm
  | stk
  | hea
  | pri
  | alt
deriving DecidableEq

/-- The registers with one of them changed. -/
def Registers.set (r : Registers) (c : Cell) : Register → Registers
  | .cip => { r with cip := c }
  | .frm => { r with frm := c }
  | .stk => { r with stk := c }
  | .hea => { r with hea := c }
  | .pri => { r with pri := c }
  | .alt => { r with alt := c }

/-- The registers in their usual order. -/
def Registers.toList (r : Registers) : List Cell :=
  [r.cip, r.frm, r.stk, r.hea, r.pri, r.alt]

/-- What is needed to continue a suspended instance. -/
structure Token where
  owner : InstanceId
  registers : Registers
deriving DecidableEq

end Interpose

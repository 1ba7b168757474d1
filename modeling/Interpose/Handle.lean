import Interpose.Cell

/-!
# Handles

The names by which instances, hook layers, tasks, host functions and pooled strings are known. Each kind has a type of
its own, so that none is taken for another.
-/

namespace Interpose

/-- An instance of the machine, by the order of creation. -/
structure InstanceId where
  index : Nat
deriving DecidableEq

/-- A hook layer, by the order of creation. -/
structure SubsystemId where
  index : Nat
deriving DecidableEq

/-- A piece of host code: a function of a script, a native or a callback. What it does is for the host to say. -/
structure Code where
  number : Nat
deriving DecidableEq

/-- A task that an instance can wait for. Scripts hold its number; nothing here computes with it. -/
structure TaskId where
  raw : Cell
deriving DecidableEq

/-- Up to where the thread system may reclaim memory of an instance it takes over. -/
structure ReclaimMarker where
  raw : Cell
deriving DecidableEq

/-- A pooled string as scripts know it. The number 0 is the null string. -/
structure StringId where
  raw : Cell
deriving DecidableEq

namespace StringId

/-- The null string. -/
def null : StringId := ⟨0⟩

/-- Whether this is the null string. -/
def isNull (id : StringId) : Bool :=
  id.raw == 0

/-- The place of a string in its pool. The null string and negative numbers have none. -/
def slot? (id : StringId) : Option Nat :=
  if 1 ≤ id.raw.val then some (id.raw.val - 1).toNat else none

/-- The string at a place. -/
def ofSlot (slot : Nat) : StringId :=
  ⟨Cell.ofNat (slot + 1)⟩

/-- The text a string is shown as. -/
def display (id : StringId) : String :=
  "str#" ++ toString id.raw.val

theorem slot?_ofSlot {slot : Nat} (h : slot < 2147483647) : (ofSlot slot).slot? = some slot := by
  have hv : (ofSlot slot).raw.val = slot + 1 := by
    simp only [ofSlot, Cell.val_ofNat]
    omega
  unfold slot?
  rw [hv, if_pos (by omega)]
  congr 1
  omega

end StringId

end Interpose

import Interpose.Handle

/-!
# Addresses of pooled strings

Scripts reach a pooled string through addresses that no real memory has. From a base far above any memory on, every
string number owns two neighbouring cells: the first is the address of the string's view, the second that of its
record. The two cells of the number 0 both address the null string.

Main definitions: `encode`, `decode?` and `isNullAddress`.
-/

namespace Interpose

/-- The part of a string's buffer that an address points at. -/
inductive Part
  /-- The cells up to the terminator. -/
  | view
  /-- The header, and the cells behind it. -/
  | record
deriving DecidableEq

namespace Address

/-- The lowest address of a pooled string. -/
def base : Cell := ⟨0x40000000, by decide, by decide⟩

/-- The address handed out for the null string. -/
def null : Cell := base

/-- Which of the two cells of a string a part has. -/
def offset : Part → Cell
  | .view => 0
  | .record => 1

/-- The address of a part of a string; none if the number is so large that its cells lie beyond all addresses. -/
def encode (id : StringId) (part : Part) : Option Cell := do
  let doubled ← id.raw.mul? 2
  let slot ← doubled.add? (offset part)
  let bytes ← slot.mul? Cell.bytes
  base.add? bytes

/-- The string and the part that an address belongs to; none for an address below the base, between two cells, or of
the null string. -/
def decode? (address : Cell) : Option (StringId × Part) := do
  let distance ← address.sub? base
  if distance < 0 ∨ distance.val % 4 ≠ 0 then none
  else
    let slot := distance.val / 4
    let raw ← Cell.ofInt? (slot / 2)
    let id : StringId := ⟨raw⟩
    if id.isNull then none
    else some (id, if slot % 2 = 0 then .view else .record)

/-- Whether an address is one of the two cells of the null string. -/
def isNull (address : Cell) : Bool :=
  address.val == base.val || address.val == base.val + 4

end Address

end Interpose

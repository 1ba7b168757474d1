import Interpose.Cell

/-!
# Buffers

Memory comes in buffers: the linear memory of an instance, the record of a pooled string, and the single cell that
stands in for the null string. All three are lists of cells, and what is read and written through an address is a part
of such a list. Reading or writing past the end of a buffer has no meaning; the operations here answer `none` then.
-/

namespace Interpose.Buffer

/-- A buffer with the cells from `start` on replaced by `cells`, as far as these reach; none if they do not fit. -/
def overwrite? (buffer : List Cell) (start : Nat) (cells : List Cell) : Option (List Cell) :=
  if start + cells.length ≤ buffer.length then
    some (buffer.take start ++ cells ++ buffer.drop (start + cells.length))
  else none

/-- The number of cells in front of the first zero; none if the buffer has no zero. -/
def terminated? : List Cell → Option Nat
  | [] => none
  | c :: rest => if c = 0 then some 0 else (terminated? rest).map (· + 1)

/-- The first `count` cells; none if there are fewer. -/
def first? (buffer : List Cell) (count : Nat) : Option (List Cell) :=
  if count ≤ buffer.length then some (buffer.take count) else none

theorem length_of_overwrite? {buffer cells new : List Cell} {start : Nat}
    (h : overwrite? buffer start cells = some new) : new.length = buffer.length := by
  unfold overwrite? at h
  split at h
  · cases h
    simp only [List.length_append, List.length_take, List.length_drop]
    omega
  · cases h

end Interpose.Buffer

import Interpose.Cell

/-!
# Execute indices

One cell tells the executor what to run: a public function by its position, the main function, the continuation of a
paused run, or a *synthetic* callback, which no script contains and the host answers. The four kinds share the cell:
positions are the cells from 0 up, the two special indices are -1 and -2, and a callback id `n` is folded in as
`-3 - n`.

Main statements: `decode_encode` and `encode_decode` say that no two indices share a cell.
-/

namespace Interpose

/-- What an execute call is asked to run. -/
inductive ExecIndex
  | main
  | resume
  | function (position : Nat)
  | synthetic (id : Nat)
deriving DecidableEq, Repr

namespace ExecIndex

/-- The cell that asks for the main function. -/
def mainCell : Cell := ⟨-1, by decide, by decide⟩

/-- The cell that asks for the continuation of a paused run. -/
def resumeCell : Cell := ⟨-2, by decide, by decide⟩

/-- Every cell is the index of something. -/
def decode (raw : Cell) : ExecIndex :=
  if 0 ≤ raw.val then function raw.val.toNat
  else if raw.val = -1 then main
  else if raw.val = -2 then resume
  else synthetic (-3 - raw.val).toNat

/-- The cell of an index; none if its number is too large to be folded in. -/
def encode : ExecIndex → Option Cell
  | main => some mainCell
  | resume => some resumeCell
  | function n => Cell.ofInt? n
  | synthetic id => Cell.ofInt? (-3 - id)

theorem encode_decode (raw : Cell) : (decode raw).encode = some raw := by
  have := raw.lower
  unfold decode
  split
  · exact Cell.ofInt?_eq_some.2 (by omega)
  split
  · exact congrArg some (Cell.ext (by simp [mainCell, *]))
  split
  · exact congrArg some (Cell.ext (by simp [resumeCell, *]))
  · exact Cell.ofInt?_eq_some.2 (by omega)

theorem decode_encode {x : ExecIndex} {raw : Cell} (h : x.encode = some raw) : decode raw = x := by
  cases x with
  | main => cases h; rfl
  | resume => cases h; rfl
  | function n =>
    have := Cell.ofInt?_eq_some.1 h
    unfold decode
    rw [if_pos (by omega), show raw.val.toNat = n by omega]
  | synthetic id =>
    have := Cell.ofInt?_eq_some.1 h
    unfold decode
    rw [if_neg (by omega), if_neg (by omega), if_neg (by omega), show (-3 - raw.val).toNat = id by omega]

end ExecIndex

end Interpose

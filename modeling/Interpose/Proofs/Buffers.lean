import Mathlib.Data.List.TakeWhile
import Interpose.Proofs.PooledReading

/-!
# Writing into buffers

Cells are written into a buffer all at once, and only if they fit. `Buffer.Written` tells what the buffer is then, cell by
cell: the new cells stand where they were written, and every other cell is the one that was there. Nothing is moved, and the
buffer is as long as before.

A text that is written with a zero behind it is read back as far as its first zero, whatever stands behind it.

Main statements: `Buffer.written_of_overwrite?`, `CellString.exists_write?` for the records of strings, and
`Act.readString_of_memory` for the memory of an instance.
-/

namespace Interpose

namespace Buffer

variable {old mid new cells later rest : List Cell} {start : Nat}

/-- A buffer into which cells have been written from a place on. -/
structure Written (old : List Cell) (start : Nat) (cells new : List Cell) : Prop where
  length : new.length = old.length
  here : ∀ n, n < cells.length → new[start + n]? = cells[n]?
  elsewhere : ∀ n, n < start ∨ start + cells.length ≤ n → new[n]? = old[n]?

theorem written_of_overwrite? (h : overwrite? old start cells = some new) : Written old start cells new := by
  have hlength := length_of_overwrite? h
  unfold overwrite? at h
  split at h
  · rename_i hfits
    cases h
    have htaken : (old.take start).length = start := List.length_take_of_le (by omega)
    refine ⟨hlength, fun n hn => ?_, fun n hn => ?_⟩
    · rw [List.append_assoc, List.getElem?_append_right (by omega), htaken, Nat.add_sub_cancel_left,
        List.getElem?_append_left hn]
    · rcases hn with hbefore | hbehind
      · rw [List.append_assoc, List.getElem?_append_left (by omega), List.getElem?_take_of_lt hbefore]
      · rw [List.getElem?_append_right (by rw [List.length_append]; omega), List.length_append, htaken,
          List.getElem?_drop]
        congr 1
        omega
  · cases h

/-- Cells that fit can be written. -/
theorem exists_overwrite? (h : start + cells.length ≤ old.length) :
    ∃ new, overwrite? old start cells = some new ∧ Written old start cells new := by
  have hsome : overwrite? old start cells = some (old.take start ++ cells ++ old.drop (start + cells.length)) := if_pos h
  exact ⟨_, hsome, written_of_overwrite? hsome⟩

namespace Written

/-- From the place on, there are the cells that were written, and behind them the old ones. -/
theorem drop_eq (h : Written old start cells new) : new.drop start = cells ++ old.drop (start + cells.length) := by
  apply List.ext_getElem?
  intro n
  rw [List.getElem?_drop]
  by_cases hn : n < cells.length
  · rw [h.here n hn, List.getElem?_append_left hn]
  · rw [h.elsewhere _ (.inr (by omega)), List.getElem?_append_right (by omega), List.getElem?_drop]
    congr 1
    omega

/-- Cells that are written over the first of others leave the rest of those. -/
theorem overlaid (h : Written old start cells mid) (hlater : Written mid start later new)
    (hle : later.length ≤ cells.length) : Written old start (later ++ cells.drop later.length) new := by
  have hlength : (later ++ cells.drop later.length).length = cells.length := by
    rw [List.length_append, List.length_drop]
    omega
  refine ⟨hlater.length.trans h.length, fun n hn => ?_, fun n hn => ?_⟩
  · by_cases hover : n < later.length
    · rw [hlater.here n hover, List.getElem?_append_left hover]
    · rw [hlater.elsewhere _ (.inr (by omega)), h.here n (by omega), List.getElem?_append_right (by omega),
        List.getElem?_drop]
      congr 1
      omega
  · rw [hlength] at hn
    rw [hlater.elsewhere n (by omega), h.elsewhere n hn]

end Written

/-! ## Texts with a zero behind them -/

theorem terminated?_of_zero (cells rest : List Cell) :
    terminated? (cells ++ 0 :: rest) = some (cells.takeWhile (· ≠ 0)).length := by
  induction cells with
  | nil => rfl
  | cons c cells ih =>
    rw [List.cons_append, terminated?, List.takeWhile_cons]
    by_cases hc : c = 0
    · rw [if_pos hc, if_neg (by simp [hc])]
      rfl
    · rw [if_neg hc, if_pos (by simp [hc]), ih]
      rfl

theorem first?_of_zero (cells rest : List Cell) : first? (cells ++ rest) (cells.takeWhile (· ≠ 0)).length =
    some (cells.takeWhile (· ≠ 0)) := by
  have hle : (cells.takeWhile (· ≠ 0)).length ≤ cells.length := (List.takeWhile_prefix _).length_le
  rw [first?, if_pos (by rw [List.length_append]; omega), List.take_append_of_le_length hle,
    ← List.prefix_iff_eq_take.1 (List.takeWhile_prefix _)]

end Buffer

/-! ## Records -/

namespace CellString

variable {t : CellString} {start : Nat} {cells : List Cell}

theorem length_record (t : CellString) : t.record.length = t.length + 2 := by
  simp [record, length]

/-- Cells that fit can be written over a record, and it remains a record. -/
theorem exists_write? (h : start + cells.length ≤ t.length + 2) :
    ∃ u, t.write? start cells = some u ∧ Buffer.Written t.record start cells u.record := by
  rw [← length_record] at h
  obtain ⟨new, hnew, hwritten⟩ := Buffer.exists_overwrite? h
  have hlength := hwritten.length
  rw [length_record] at hlength
  match new, hlength with
  | header :: c :: rest, _ =>
    refine ⟨⟨header, (c :: rest).dropLast, (c :: rest).getLastD t.terminator⟩, by rw [write?, hnew]; rfl, ?_⟩
    have hrecord : record ⟨header, (c :: rest).dropLast, (c :: rest).getLastD t.terminator⟩ = header :: c :: rest := by
      rw [record, List.getLastD_eq_getLast?, List.getLast?_eq_some_getLast (List.cons_ne_nil c rest), Option.getD_some,
        List.cons_append, List.dropLast_append_getLast]
    rwa [hrecord]

variable {u : CellString}

theorem length_of_written (h : Buffer.Written t.record start cells u.record) : u.length = t.length := by
  have hlength := h.length
  rw [length_record, length_record] at hlength
  omega

/-- What is written into the view leaves the header alone. -/
theorem header_of_written (h : Buffer.Written t.record start cells u.record) (hstart : 1 ≤ start) :
    u.header = t.header := by
  have hfirst := h.elsewhere 0 (.inl hstart)
  rw [record, record] at hfirst
  exact Option.some.inj hfirst

end CellString

/-! ## Memory -/

/-- The address of a cell of the heap means the place of that cell. -/
theorem Instance.cellIndex?_of_heap {a : Instance} {address : Cell} {start : Nat} (haddress : address.val = 4 * start)
    (hheap : address.val < a.registers.hea.val) (hmemory : start < a.memory.length) :
    a.cellIndex? address = some start := by
  have hindex : (address.val / 4).toNat = start := by omega
  have hpositive : ¬ (address < 0 ∨ address.val % 4 ≠ 0) := by
    rw [Cell.lt_def, Cell.val_zero]
    omega
  rw [cellIndex?, if_neg hpositive, if_pos (.inl (Cell.lt_def.2 hheap))]
  simp only [hindex, if_pos hmemory]

namespace Act

open World

variable {σ : Type} {w : World σ} {i : InstanceId} {a : Instance} {address : Cell} {start : Nat} {text rest : List Cell}

/-- Cells that fit can be written into memory. -/
theorem writeAt_memory (ha : w.instance? i = some a) (hfits : start + text.length ≤ a.memory.length) :
    ∃ memory, writeAt (.memory i start) text w = some ((), w.setInstance i { a with memory }) ∧
      Buffer.Written a.memory start text memory := by
  obtain ⟨memory, hmemory, hwritten⟩ := Buffer.exists_overwrite? hfits
  refine ⟨memory, ?_, hwritten⟩
  show (w.instance? i).bind _ = _
  rw [ha, Option.bind_some]
  simp only [hmemory, Option.map_some]

/-- A text with a zero behind it is read as far as its first zero. -/
theorem readString_of_memory (hresolve : resolve i address w = some (.ok (.memory i start), w))
    (hmeasure : measure (.memory i start) w = measurePlain (.memory i start) w) (ha : w.instance? i = some a)
    (hmemory : a.memory.drop start = text ++ 0 :: rest) :
    readString i address w = some (.ok (text.takeWhile (· ≠ 0)), w) := by
  have hcells : w.cellsAt? (.memory i start) = some (text ++ 0 :: rest) := by
    rw [cellsAt?, ha, Option.map_some, hmemory]
  have hlength : measure (.memory i start) w = some ((text.takeWhile (· ≠ 0)).length, w) := by
    rw [hmeasure, measurePlain_eq, hcells, Option.bind_some, Buffer.terminated?_of_zero]
    rfl
  exact readString_eq hresolve hlength hcells (Buffer.first?_of_zero text _)

end Act

end Interpose

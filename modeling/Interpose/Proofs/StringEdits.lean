import Mathlib.Data.List.TakeDrop
import Interpose.CellString

/-!
# Edits of cell strings

A string is kept as its record, and a record is one buffer: a header in front that has the length, a terminator behind, and
the cells in between. An edit finds its cells one place further on than a script counts them, moves the terminator along and
writes the header afresh. Positions and counts are given by scripts as words of 64 bits, and need not make sense.

Here the edits are told in two more ways, and shown to be the same. As edits of a plain list (`Edit.onCells`) they say by
positions what becomes of the cells: nothing is shifted, nothing is clamped, and no sum stops. As edits of a buffer in place
(`Record.apply`) they say what is written where, with every position clamped to the cells that there are and with sums that
stop at the greatest word.

Main statement: `editing`, what any edits make of a string that was made out of cells.
-/

namespace Interpose

namespace CellString

variable {s t : CellString} {cells : List Cell}

/-! ## Plain lists -/

/-- The members of a list at some positions. -/
def atPositions (cells : List Cell) (keep : Nat → Bool) : List Cell :=
  (cells.zipIdx.filter fun c => keep c.2).map Prod.fst

/-- A cell that is the code point of a letter, as another letter; every other cell as it is. -/
def asLetter (change : Char → Char) (c : Cell) : Cell :=
  match c.toChar? with
  | some letter => if letter.isAlpha then Cell.ofChar (change letter) else c
  | none => c

/-- What an edit makes of a plain list of cells, and whether there was anything to change. -/
def Edit.onCells (cells : List Cell) : Edit → Bool × List Cell
  | .push c => (true, cells ++ [c])
  | .append new => (true, cells ++ new)
  | .insert position new =>
    if position ≤ cells.length then (true, cells.take position ++ new ++ cells.drop position) else (false, cells)
  | .erase start count => (true, atPositions cells fun p => !(start ≤ p && p < start + count))
  | .resize length fill => (true, cells.takeD length fill)
  | .clear => (true, [])
  | .set position c => (decide (position < cells.length), cells.set position c)
  | .upper => (true, cells.map (asLetter Char.toUpper))
  | .lower => (true, cells.map (asLetter Char.toLower))
  | .keep start length => (true, atPositions cells fun p => start ≤ p && p < start + length)
  | .double => (true, cells ++ cells)
  | .replace t => (true, t.cells)

/-- A plain list after edits in a row. -/
def Edit.cellsThrough (cells : List Cell) (edits : List Edit) : List Cell :=
  edits.foldl (fun cells e => (e.onCells cells).2) cells

/-- A string after edits in a row. -/
def through (s : CellString) (edits : List Edit) : CellString :=
  edits.foldl (fun s e => (e.apply s).2) s

/-! ### Positions -/

theorem map_fst_filter_of_all (keep : Nat → Bool) {cells : List Cell} {k : Nat}
    (h : ∀ p, k ≤ p → p < k + cells.length → keep p = true) :
    ((cells.zipIdx k).filter fun c => keep c.2).map Prod.fst = cells := by
  rw [List.filter_eq_self.2, List.zipIdx_map_fst]
  intro c hc
  obtain ⟨hle, hlt, -⟩ := List.mem_zipIdx hc
  exact h c.2 hle hlt

theorem map_fst_filter_of_none (keep : Nat → Bool) (cells : List Cell) {k : Nat}
    (h : ∀ p, k ≤ p → p < k + cells.length → keep p = false) :
    ((cells.zipIdx k).filter fun c => keep c.2).map Prod.fst = [] := by
  rw [List.filter_eq_nil_iff.2, List.map_nil]
  intro c hc
  obtain ⟨hle, hlt, -⟩ := List.mem_zipIdx hc
  simp [h c.2 hle hlt]

/-- What is in front of some positions, at them, and behind them. -/
theorem atPositions_split (cells : List Cell) (start count : Nat) (keep : Nat → Bool) :
    atPositions cells keep =
      (((cells.take start).zipIdx.filter fun c => keep c.2).map Prod.fst ++
        (((cells.drop start).take count).zipIdx (min start cells.length) |>.filter fun c => keep c.2).map Prod.fst) ++
          ((cells.drop (start + count)).zipIdx (min (start + count) cells.length) |>.filter fun c => keep c.2).map
            Prod.fst := by
  have hsplit : cells = (cells.take start ++ (cells.drop start).take count) ++ cells.drop (start + count) := by
    rw [← List.take_add, List.take_append_drop]
  unfold atPositions
  conv_lhs => rw [hsplit, List.zipIdx_append, List.zipIdx_append]
  rw [List.filter_append, List.filter_append, List.map_append, List.map_append, ← List.take_add]
  simp only [List.length_take, Nat.zero_add]

/-- Leaving a stretch of positions out. -/
theorem atPositions_outside (cells : List Cell) (start count : Nat) :
    atPositions cells (fun p => !(start ≤ p && p < start + count)) = cells.take start ++ cells.drop (start + count) := by
  rw [atPositions_split cells start count]
  congr 1
  · rw [map_fst_filter_of_all fun p => !(start ≤ p && p < start + count),
      map_fst_filter_of_none fun p => !(start ≤ p && p < start + count), List.append_nil]
    · intro p hle hlt
      rw [List.length_take, List.length_drop] at hlt
      simp
      omega
    · intro p hle hlt
      rw [List.length_take] at hlt
      simp
      omega
  · apply map_fst_filter_of_all fun p => !(start ≤ p && p < start + count)
    intro p hle hlt
    rw [List.length_drop] at hlt
    simp
    omega

/-- Keeping a stretch of positions only. -/
theorem atPositions_inside (cells : List Cell) (start count : Nat) :
    atPositions cells (fun p => start ≤ p && p < start + count) = (cells.drop start).take count := by
  rw [atPositions_split cells start count,
    map_fst_filter_of_none (fun p => start ≤ p && p < start + count) (cells.drop (start + count)),
    map_fst_filter_of_none (fun p => start ≤ p && p < start + count) (cells.take start),
    List.append_nil, List.nil_append]
  · apply map_fst_filter_of_all fun p => start ≤ p && p < start + count
    intro p hle hlt
    rw [List.length_take, List.length_drop] at hlt
    simp
    omega
  · intro p hle hlt
    rw [List.length_take] at hlt
    simp
    omega
  · intro p hle hlt
    rw [List.length_drop] at hlt
    simp
    omega

theorem takeD_eq (cells : List Cell) (length : Nat) (fill : Cell) :
    cells.takeD length fill = cells.take length ++ List.replicate (length - cells.length) fill := by
  induction length generalizing cells with
  | zero => simp
  | succ length ih =>
    cases cells with
    | nil => simp [List.replicate_succ]
    | cons c cells =>
      rw [List.takeD, List.headD_cons, List.tail_cons, ih]
      simp

/-! ### Letters -/

theorem toNat_ofNat {n : Nat} (h : n.isValidChar) : (Char.ofNat n).toNat = n := by
  rw [Char.ofNat, dif_pos h]
  rfl

theorem toNat_toUpper (c : Char) : c.toUpper.toNat = if 97 ≤ c.toNat ∧ c.toNat ≤ 122 then c.toNat - 32 else c.toNat := by
  unfold Char.toUpper
  by_cases h : 97 ≤ c.toNat ∧ c.toNat ≤ 122
  · rw [if_pos h, dif_pos (by simpa [UInt32.le_iff_toNat_le] using h)]
    simp only [Char.toNat, UInt32.toNat_add] at h ⊢
    -- the difference of the alphabets wraps around, and the sum comes back
    rw [show ('A'.val - 'a'.val).toNat = 4294967264 from rfl]
    omega
  · rw [if_neg h, dif_neg (by simpa [UInt32.le_iff_toNat_le] using h)]

theorem toNat_toLower (c : Char) : c.toLower.toNat = if 65 ≤ c.toNat ∧ c.toNat ≤ 90 then c.toNat + 32 else c.toNat := by
  unfold Char.toLower
  by_cases h : 65 ≤ c.toNat ∧ c.toNat ≤ 90
  · rw [if_pos h, dif_pos (by simpa [UInt32.le_iff_toNat_le] using h)]
    simp only [Char.toNat, UInt32.toNat_add] at h ⊢
    rw [show ('a'.val - 'A'.val).toNat = 32 from rfl]
    omega
  · rw [if_neg h, dif_neg (by simpa [UInt32.le_iff_toNat_le] using h)]

theorem isAlpha_iff (c : Char) : c.isAlpha = true ↔ 65 ≤ c.toNat ∧ c.toNat ≤ 90 ∨ 97 ≤ c.toNat ∧ c.toNat ≤ 122 := by
  show (decide ('A'.val ≤ c.val ∧ c.val ≤ 'Z'.val) || (decide ('a'.val ≤ c.val) && decide (c.val ≤ 'z'.val))) = true ↔ _
  simp [UInt32.le_iff_toNat_le]

/-- The character of a cell is the one whose code point it is. -/
theorem toChar?_eq_some {c : Cell} {letter : Char} : c.toChar? = some letter ↔ (letter.toNat : Int) = c.val := by
  unfold Cell.toChar? Cell.toNat?
  by_cases hpos : 0 ≤ c.val
  · rw [if_pos hpos, Option.bind_some]
    by_cases hvalid : c.val.toNat.isValidChar
    · rw [if_pos hvalid, Option.some.injEq]
      have hnat := toNat_ofNat hvalid
      constructor
      · rintro rfl
        omega
      · intro hval
        rw [← hval, Int.toNat_natCast, Char.ofNat_toNat]
    · rw [if_neg hvalid]
      simp only [reduceCtorEq, false_iff]
      intro hval
      have hletter : letter.toNat.isValidChar := letter.valid
      rw [← hval, Int.toNat_natCast] at hvalid
      exact hvalid hletter
  · rw [if_neg hpos, Option.bind_none]
    simp only [reduceCtorEq, false_iff]
    omega

theorem exists_toChar? {c : Cell} (hlow : 0 ≤ c.val) (hhigh : c.val < 55296) : ∃ letter, c.toChar? = some letter := by
  refine ⟨Char.ofNat c.val.toNat, toChar?_eq_some.2 ?_⟩
  rw [toNat_ofNat (.inl (by omega))]
  omega

theorem asLetter_upper (c : Cell) : asLetter Char.toUpper c = upperCell c := by
  unfold asLetter upperCell
  cases hletter : c.toChar? with
  | none =>
    -- below the surrogates every number is a code point, so a cell without a character is no letter
    have hno : ¬ (97 ≤ c.val ∧ c.val ≤ 122) := fun h => by
      obtain ⟨letter, hsome⟩ := exists_toChar? (c := c) (by omega) (by omega)
      rw [hletter] at hsome
      cases hsome
    rw [dif_neg hno]
  | some letter =>
    have hval := toChar?_eq_some.1 hletter
    have hupper := toNat_toUpper letter
    simp only [isAlpha_iff]
    apply Cell.ext
    split <;> split <;> simp only [Cell.ofChar, Cell.val_ofNat] <;> split at hupper <;> omega

theorem asLetter_lower (c : Cell) : asLetter Char.toLower c = lowerCell c := by
  unfold asLetter lowerCell
  cases hletter : c.toChar? with
  | none =>
    have hno : ¬ (65 ≤ c.val ∧ c.val ≤ 90) := fun h => by
      obtain ⟨letter, hsome⟩ := exists_toChar? (c := c) (by omega) (by omega)
      rw [hletter] at hsome
      cases hsome
    rw [dif_neg hno]
  | some letter =>
    have hval := toChar?_eq_some.1 hletter
    have hlower := toNat_toLower letter
    simp only [isAlpha_iff]
    apply Cell.ext
    split <;> split <;> simp only [Cell.ofChar, Cell.val_ofNat] <;> split at hlower <;> omega

/-- Every edit makes of the cells what it makes of a plain list, and answers the same. -/
theorem Edit.onCells_eq (s : CellString) (e : Edit) :
    e.onCells s.cells = ((e.apply s).1, (e.apply s).2.cells) := by
  cases e with
  | insert position new =>
    by_cases h : position ≤ s.cells.length <;> simp [Edit.onCells, Edit.apply, insert?, length, withCells, h]
  | erase start count =>
    rw [Edit.onCells, atPositions_outside]
    rfl
  | resize length fill =>
    rw [Edit.onCells, takeD_eq]
    rfl
  | set position c =>
    by_cases h : position < s.cells.length
    · simp [Edit.onCells, Edit.apply, set?, length, h]
    · simp [Edit.onCells, Edit.apply, set?, length, h, List.set_eq_of_length_le (Nat.not_lt.1 h)]
  | upper =>
    rw [Edit.onCells, funext asLetter_upper]
    rfl
  | lower =>
    rw [Edit.onCells, funext asLetter_lower]
    rfl
  | keep start length =>
    rw [Edit.onCells, atPositions_inside]
    rfl
  | push c => rfl
  | append new => rfl
  | clear => rfl
  | double => rfl
  | replace t => rfl

theorem cells_through (s : CellString) (edits : List Edit) :
    (s.through edits).cells = Edit.cellsThrough s.cells edits := by
  unfold through Edit.cellsThrough
  induction edits generalizing s with
  | nil => rfl
  | cons e edits ih => rw [List.foldl_cons, List.foldl_cons, ih, Edit.onCells_eq]

/-! ## Sealed records -/

/-- Header and terminator are as edits leave them. -/
structure Sealed (s : CellString) : Prop where
  header : s.header = Cell.ofNat s.cells.length
  terminator : s.terminator = 0

/-- An edit that does not bring a record in which a script has overwritten header or terminator. -/
def Edit.IsProper : Edit → Prop
  | .replace t => t.Sealed
  | _ => True

/-- The ways to make a string, with the cells that it has then. -/
inductive Made : CellString → List Cell → Prop
  | empty : Made empty []
  | ofCells (cells : List Cell) : Made (ofCells cells) cells
  | ofMemory (cells : List Cell) (mode : CreateMode) : Made (ofMemory cells mode) (cells.map mode.apply)
  | ofText (text : String) : Made (ofText text) (text.toList.map Cell.ofChar)

theorem sealed_ofCells (cells : List Cell) : (ofCells cells).Sealed :=
  ⟨rfl, rfl⟩

theorem Made.sealed (h : Made s cells) : s.Sealed := by
  cases h <;> exact sealed_ofCells _

theorem Made.cells_eq (h : Made s cells) : s.cells = cells := by
  cases h <;> rfl

theorem Sealed.withCells (h : s.Sealed) (cells : List Cell) : (s.withCells cells).Sealed :=
  ⟨rfl, h.terminator⟩

theorem Sealed.record_eq (h : s.Sealed) : s.record = Cell.ofNat s.cells.length :: s.cells ++ [0] := by
  rw [record, h.header, h.terminator]

theorem Sealed.apply (h : s.Sealed) {e : Edit} (hproper : e.IsProper) : (e.apply s).2.Sealed := by
  -- a header is written afresh, or the number of cells is still the same, or the edit has refused
  cases e with
  | push c => exact h.withCells _
  | append new => exact h.withCells _
  | insert position new =>
    rcases hinsert : s.insert? position new with _ | t
    · rwa [Edit.apply, hinsert]
    · unfold insert? at hinsert
      split at hinsert
      · cases hinsert
        rw [Edit.apply, insert?, if_pos ‹_›]
        exact h.withCells _
      · cases hinsert
  | erase start count => exact h.withCells _
  | resize length fill => exact ⟨rfl, rfl⟩
  | clear => exact ⟨rfl, rfl⟩
  | set position c =>
    rcases hset : s.set? position c with _ | t
    · rwa [Edit.apply, hset]
    · rw [Edit.apply, hset]
      unfold set? at hset
      split at hset
      · cases hset
        exact ⟨by rw [h.header, List.length_set], h.terminator⟩
      · cases hset
  | upper => exact ⟨by simp only [Edit.apply, CellString.upper, h.header, List.length_map], h.terminator⟩
  | lower => exact ⟨by simp only [Edit.apply, CellString.lower, h.header, List.length_map], h.terminator⟩
  | keep start length => exact sealed_ofCells _
  | double => exact h.withCells _
  | replace t => exact hproper

theorem Sealed.through (h : s.Sealed) {edits : List Edit} (hproper : ∀ e ∈ edits, e.IsProper) :
    (s.through edits).Sealed := by
  unfold CellString.through
  induction edits generalizing s with
  | nil => exact h
  | cons e edits ih =>
    exact ih (h.apply (hproper e List.mem_cons_self)) fun e he => hproper e (List.mem_cons_of_mem _ he)

/-! ## Edits of the buffer in place -/

namespace Record

/-- The greatest position that a word of 64 bits can say. -/
def mostPosition : Nat :=
  18446744073709551615

/-- A sum of positions that stops at the greatest. -/
def addPosition (a b : Nat) : Nat :=
  min (a + b) mostPosition

/-- A buffer with its header written afresh. -/
def withHeader (buffer : List Cell) : List Cell :=
  buffer.set 0 (Cell.ofNat (buffer.length - 2))

/-- The buffer of a new string. -/
def ofCells (cells : List Cell) : List Cell :=
  withHeader (0 :: cells ++ [0])

/-- Puts cells in the place of those from `start` up to `stop`. -/
def splice (buffer : List Cell) (start stop : Nat) (new : List Cell) : List Cell :=
  buffer.take start ++ new ++ buffer.drop stop

/-- What stands between header and terminator. -/
def inner (buffer : List Cell) : List Cell :=
  (buffer.take (buffer.length - 1)).drop 1

/-- Makes an edit where the buffer stands. The cells begin at place one, and the terminator stands at the last. -/
def apply (buffer : List Cell) : Edit → Bool × List Cell
  | .push c => (true, withHeader (splice buffer (buffer.length - 1) (buffer.length - 1) [c]))
  | .append new => (true, withHeader (splice buffer (buffer.length - 1) (buffer.length - 1) new))
  | .insert position new =>
    if buffer.length - 2 < position then (false, buffer)
    else (true, withHeader (splice buffer (position + 1) (position + 1) new))
  | .erase start count =>
    let start := min start (buffer.length - 2)
    let stop := min (addPosition start count) (buffer.length - 2)
    (true, withHeader (splice buffer (start + 1) (stop + 1) []))
  | .resize length fill => (true, withHeader (buffer.dropLast.takeD (length + 1) fill ++ [0]))
  | .clear => (true, withHeader (buffer.take 1 ++ [0]))
  | .set position c =>
    if position < buffer.length - 2 then (true, buffer.set (position + 1) c) else (false, buffer)
  | .upper => (true, splice buffer 1 (buffer.length - 1) ((inner buffer).map upperCell))
  | .lower => (true, splice buffer 1 (buffer.length - 1) ((inner buffer).map lowerCell))
  | .keep start length =>
    let start := min start (buffer.length - 2)
    let stop := min (addPosition start length) (buffer.length - 2)
    (true, ofCells (((inner buffer).take stop).drop start))
  | .double => (true, withHeader (splice buffer (buffer.length - 1) (buffer.length - 1) (inner buffer)))
  | .replace t => (true, t.record)

/-- A buffer after edits in a row. -/
def through (buffer : List Cell) (edits : List Edit) : List Cell :=
  edits.foldl (fun buffer e => (apply buffer e).2) buffer

theorem length_record (s : CellString) : s.record.length = s.cells.length + 2 := by
  simp [record]

theorem withHeader_cons (header c : Cell) (cells : List Cell) :
    withHeader (header :: cells ++ [c]) = Cell.ofNat cells.length :: cells ++ [c] := by
  simp [withHeader]

theorem splice_record {start stop : Nat} (hstop : stop ≤ s.cells.length) (hle : start ≤ stop) (new : List Cell) :
    splice s.record (start + 1) (stop + 1) new =
      s.header :: (s.cells.take start ++ new ++ s.cells.drop stop) ++ [s.terminator] := by
  rw [splice, record, List.cons_append, List.take_succ_cons, List.drop_succ_cons, List.take_append_of_le_length (by omega),
    List.drop_append_of_le_length hstop]
  simp

theorem inner_record (s : CellString) : inner s.record = s.cells := by
  simp [inner, record]

theorem withHeader_splice {start stop : Nat} (hstop : stop ≤ s.cells.length) (hle : start ≤ stop) (new : List Cell) :
    withHeader (splice s.record (start + 1) (stop + 1) new) =
      (s.withCells (s.cells.take start ++ new ++ s.cells.drop stop)).record := by
  rw [splice_record hstop hle, withHeader_cons]
  rfl

/-- Cells put in front of the terminator. -/
theorem withHeader_splice_end (s : CellString) (new : List Cell) :
    withHeader (splice s.record (s.record.length - 1) (s.record.length - 1) new) =
      (s.withCells (s.cells ++ new)).record := by
  rw [length_record, show s.cells.length + 2 - 1 = s.cells.length + 1 from rfl,
    withHeader_splice (Nat.le_refl _) (Nat.le_refl _), List.take_length, List.drop_length, List.append_nil]

/-- Other cells of the same number. -/
theorem splice_inner (s : CellString) (new : List Cell) :
    splice s.record 1 (s.record.length - 1) new = s.header :: new ++ [s.terminator] := by
  have hall : splice s.record (0 + 1) (s.cells.length + 1) new = _ :=
    splice_record (Nat.le_refl _) (Nat.zero_le _) new
  rw [List.take_zero, List.nil_append, List.drop_length, List.append_nil] at hall
  rw [length_record]
  exact hall

theorem ofCells_eq (cells : List Cell) : ofCells cells = (CellString.ofCells cells).record :=
  withHeader_cons 0 0 cells

/-- An end that is clamped to the cells that there are, the sum being stopped first. -/
theorem clamped_stop {start count : Nat} (hfit : s.cells.length ≤ mostPosition) :
    min (addPosition (min start s.cells.length) count) s.cells.length =
      min (min start s.cells.length + count) s.cells.length := by
  unfold addPosition
  omega

/-- Clamping start and end loses no cell and adds none. -/
theorem drop_clamped (cells : List Cell) (start count : Nat) :
    cells.drop (min (min start cells.length + count) cells.length) = cells.drop (start + count) := by
  by_cases hle : start + count ≤ cells.length
  · rw [Nat.min_eq_left (by omega), Nat.min_eq_left (by omega)]
  · rw [Nat.min_eq_right (by omega), List.drop_length, List.drop_eq_nil_of_le (by omega)]

theorem take_clamped (cells : List Cell) (start count : Nat) :
    (cells.take (min (min start cells.length + count) cells.length)).drop (min start cells.length) =
      (cells.drop start).take count := by
  rw [← List.take_eq_take_min, List.drop_take, Nat.add_sub_cancel_left]
  by_cases hle : start ≤ cells.length
  · rw [Nat.min_eq_left hle]
  · rw [Nat.min_eq_right (by omega), List.drop_length, List.drop_eq_nil_of_le (by omega : cells.length ≤ start)]

/-- An edit in place is the edit of the string, so long as the number of its cells can be said at all. -/
theorem apply_record (hfit : s.cells.length ≤ mostPosition) (e : Edit) :
    apply s.record e = ((e.apply s).1, (e.apply s).2.record) := by
  have hinner : s.record.length - 2 = s.cells.length := by
    rw [length_record]
    rfl
  cases e with
  | push c => rw [apply, withHeader_splice_end]; rfl
  | append new => rw [apply, withHeader_splice_end]; rfl
  | double => rw [apply, inner_record, withHeader_splice_end]; rfl
  | insert position new =>
    rw [apply, hinner]
    by_cases hle : position ≤ s.cells.length
    · rw [if_neg (by omega), withHeader_splice hle (Nat.le_refl _), Edit.apply, insert?, length, if_pos hle]
    · rw [if_pos (by omega), Edit.apply, insert?, length, if_neg hle]
  | erase start count =>
    -- the one bound that matters: a sum that stops at the greatest word is past every cell
    rw [apply, hinner, clamped_stop hfit, withHeader_splice (Nat.min_le_right _ _) (by omega), drop_clamped,
      List.append_nil, List.take_eq_take_min, Nat.min_assoc, Nat.min_self, ← List.take_eq_take_min]
    rfl
  | resize length fill =>
    have hbuffer : s.record.dropLast.takeD (length + 1) fill ++ [0] = s.header :: s.cells.takeD length fill ++ [0] := by
      rw [record, List.dropLast_concat, List.takeD, List.headD_cons, List.tail_cons]
    rw [apply, hbuffer, withHeader_cons, takeD_eq]
    rfl
  | clear => rfl
  | set position c =>
    rw [apply, hinner]
    by_cases hlt : position < s.cells.length
    · rw [if_pos hlt, Edit.apply, set?, length, if_pos hlt]
      simp [record, List.set_append_left _ _ hlt]
    · rw [if_neg hlt, Edit.apply, set?, length, if_neg hlt]
  | upper => rw [apply, inner_record, splice_inner]; rfl
  | lower => rw [apply, inner_record, splice_inner]; rfl
  | keep start length =>
    rw [apply, hinner, clamped_stop hfit, inner_record, ofCells_eq, take_clamped]
    rfl
  | replace t => rfl

/-- Edits in place make the record of the string that the same edits make. -/
theorem through_record {edits : List Edit}
    (hfit : ∀ past, past <+: edits → (s.through past).cells.length ≤ mostPosition) :
    through s.record edits = (s.through edits).record := by
  induction edits generalizing s with
  | nil => rfl
  | cons e edits ih =>
    -- the bound is on what an edit finds, so it is asked of every prefix, and not of the end
    have hhere : s.cells.length ≤ mostPosition := hfit [] List.nil_prefix
    have hlater := ih (s := (e.apply s).2) fun past hpast => hfit (e :: past) (List.cons_prefix_cons.2 ⟨rfl, hpast⟩)
    rw [through, List.foldl_cons, apply_record hhere]
    exact hlater

end Record

/-! ## Comparing -/

theorem same_iff : s.same t = true ↔ s.cells = t.cells :=
  beq_iff_eq

theorem compareCells_lt (a b : List Cell) : compareCells a b = .lt ↔ a < b := by
  induction a generalizing b with
  | nil => cases b <;> simp [compareCells]
  | cons c a ih =>
    cases b with
    | nil => simp [compareCells]
    | cons d b =>
      rw [compareCells, List.cons_lt_cons_iff, Ordering.then_eq_lt, ih, Cell.lt_def, Cell.ext_iff, Int.compare_eq_lt,
        Int.compare_eq_eq]

theorem compareCells_eq (a b : List Cell) : compareCells a b = .eq ↔ a = b := by
  induction a generalizing b with
  | nil => cases b <;> simp [compareCells]
  | cons c a ih =>
    cases b with
    | nil => simp [compareCells]
    | cons d b => rw [compareCells, List.cons.injEq, Ordering.then_eq_eq, ih, Cell.ext_iff, Int.compare_eq_eq]

/-! ## Any edits -/

/-- How a string that was made out of some cells stands after some edits. -/
structure EditingLaw (s : CellString) (cells : List Cell) (edits : List Edit) : Prop where
  /-- It has the cells that the same edits make of the plain list. -/
  contents : (s.through edits).cells = Edit.cellsThrough cells edits
  /-- Its record is their number, as far as a cell can say it, the cells themselves, and a zero. -/
  record : (s.through edits).record =
    Cell.ofNat (Edit.cellsThrough cells edits).length :: Edit.cellsThrough cells edits ++ [0]
  /-- Whether the next edit finds something to change is the same for the plain list. -/
  answer : ∀ e : Edit, (e.apply (s.through edits)).1 = (e.onCells (Edit.cellsThrough cells edits)).1
  /-- The same edits, made one after the other in the buffer itself, give the same record. -/
  inPlace : (∀ past, past <+: edits → (Edit.cellsThrough cells past).length ≤ Record.mostPosition) →
    Record.through s.record edits = (s.through edits).record
  /-- A part that is copied out is the string of the cells at its positions. -/
  substring : ∀ start length, (s.through edits).substring start length =
    ofCells (atPositions (Edit.cellsThrough cells edits) fun p => start ≤ p && p < start + length)
  /-- Two strings are the same if their cells are. -/
  same : ∀ t, (s.through edits).same t = true ↔ Edit.cellsThrough cells edits = t.cells
  /-- Strings are ordered as the lists of their cells are, lexicographically. -/
  less : ∀ t, (s.through edits).compare t = .lt ↔ Edit.cellsThrough cells edits < t.cells
  level : ∀ t, (s.through edits).compare t = .eq ↔ Edit.cellsThrough cells edits = t.cells

/-- **Editing.** A string can be made without cells, out of cells, out of cells copied from memory, or out of a text. After
any proper edits, at any positions and with any counts, it has the cells that the same edits make of a plain list, and its
record is sealed: their number in front, a zero behind. The edits may as well have been made in the buffer itself, with
clamped positions and sums that stop at the greatest word. -/
theorem editing (hmade : Made s cells) (edits : List Edit) (hproper : ∀ e ∈ edits, e.IsProper) :
    EditingLaw s cells edits := by
  have hcells : ∀ past, (s.through past).cells = Edit.cellsThrough cells past := fun past => by
    rw [cells_through, hmade.cells_eq]
  exact
    { contents := hcells edits
      record := by rw [(hmade.sealed.through hproper).record_eq, hcells]
      answer := fun e => by rw [← hcells, Edit.onCells_eq]
      inPlace := fun hfit => Record.through_record fun past hpast => by
        rw [hcells]
        exact hfit past hpast
      substring := fun start length => by rw [← hcells, atPositions_inside, CellString.substring]
      same := fun t => by rw [same_iff, hcells]
      less := fun t => by rw [CellString.compare, compareCells_lt, hcells]
      level := fun t => by rw [CellString.compare, compareCells_eq, hcells] }

/-- A start and a count whose sum no word can say, a position past the end, and a letter beside a cell that is none. -/
theorem editing_out_of_range :
    let edits : List Edit :=
      [.insert 1 [⟨195, by decide, by decide⟩], .insert 9 [0], .erase 2 Record.mostPosition, .upper, .set 2 0, .resize 3 1]
    EditingLaw (ofText "ab") ("ab".toList.map Cell.ofChar) edits ∧
      ((ofText "ab").through edits).record.map Cell.val = [3, 65, 195, 1, 0] := by
  refine ⟨editing (.ofText "ab") _ ?_, by decide⟩
  intro e he
  simp only [List.mem_cons, List.not_mem_nil, or_false] at he
  rcases he with rfl | rfl | rfl | rfl | rfl | rfl <;> trivial

end CellString

end Interpose

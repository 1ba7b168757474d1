/-!
# Cells

A script machine computes on *cells*: signed integers of 32 bits. A cell is kept here as an integer together with the
proof that it lies in that range, so that arithmetic on cells is arithmetic on integers followed by a range check, and
no operation can wrap around unseen.

Main definitions: `Cell.ofInt?` (the only way in that can fail), the checked operations `Cell.add?`, `Cell.sub?` and
`Cell.mul?`, and the saturating `Cell.ofNat` for lengths and counts.
-/

namespace Interpose

/-- A signed integer of 32 bits: the unit of a script machine's memory and of its registers. -/
structure Cell where
  val : Int
  lower : -2147483648 ≤ val
  upper : val ≤ 2147483647

namespace Cell

theorem ext {a b : Cell} (h : a.val = b.val) : a = b := by
  cases a; cases b; cases h; rfl

theorem ext_iff {a b : Cell} : a = b ↔ a.val = b.val :=
  ⟨fun h => h ▸ rfl, ext⟩

instance : DecidableEq Cell := fun a b =>
  if h : a.val = b.val then isTrue (ext h) else isFalse fun e => h (e ▸ rfl)

instance : OfNat Cell 0 := ⟨⟨0, by decide, by decide⟩⟩
instance : OfNat Cell 1 := ⟨⟨1, by decide, by decide⟩⟩
instance : OfNat Cell 2 := ⟨⟨2, by decide, by decide⟩⟩
instance : Inhabited Cell := ⟨0⟩

@[simp] theorem val_zero : (0 : Cell).val = 0 := rfl
@[simp] theorem val_one : (1 : Cell).val = 1 := rfl

/-- The greatest cell. -/
def greatest : Cell := ⟨2147483647, by decide, by decide⟩

/-- Bytes in a cell. Addresses count bytes, so neighbouring cells lie this far apart. -/
def bytes : Cell := ⟨4, by decide, by decide⟩

/-! ## Into cells -/

/-- The cell of an integer, if it is in range. -/
def ofInt? (n : Int) : Option Cell :=
  if h : -2147483648 ≤ n ∧ n ≤ 2147483647 then some ⟨n, h.1, h.2⟩ else none

/-- The cell of a natural number, if it is in range. -/
def ofNat? (n : Nat) : Option Cell :=
  ofInt? n

/-- A length or a count as a cell; one that does not fit is reported as the greatest cell. -/
def ofNat (n : Nat) : Cell :=
  ⟨(min n 2147483647 : Nat), by omega, by omega⟩

/-- A truth value as scripts see it. -/
def ofBool (b : Bool) : Cell :=
  if b then 1 else 0

/-- The code point of a character. Every code point is in range. -/
def ofChar (c : Char) : Cell :=
  ofNat c.toNat

/-- The cell that agrees with `n` in the low 32 bits. -/
def wrap (n : Int) : Cell :=
  ⟨(n + 2147483648) % 4294967296 - 2147483648, by omega, by omega⟩

theorem ofInt?_eq_some {n : Int} {c : Cell} : ofInt? n = some c ↔ c.val = n := by
  unfold ofInt?
  split
  · rw [Option.some.injEq, ext_iff]
    exact eq_comm
  · rename_i h
    simp only [reduceCtorEq, false_iff]
    rintro rfl
    exact h ⟨c.lower, c.upper⟩

theorem ofInt?_eq_none {n : Int} : ofInt? n = none ↔ n < -2147483648 ∨ 2147483647 < n := by
  unfold ofInt?
  split
  · simp only [reduceCtorEq, false_iff]
    omega
  · simp only [true_iff]
    omega

@[simp] theorem ofInt?_val (c : Cell) : ofInt? c.val = some c :=
  ofInt?_eq_some.2 rfl

@[simp] theorem val_ofNat (n : Nat) : (ofNat n).val = (min n 2147483647 : Nat) := rfl

/-! ## Checked arithmetic -/

/-- The exact sum, if it is in range. -/
def add? (a b : Cell) : Option Cell :=
  ofInt? (a.val + b.val)

/-- The exact difference, if it is in range. -/
def sub? (a b : Cell) : Option Cell :=
  ofInt? (a.val - b.val)

/-- The exact product, if it is in range. -/
def mul? (a b : Cell) : Option Cell :=
  ofInt? (a.val * b.val)

/-- The sum that wraps around at 32 bits. -/
def wrappingAdd (a b : Cell) : Cell :=
  wrap (a.val + b.val)

instance : LE Cell := ⟨fun a b => a.val ≤ b.val⟩
instance : LT Cell := ⟨fun a b => a.val < b.val⟩
instance (a b : Cell) : Decidable (a ≤ b) := inferInstanceAs (Decidable (a.val ≤ b.val))
instance (a b : Cell) : Decidable (a < b) := inferInstanceAs (Decidable (a.val < b.val))

theorem le_def {a b : Cell} : a ≤ b ↔ a.val ≤ b.val := Iff.rfl
theorem lt_def {a b : Cell} : a < b ↔ a.val < b.val := Iff.rfl

/-- The greater of a cell and zero. -/
def clampLow (c : Cell) : Nat :=
  c.val.toNat

/-! ## Out of cells -/

/-- A cell as a size or a position; negative cells are neither. -/
def toNat? (c : Cell) : Option Nat :=
  if 0 ≤ c.val then some c.val.toNat else none

/-- The low eight bits. -/
def lowByte (c : Cell) : Cell :=
  ⟨c.val % 256, by omega, by omega⟩

/-- Whether the lowest bit is set. -/
def bit0 (c : Cell) : Bool :=
  c.val % 2 == 1

/-- Whether the second lowest bit is set. -/
def bit1 (c : Cell) : Bool :=
  c.val / 2 % 2 == 1

/-- The character with this code point, if there is one. -/
def toChar? (c : Cell) : Option Char :=
  (toNat? c).bind fun n => if n.isValidChar then some (Char.ofNat n) else none

end Cell

end Interpose

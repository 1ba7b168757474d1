import Interpose.Buffer

/-!
# Cell strings

A cell string is a resizable string of cells that scripts can address. In memory it is one *record*: a header with the
length, the cells, and a terminator. A script that holds the address of the record, or of the *view* that begins one
cell later, can write to any part of it, the header and the terminator included; so these two are kept as they are and
not computed from the cells. Every edit that changes the length writes the header afresh.

Main definitions: `CellString` and its edits, `CellString.record`, and `CellString.Edit`, the edits as data.
-/

namespace Interpose

/-- A string of cells as its record has it. -/
structure CellString where
  header : Cell
  cells : List Cell
  terminator : Cell
deriving DecidableEq

namespace CellString

/-- The number of cells, whatever the header says. -/
def length (s : CellString) : Nat :=
  s.cells.length

/-- The buffer that stands in memory: header, cells, terminator. -/
def record (s : CellString) : List Cell :=
  s.header :: s.cells ++ [s.terminator]

/-- The record without its header. -/
def view (s : CellString) : List Cell :=
  s.cells ++ [s.terminator]

/-- The string with other cells and the header that goes with them. -/
def withCells (s : CellString) (cells : List Cell) : CellString :=
  { s with cells, header := Cell.ofNat cells.length }

/-- The string of a list of cells. -/
def ofCells (cells : List Cell) : CellString where
  header := Cell.ofNat cells.length
  cells := cells
  terminator := 0

/-- The string of a text, one cell for each character. -/
def ofText (text : String) : CellString :=
  ofCells (text.toList.map Cell.ofChar)

/-- The string without cells. -/
def empty : CellString :=
  ofCells []

/-! ## Strings out of memory -/

/-- How cells that are copied out of memory are changed on the way into a string. -/
structure CreateMode where
  /-- Keep only the low byte of a cell. -/
  truncate : Bool
  /-- Replace a zero cell, which would end the view early. -/
  noNulls : Bool
deriving DecidableEq

namespace CreateMode

/-- The flag of `truncate`. -/
def truncateFlag : Cell := 1

/-- The flag of `noNulls`. -/
def noNullsFlag : Cell := 2

/-- What a zero cell is replaced by: no byte, and no character either. -/
def nullReplacement : Cell := ⟨0x00FFFF00, by decide, by decide⟩

/-- The mode in which cells stay as they are. -/
def plain : CreateMode := ⟨false, false⟩

/-- Reads the two flags; other bits have no meaning. -/
def ofFlags (flags : Cell) : CreateMode where
  truncate := flags.bit0
  noNulls := flags.bit1

/-- Changes one cell. A cell that truncation made zero counts as a zero. -/
def apply (mode : CreateMode) (c : Cell) : Cell :=
  let c := if mode.truncate then c.lowByte else c
  if mode.noNulls ∧ c = 0 then nullReplacement else c

end CreateMode

/-- The string of cells copied out of memory. -/
def ofMemory (cells : List Cell) (mode : CreateMode) : CellString :=
  ofCells (cells.map mode.apply)

/-! ## Edits -/

/-- Adds a cell at the end. -/
def push (s : CellString) (c : Cell) : CellString :=
  s.withCells (s.cells ++ [c])

/-- Adds cells at the end. -/
def append (s : CellString) (cells : List Cell) : CellString :=
  s.withCells (s.cells ++ cells)

/-- Adds cells in front of a position; none if the position lies past the end. -/
def insert? (s : CellString) (position : Nat) (cells : List Cell) : Option CellString :=
  if position ≤ s.length then some (s.withCells (s.cells.take position ++ cells ++ s.cells.drop position)) else none

/-- Removes up to `count` cells from `start` on. -/
def erase (s : CellString) (start count : Nat) : CellString :=
  s.withCells (s.cells.take start ++ s.cells.drop (start + count))

/-- Cuts off cells at the end, or adds copies of `fill`, until there are `length`. -/
def resize (s : CellString) (length : Nat) (fill : Cell) : CellString :=
  { s.withCells (s.cells.take length ++ List.replicate (length - s.length) fill) with terminator := 0 }

/-- Removes every cell. -/
def clear (s : CellString) : CellString :=
  { s.withCells [] with terminator := 0 }

/-- Overwrites one cell; none if there is no such cell. -/
def set? (s : CellString) (position : Nat) (c : Cell) : Option CellString :=
  if position < s.length then some { s with cells := s.cells.set position c } else none

/-- The cell at a position. -/
def get? (s : CellString) (position : Nat) : Option Cell :=
  s.cells[position]?

/-- A copy of `length` cells from `start` on, or of as many as there are. -/
def substring (s : CellString) (start length : Nat) : CellString :=
  ofCells ((s.cells.drop start).take length)

/-- A letter a to z as its capital; every other cell as it is. -/
def upperCell (c : Cell) : Cell :=
  if h : 97 ≤ c.val ∧ c.val ≤ 122 then ⟨c.val - 32, by omega, by omega⟩ else c

/-- A letter A to Z as its small letter; every other cell as it is. -/
def lowerCell (c : Cell) : Cell :=
  if h : 65 ≤ c.val ∧ c.val ≤ 90 then ⟨c.val + 32, by omega, by omega⟩ else c

/-- The string in capitals. -/
def upper (s : CellString) : CellString :=
  { s with cells := s.cells.map upperCell }

/-- The string in small letters. -/
def lower (s : CellString) : CellString :=
  { s with cells := s.cells.map lowerCell }

/-! ## Views -/

/-- The cells as text. A cell that is no character's code point shows as the replacement character. -/
def toText (s : CellString) : String :=
  String.ofList (s.cells.map fun c => c.toChar?.getD '\ufffd')

/-- The order of two lists of cells: by the first difference, a list before its extensions. -/
def compareCells : List Cell → List Cell → Ordering
  | [], [] => .eq
  | [], _ :: _ => .lt
  | _ :: _, [] => .gt
  | a :: as, b :: bs => (compare a.val b.val).then (compareCells as bs)

/-- Strings are ordered by their cells. -/
def compare (s t : CellString) : Ordering :=
  compareCells s.cells t.cells

/-- Strings are the same if their cells are, whatever stands in header and terminator. -/
def same (s t : CellString) : Bool :=
  s.cells == t.cells

/-! ## Writes through an address -/

/-- The string after its record has been overwritten from `start` on; none if the cells do not fit into it. -/
def write? (s : CellString) (start : Nat) (cells : List Cell) : Option CellString :=
  (Buffer.overwrite? s.record start cells).bind fun
    | [] => none
    | header :: rest => some ⟨header, rest.dropLast, rest.getLastD s.terminator⟩

/-! ## Edits as data -/

/-- A change of one string. -/
inductive Edit
  | push (c : Cell)
  | append (cells : List Cell)
  | insert (position : Nat) (cells : List Cell)
  | erase (start count : Nat)
  | resize (length : Nat) (fill : Cell)
  | clear
  | set (position : Nat) (c : Cell)
  | upper
  | lower
  /-- Keep only a part. -/
  | keep (start length : Nat)
  /-- Append a copy of the string to itself. -/
  | double
  /-- Become another string. -/
  | replace (s : CellString)

/-- Makes a change, and says whether there was anything to change: an insertion past the end, or a cell that does not
exist, leaves the string alone. -/
def Edit.apply (s : CellString) : Edit → Bool × CellString
  | .push c => (true, s.push c)
  | .append cells => (true, s.append cells)
  | .insert position cells =>
    match s.insert? position cells with
    | some t => (true, t)
    | none => (false, s)
  | .erase start count => (true, s.erase start count)
  | .resize length fill => (true, s.resize length fill)
  | .clear => (true, s.clear)
  | .set position c =>
    match s.set? position c with
    | some t => (true, t)
    | none => (false, s)
  | .upper => (true, s.upper)
  | .lower => (true, s.lower)
  | .keep start length => (true, s.substring start length)
  | .double => (true, s.append s.cells)
  | .replace t => (true, t)

end CellString

end Interpose

import Interpose.Native.Call
import Interpose.World.Memory

/-!
# Natives on pooled strings

What scripts can do with pooled strings: make them out of memory, take their addresses, hold and drop references, read
and change their cells, and make new ones out of old ones. A string that is only read may be the null string, which
reads as the empty one; a string that is changed may not.

Main definition: `StringNative.run`.
-/

namespace Interpose.StringNative

open NativeAct

variable {σ : Type}

/-- What a script is answered that asks for a cell that does not exist. -/
def invalidChar : Cell := ⟨-256, by decide, by decide⟩

/-- The string an argument names; an argument that is left out names the null string. -/
def idOf (params : List Cell) (position : Nat) : StringId :=
  ⟨argument params position 0⟩

/-- A string as it is; the null string reads as the empty one. -/
def snapshot (k : SubsystemId) (id : StringId) : NativeAct σ CellString := do
  if id.isNull then pure .empty
  else
    match (← pool k).get? id with
    | some s => pure s
    | none => fail (.pool (.invalidId id.raw))

/-- Adds a string for as long as the execution lasts, and answers its number. -/
def add (k : SubsystemId) (s : CellString) : NativeAct σ Cell := do
  let id ← lift (Act.onPool k fun p => p.add s)
  pure id.raw

/-- Changes a string that exists. -/
def edit (k : SubsystemId) (id : StringId) (change : CellString.Edit) : NativeAct σ Unit :=
  onPool k fun p =>
    match p.edit? id change with
    | some (_, p) => .ok ((), p)
    | none => .error (.invalidId id.raw)

/-- A new string out of the string at an address: `address, mode = 0`. -/
def runNew (k : SubsystemId) (i : InstanceId) (params : List Cell) : NativeAct σ Cell := do
  require params 1
  let cells ← machine (Act.readString i (argument params 0 0))
  add k (.ofMemory cells (.ofFlags (argument params 1 0)))

/-- A new string out of an array: `address, size, mode = 0`. -/
def runNewArray (k : SubsystemId) (i : InstanceId) (params : List Cell) : NativeAct σ Cell := do
  require params 2
  let count ← size "size" (argument params 1 0)
  let cells ← machine (Act.readCells i (argument params 0 0) count)
  add k (.ofMemory cells (.ofFlags (argument params 2 0)))

/-- A new string of zeros that fills a buffer together with its terminator: `size`. -/
def runNewBuffer (k : SubsystemId) (params : List Cell) : NativeAct σ Cell := do
  require params 1
  let cells := argument params 0 0
  if cells < 1 then fail (.outOfRange "size" cells)
  else add k (CellString.empty.resize (cells.val.toNat - 1) 0)

/-- The address of a part of a string: `string`. -/
def runAddress (k : SubsystemId) (i : InstanceId) (part : Part) (params : List Cell) : NativeAct σ Cell := do
  require params 1
  onPool k fun p => p.bind i (idOf params 0) part

/-- Takes or drops a reference, and answers the string: `string`. -/
def runReference (k : SubsystemId) (change : Pool → StringId → Except PoolError (Nat × Pool)) (params : List Cell) :
    NativeAct σ Cell := do
  require params 1
  let _ ← onPool k fun p => change p (idOf params 0)
  pure (argument params 0 0)

/-- Ends a string: `string`. -/
def runDelete (k : SubsystemId) (params : List Cell) : NativeAct σ Cell := do
  require params 1
  match ← lift (Act.removeString k (idOf params 0)) with
  | .ok _ => pure 1
  | .error e => fail (.pool e)

/-- Whether there is a string with a number: `string`. -/
def runValid (k : SubsystemId) (params : List Cell) : NativeAct σ Cell := do
  require params 1
  pure (.ofBool ((← pool k).contains (idOf params 0)))

/-- A copy of a string, which may not be the null string: `string`. -/
def runClone (k : SubsystemId) (params : List Cell) : NativeAct σ Cell := do
  require params 1
  match (← pool k).get? (idOf params 0) with
  | some s => add k s
  | none => fail (.pool (.invalidId (idOf params 0).raw))

/-- The length of a string: `string`. -/
def runLength (k : SubsystemId) (params : List Cell) : NativeAct σ Cell := do
  require params 1
  let s ← snapshot k (idOf params 0)
  pure (.ofNat s.length)

/-- The cells of a string from `start` up to `stop`, where positions outside of it count as its nearer end. -/
def slice (s : CellString) (start stop : Cell) : List Cell :=
  (s.cells.take stop.clampLow).drop start.clampLow

/-- Copies a part of a string to an address: `string, address, size, start = 0, end = greatest`. -/
def runGet (k : SubsystemId) (i : InstanceId) (params : List Cell) : NativeAct σ Cell := do
  require params 3
  let capacity ← size "size" (argument params 2 0)
  if capacity = 0 then pure 0
  else
    let s ← snapshot k (idOf params 0)
    let cells := slice s (argument params 3 0) (argument params 4 .greatest)
    let written ← machine (Act.writeString i (argument params 1 0) cells capacity)
    pure (.ofNat written)

/-- One cell of a string: `string, position`. -/
def runGetCell (k : SubsystemId) (params : List Cell) : NativeAct σ Cell := do
  require params 2
  let p ← pool k
  let cell := do
    let position ← (argument params 1 0).toNat?
    let s ← p.get? (idOf params 0)
    s.get? position
  pure (cell.getD invalidChar)

/-- Writes one cell of a string, and answers the one that was there: `string, position, value`. -/
def runSetCell (k : SubsystemId) (params : List Cell) : NativeAct σ Cell := do
  require params 3
  let p ← pool k
  let previous := do
    let position ← (argument params 1 0).toNat?
    let s ← p.get? (idOf params 0)
    let c ← s.get? position
    pure (position, c)
  match previous with
  | some (position, c) =>
    edit k (idOf params 0) (.set position (argument params 2 0))
    pure c
  | none => pure invalidChar

/-- Adds the cells of one string to another, which may be the same, and answers the other: `string, added`. -/
def runAppend (k : SubsystemId) (params : List Cell) : NativeAct σ Cell := do
  require params 2
  let added ← snapshot k (idOf params 1)
  edit k (idOf params 0) (.append added.cells)
  pure (argument params 0 0)

/-- A new string of the cells of two: `first, second`. -/
def runConcat (k : SubsystemId) (params : List Cell) : NativeAct σ Cell := do
  require params 2
  let first ← snapshot k (idOf params 0)
  let second ← snapshot k (idOf params 1)
  add k (first.append second.cells)

/-- Changes the length of a string, and answers it: `string, size, fill = 0`. -/
def runResize (k : SubsystemId) (params : List Cell) : NativeAct σ Cell := do
  require params 2
  let length ← size "size" (argument params 1 0)
  edit k (idOf params 0) (.resize length (argument params 2 0))
  pure (argument params 0 0)

/-- Removes the cells of a string, and answers it: `string`. -/
def runClear (k : SubsystemId) (params : List Cell) : NativeAct σ Cell := do
  require params 1
  edit k (idOf params 0) .clear
  pure (argument params 0 0)

/-- A new string of the changed cells of another: `string`. -/
def runCase (k : SubsystemId) (change : CellString → CellString) (params : List Cell) : NativeAct σ Cell := do
  require params 1
  let s ← snapshot k (idOf params 0)
  add k (change s)

/-- What a native on strings does when an instance calls it. -/
def run (k : SubsystemId) (i : InstanceId) (params : List Cell) : StringNative → NativeAct σ Cell
  | new => runNew k i params
  | newArray => runNewArray k i params
  | newBuffer => runNewBuffer k params
  | address => runAddress k i .view params
  | recordAddress => runAddress k i .record params
  | acquire => runReference k Pool.acquire params
  | release => runReference k Pool.release params
  | delete => runDelete k params
  | valid => runValid k params
  | clone => runClone k params
  | length => runLength k params
  | get => runGet k i params
  | getCell => runGetCell k params
  | setCell => runSetCell k params
  | append => runAppend k params
  | concat => runConcat k params
  | resize => runResize k params
  | clear => runClear k params
  | toUpper => runCase k CellString.upper params
  | toLower => runCase k CellString.lower params

end Interpose.StringNative

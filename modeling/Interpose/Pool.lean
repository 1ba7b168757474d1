import Interpose.CellString
import Interpose.Keyed
import Interpose.Pool.Address

/-!
# The string pool

The pool owns strings that scripts know by number. A string stays for any of three reasons: it is *pinned*; somebody
holds a *manual reference*; or it still has the *implicit reference* it was born with, which the next collection takes
away. Removing a string ends it whatever the reasons.

An instance addresses a string only after it asked for the address: the pool remembers, for each instance, the
addresses it has bound, and forgets an address for everybody when its string dies, so that the string that later gets
the same number is not reached through it.

Main definitions: `Pool`, its operations, `Pool.resolve?`, and the operations as data, `Pool.Action`.
-/

namespace Interpose

/-- Why an operation on a string is refused. -/
inductive PoolError
  | invalidId (raw : Cell)
  | cannotAcquire (raw : Cell)
  | cannotRelease (raw : Cell)
  | addressOutOfRange (raw : Cell)
deriving DecidableEq

/-- What a refusal says to a reader. -/
def PoolError.message : PoolError → String
  | invalidId raw => "invalid string id " ++ toString raw.val
  | cannotAcquire raw => "reference count of string " ++ toString raw.val ++ " cannot be increased"
  | cannotRelease raw => "reference count of string " ++ toString raw.val ++ " cannot be decreased"
  | addressOutOfRange raw => "string " ++ toString raw.val ++ " has no representable address"

/-- A string in the pool, and the reasons for which it stays. -/
structure Pool.Entry where
  string : CellString
  /-- Manual references. -/
  refs : Nat
  /-- Whether the reference it was born with is still there. -/
  implicit : Bool
  pinned : Bool

/-- Whether nothing keeps a string any more. -/
def Pool.Entry.isUnreferenced (e : Pool.Entry) : Bool :=
  e.refs == 0 && !e.implicit && !e.pinned

/-- The entry without the reference it was born with. -/
def Pool.Entry.dropImplicit (e : Pool.Entry) : Pool.Entry :=
  { e with implicit := false }

/-- The strings of one hook layer, and who may address them. -/
structure Pool where
  /-- The strings by place; a place is vacant after its string died. -/
  slots : Array (Option Pool.Entry)
  /-- The vacant places, the one to be used next in front. -/
  free : List Nat
  /-- How many places are not vacant. -/
  live : Nat
  /-- The addresses each instance has bound. No instance is listed without any. -/
  bindings : Keyed InstanceId (Keyed Cell Unit)
  /-- The string that was resolved last. -/
  cache : Option StringId
  /-- The buffer of the null string. -/
  nullCell : Cell

namespace Pool

/-- The pool without strings. -/
def empty : Pool where
  slots := #[]
  free := []
  live := 0
  bindings := .empty
  cache := none
  nullCell := 0

/-! ## Looking -/

/-- The entry of a string. -/
def entry? (p : Pool) (id : StringId) : Option Entry :=
  id.slot?.bind fun slot => p.slots[slot]?.join

/-- The string with a number. -/
def get? (p : Pool) (id : StringId) : Option CellString :=
  (p.entry? id).map Entry.string

/-- Whether there is a string with this number. -/
def contains (p : Pool) (id : StringId) : Bool :=
  (p.entry? id).isSome

/-- The manual references to a string. -/
def refCount? (p : Pool) (id : StringId) : Option Nat :=
  (p.entry? id).map Entry.refs

/-- Whether an instance has bound an address. -/
def isBound (p : Pool) (i : InstanceId) (address : Cell) : Bool :=
  match p.bindings.get? i with
  | some bound => bound.contains address
  | none => false

/-- The string and the part behind an address, for an instance that has bound it. -/
def resolve? (p : Pool) (i : InstanceId) (address : Cell) : Option (StringId × Part) :=
  (Address.decode? address).bind fun target =>
    if p.isBound i address ∧ p.contains target.1 then some target else none

/-- The number of cells behind a part of the string that was resolved last: the cells themselves, and for the record
also its header. None for a part of any other string. -/
def cachedLength? (p : Pool) (id : StringId) (part : Part) : Option Nat :=
  p.cache.bind fun cached =>
    if cached = id then
      (p.get? cached).map fun s => match part with
        | .view => s.length
        | .record => s.length + 1
    else none

/-! ## Adding and changing -/

/-- Puts an entry into the place that became vacant last, or into a new one. -/
def insert (p : Pool) (e : Entry) : StringId × Pool :=
  match p.free with
  | slot :: free =>
    (StringId.ofSlot slot, { p with slots := p.slots.setIfInBounds slot (some e), free, live := p.live + 1 })
  | [] => (StringId.ofSlot p.slots.size, { p with slots := p.slots.push (some e), live := p.live + 1 })

/-- Adds a string that lives until the next collection, unless somebody acquires it. -/
def add (p : Pool) (s : CellString) : StringId × Pool :=
  p.insert { string := s, refs := 0, implicit := true, pinned := false }

/-- Adds a string that lives until it is removed. -/
def addPinned (p : Pool) (s : CellString) : StringId × Pool :=
  p.insert { string := s, refs := 0, implicit := false, pinned := true }

/-- Writes an entry over the one of the same string. -/
def setEntry (p : Pool) (id : StringId) (e : Entry) : Pool :=
  match id.slot? with
  | some slot => { p with slots := p.slots.setIfInBounds slot (some e) }
  | none => p

/-- Makes a change of a string, and says whether there was anything to change. -/
def edit? (p : Pool) (id : StringId) (change : CellString.Edit) : Option (Bool × Pool) :=
  (p.entry? id).map fun e =>
    let (changed, string) := change.apply e.string
    (changed, p.setEntry id { e with string })

/-! ## The end of a string -/

/-- The bindings without the addresses of a string. -/
def unbind (bindings : Keyed InstanceId (Keyed Cell Unit)) (id : StringId) : Keyed InstanceId (Keyed Cell Unit) :=
  let addresses := [Part.view, Part.record].filterMap (Address.encode id)
  bindings.refine fun bound =>
    let kept := addresses.foldl (fun bound address => bound.erase address) bound
    if kept.isEmpty then none else some kept

/-- Ends a string: its place becomes vacant and its addresses are forgotten. None if there is no such string. -/
def destroy? (p : Pool) (id : StringId) : Option (CellString × Pool) :=
  id.slot?.bind fun slot => p.slots[slot]?.join.map fun e =>
    (e.string,
      { p with
        slots := p.slots.setIfInBounds slot none
        free := slot :: p.free
        live := p.live - 1
        cache := if p.cache = some id then none else p.cache
        bindings := unbind p.bindings id })

/-- Ends a string, if it is there. -/
def discard (p : Pool) (id : StringId) : Pool :=
  match p.destroy? id with
  | some (_, p) => p
  | none => p

/-- Ends a string, and answers it. -/
def remove (p : Pool) (id : StringId) : Except PoolError (CellString × Pool) :=
  match p.destroy? id with
  | some r => .ok r
  | none => .error (.invalidId id.raw)

/-! ## References -/

/-- The most manual references a string can have. -/
def mostRefs : Nat := 4294967295

/-- Adds a manual reference, and answers how many there are. -/
def acquire (p : Pool) (id : StringId) : Except PoolError (Nat × Pool) :=
  match p.entry? id with
  | none => .error (.invalidId id.raw)
  | some e =>
    if e.refs < mostRefs then .ok (e.refs + 1, p.setEntry id { e with refs := e.refs + 1 })
    else .error (.cannotAcquire id.raw)

/-- Takes away a manual reference, and answers how many are left. A string that nothing keeps any more ends. -/
def release (p : Pool) (id : StringId) : Except PoolError (Nat × Pool) :=
  match p.entry? id with
  | none => .error (.invalidId id.raw)
  | some e =>
    match e.refs with
    | 0 => .error (.cannotRelease id.raw)
    | refs + 1 =>
      let e := { e with refs }
      let p := p.setEntry id e
      .ok (refs, if e.isUnreferenced then p.discard id else p)

/-- The strings that nothing keeps, in the order of their places. -/
def unreferenced (p : Pool) : List StringId :=
  (List.range p.slots.size).filterMap fun slot =>
    match p.slots[slot]?.join with
    | some e => if e.isUnreferenced then some (StringId.ofSlot slot) else none
    | none => none

/-- Takes every implicit reference away and ends the strings that nothing keeps then. Answers how many those are. -/
def collect (p : Pool) : Nat × Pool :=
  let p := { p with slots := p.slots.map (Option.map Entry.dropImplicit) }
  let doomed := p.unreferenced
  (doomed.length, doomed.foldl discard p)

/-! ## Addresses -/

/-- Binds the address of a part of a string for an instance, and answers it. The null string has its address without
being bound. -/
def bind (p : Pool) (i : InstanceId) (id : StringId) (part : Part) : Except PoolError (Cell × Pool) :=
  if id.isNull then .ok (Address.null, p)
  else if !p.contains id then .error (.invalidId id.raw)
  else
    match Address.encode id part with
    | none => .error (.addressOutOfRange id.raw)
    | some address =>
      let bound := (p.bindings.get? i).getD .empty
      .ok (address, { p with bindings := p.bindings.insert i (bound.insert address ()) })

/-- Forgets every address an instance has bound, and answers how many there were. -/
def forget (p : Pool) (i : InstanceId) : Nat × Pool :=
  match p.bindings.get? i with
  | some bound => (bound.size, { p with bindings := p.bindings.erase i })
  | none => (0, p)

/-- Remembers a string as the one that was resolved last. -/
def setCache (p : Pool) (id : StringId) : Pool :=
  { p with cache := some id }

/-- Empties the buffer of the null string, which happens whenever its address is handed to somebody. -/
def resetNull (p : Pool) : Pool :=
  { p with nullCell := 0 }

/-! ## Operations as data -/

/-- An operation that may change the pool. -/
inductive Action
  | add (s : CellString)
  | addPinned (s : CellString)
  | edit (id : StringId) (change : CellString.Edit)
  | remove (id : StringId)
  | acquire (id : StringId)
  | release (id : StringId)
  | collect
  | bind (i : InstanceId) (id : StringId) (part : Part)
  | forget (i : InstanceId)
  | setCache (id : StringId)
  | resetNull

/-- What an operation answers. -/
abbrev Action.Reply : Action → Type
  | add _ => StringId
  | addPinned _ => StringId
  | edit _ _ => Option Bool
  | remove _ => Except PoolError CellString
  | acquire _ => Except PoolError Nat
  | release _ => Except PoolError Nat
  | collect => Nat
  | bind _ _ _ => Except PoolError Cell
  | forget _ => Nat
  | setCache _ => Unit
  | resetNull => Unit

/-- The answer and the pool after an operation that was refused or not. -/
def settle {α : Type} (p : Pool) : Except PoolError (α × Pool) → Except PoolError α × Pool
  | .ok (a, p) => (.ok a, p)
  | .error e => (.error e, p)

/-- Performs an operation. -/
def perform (p : Pool) : (a : Action) → a.Reply × Pool
  | .add s => p.add s
  | .addPinned s => p.addPinned s
  | .edit id change =>
    match p.edit? id change with
    | some (changed, p) => (some changed, p)
    | none => (none, p)
  | .remove id => settle p (p.remove id)
  | .acquire id => settle p (p.acquire id)
  | .release id => settle p (p.release id)
  | .collect => p.collect
  | .bind i id part => settle p (p.bind i id part)
  | .forget i => p.forget i
  | .setCache id => ((), p.setCache id)
  | .resetNull => ((), p.resetNull)

end Pool

end Interpose

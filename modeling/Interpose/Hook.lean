import Interpose.Handle

/-!
# Hooks

Every instance calls the machine through one table of four *exports*. A *hook* redirects one export: it writes a
*detour* into the slot of the table, and writes back the entry that it found there when it was made. While the detour
passes a call on to the entry it replaced, the hook takes itself out of the slot, and afterwards it goes back, unless it
was switched off in the meantime.

Main definitions: `Entry`, what a slot holds; `Hook`; and `Mount`, a hook with its slot, on which the operations are
defined.
-/

namespace Interpose

/-- The entry points that can be intercepted. -/
inductive Export
  /-- Runs a function. -/
  | exec
  /-- Turns an address into a place in memory. -/
  | resolve
  /-- Measures the string at a place. -/
  | measure
  /-- Looks a function up by name. -/
  | lookup
deriving DecidableEq

namespace Export

/-- The exports in the order in which they are installed. -/
def all : List Export :=
  [exec, resolve, measure, lookup]

/-- The name an export is shown under. -/
def name : Export → String
  | exec => "Exec"
  | resolve => "GetAddr"
  | measure => "StrLen"
  | lookup => "FindPublic"

end Export

/-- One value for each export. -/
structure PerExport (α : Type) where
  exec : α
  resolve : α
  measure : α
  lookup : α
deriving DecidableEq

namespace PerExport

variable {α β : Type}

/-- The value of an export. -/
def get (t : PerExport α) : Export → α
  | .exec => t.exec
  | .resolve => t.resolve
  | .measure => t.measure
  | .lookup => t.lookup

/-- Gives an export another value. -/
def set (t : PerExport α) (a : α) : Export → PerExport α
  | .exec => { t with exec := a }
  | .resolve => { t with resolve := a }
  | .measure => { t with measure := a }
  | .lookup => { t with lookup := a }

/-- The same value for every export. -/
def const (a : α) : PerExport α :=
  ⟨a, a, a, a⟩

/-- Changes every value. -/
def map (f : α → β) (t : PerExport α) : PerExport β :=
  ⟨f t.exec, f t.resolve, f t.measure, f t.lookup⟩

theorem get_set (t : PerExport α) (a : α) (x y : Export) :
    (t.set a x).get y = if y = x then a else t.get y := by
  cases x <;> cases y <;> rfl

@[simp] theorem get_map (f : α → β) (t : PerExport α) (x : Export) : (t.map f).get x = f (t.get x) := by
  cases x <;> rfl

@[simp] theorem get_const (a : α) (x : Export) : (const a).get x = a := by
  cases x <;> rfl

end PerExport

/-- What a slot of the table holds. -/
inductive Entry
  /-- The machine's own entry point. -/
  | plain
  /-- The detour of a hook layer, and the entry that it goes to once that layer is gone. -/
  | detour (k : SubsystemId) (replaced : Entry)
deriving DecidableEq

/-- What a call of an entry reaches: detours of layers that are gone pass it on. -/
def Entry.effective (alive : SubsystemId → Bool) : Entry → Entry
  | plain => plain
  | detour k replaced => if alive k then detour k replaced else effective alive replaced

/-- A hook of one export. -/
structure Hook where
  /-- The entry that was in the slot when the hook was made. -/
  replaced : Entry
  /-- The entry that the hook writes. -/
  detour : Entry
  /-- Whether the hook is switched on. -/
  wanted : Bool
  /-- Whether the detour is in the slot: it is not while a call is passed on. -/
  attached : Bool
deriving DecidableEq

/-- The hook of a layer that finds an entry in the slot. -/
def Hook.new (k : SubsystemId) (found : Entry) : Hook where
  replaced := found
  detour := .detour k found
  wanted := false
  attached := false

/-- A hook together with what its slot holds. -/
structure Mount where
  hook : Hook
  slot : Entry
deriving DecidableEq

namespace Mount

/-- Writes the detour into the slot, unless it was written before. Answers whether it was written now. -/
def attach (m : Mount) : Bool × Mount :=
  if m.hook.attached then (false, m)
  else (true, ⟨{ m.hook with attached := true }, m.hook.detour⟩)

/-- Writes the replaced entry back into the slot, unless it was written back before. Answers whether it was written now. -/
def detach (m : Mount) : Bool × Mount :=
  if m.hook.attached then (true, ⟨{ m.hook with attached := false }, m.hook.replaced⟩)
  else (false, m)

/-- Switches the hook on, and says whether the detour was written. -/
def install (m : Mount) : Bool × Mount :=
  attach { m with hook := { m.hook with wanted := true } }

/-- Switches the hook off, and says whether it was on. Calls that are being passed on do not bring it back. -/
def remove (m : Mount) : Bool × Mount :=
  let (detached, m') := detach { m with hook := { m.hook with wanted := false } }
  (detached || m.hook.wanted, m')

/-- Puts a hook that is switched on back into its slot. -/
def reattach (m : Mount) : Mount :=
  if m.hook.wanted then m.attach.2 else m

/-- Ends the passing on of a call, of which `took` says whether it took the hook out of the slot. -/
def giveBack (m : Mount) (took : Bool) : Mount :=
  if took then m.reattach else m

/-- Switches the hook on or off, and says whether that changed anything. -/
def toggle (m : Mount) (on : Bool) : Bool × Mount :=
  if on then m.install else m.remove

end Mount

end Interpose

import Interpose.World

/-!
# Runs

A run of host code through the machine is followed for as long as there is *fuel*; every step that code takes uses one
unit. A run that is not over by then is *cut*: it shows what was running and the world at that moment. So all moments of
a run are seen by cutting it with every amount of fuel, and a property of every moment is a property of every cut. A run
is also cut where an operation has no defined answer, since it then gets no further.

Main definitions: `Activity`, `Outcome` and `Run`.
-/

namespace Interpose

/-- What is running. -/
inductive Activity
  /-- Code outside of any call. -/
  | outside
  /-- The machine or a hook layer, on the way from one piece of code to another. -/
  | machine
  /-- A function of a script. -/
  | script (i : InstanceId) (code : Code)
  /-- A native. -/
  | native (i : InstanceId) (n : Native)
  /-- A callback of the host's. -/
  | callback (i : InstanceId) (code : Code)
  /-- The handler of a synthetic callback. -/
  | handler (k : SubsystemId) (i : InstanceId) (id : Nat)
  /-- The thread system of a hook layer. -/
  | detach (k : SubsystemId) (i : InstanceId)
deriving DecidableEq

/-- What became of a run. -/
inductive Outcome (σ α : Type)
  /-- It is over, and fuel is left. -/
  | done (value : α) (world : World σ) (left : Nat)
  /-- It was cut. -/
  | cut (during : Activity) (world : World σ)

/-- A computation that may run host code: it is told what is running, the world, and the fuel. -/
def Run (σ α : Type) :=
  Activity → World σ → Nat → Outcome σ α

namespace Run

variable {σ α β : Type}

/-- Over at once. -/
def result (a : α) : Run σ α :=
  fun _ w fuel => .done a w fuel

/-- One run after another. -/
def andThen (r : Run σ α) (next : α → Run σ β) : Run σ β :=
  fun during w fuel =>
    match r during w fuel with
    | .done a w fuel => next a during w fuel
    | .cut during w => .cut during w

instance : Monad (Run σ) where
  pure := result
  bind := andThen

/-- A run of which nothing is seen. -/
def stop : Run σ α :=
  fun during w _ => .cut during w

/-- Uses one unit of fuel. -/
def tick : Run σ Unit :=
  fun during w fuel =>
    match fuel with
    | 0 => .cut during w
    | fuel + 1 => .done () w fuel

/-- The world as it is. -/
def world : Run σ (World σ) :=
  fun _ w fuel => .done w w fuel

/-- An operation without host code. -/
def act (a : Act σ α) : Run σ α :=
  fun during w fuel =>
    match a w with
    | some (value, w) => .done value w fuel
    | none => .cut during w

/-- Changes what is running for the time of a run. -/
def under (activity : Activity) (r : Run σ α) : Run σ α :=
  fun _ w fuel => r activity w fuel

/-- Runs a piece of code, which begins with a step. -/
def within (activity : Activity) (r : Run σ α) : Run σ α :=
  under activity (tick.andThen fun _ => r)

end Run

end Interpose

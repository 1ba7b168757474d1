import Interpose.World

/-!
# Calls of built-in natives

A built-in native answers a cell or fails with a `NativeError`. How a failure looks to the script is the same for all of
them: a status of the machine is handed on, and everything else is reported and raised as the status `native`.

Main definitions: `NativeAct` and `Act.settleNative`.
-/

namespace Interpose

/-- What a built-in native does. -/
abbrev NativeAct (σ α : Type) :=
  ExceptT NativeError (Act σ) α

namespace NativeAct

variable {σ α : Type}

/-- An operation that does not fail. -/
def lift (act : Act σ α) : NativeAct σ α :=
  ExceptT.lift act

/-- An operation of the machine; its status is handed on. -/
def machine (act : Act σ (Except Status α)) : NativeAct σ α :=
  ExceptT.mk do
    match ← act with
    | .ok a => pure (.ok a)
    | .error s => pure (.error (.status s))

/-- An operation on the pool of a hook layer. -/
def onPool (k : SubsystemId) (f : Pool → Except PoolError (α × Pool)) : NativeAct σ α :=
  ExceptT.mk do
    match ← Act.onPool k fun p => p.settle (f p) with
    | .ok a => pure (.ok a)
    | .error e => pure (.error (.pool e))

/-- The pool of a hook layer as it is. -/
def pool (k : SubsystemId) : NativeAct σ Pool :=
  lift do
    let s ← Act.getSubsystem k
    pure s.pool

/-- A native comes back with a failure. -/
def fail (e : NativeError) : NativeAct σ α :=
  throw e

/-! ## Arguments -/

/-- Refuses a call with fewer than `expected` arguments. -/
def require (params : List Cell) (expected : Nat) : NativeAct σ Unit :=
  if params.length < expected then fail (.params expected params.length) else pure ()

/-- An argument that may be left out. -/
def argument (params : List Cell) (position : Nat) (standard : Cell) : Cell :=
  params.getD position standard

/-- An argument as a size or a position. -/
def size (what : String) (c : Cell) : NativeAct σ Nat :=
  match c.toNat? with
  | some n => pure n
  | none => fail (.outOfRange what c)

end NativeAct

/-- What a script sees of a call of a native. -/
def Act.settleNative {σ : Type} (name : String) (i : InstanceId) (native : NativeAct σ Cell) :
    Act σ (Except Status Cell) := do
  match ← native.run with
  | .ok c => pure (.ok c)
  | .error (.status s) => pure (.error s)
  | .error e =>
    notify (.nativeFailed name i e)
    let s ← raise i .native
    pure (.error s)

end Interpose

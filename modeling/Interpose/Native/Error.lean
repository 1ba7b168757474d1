import Interpose.Pool
import Interpose.Status
import Interpose.Tasks

/-!
# Misuse of natives

A script can call a native with too few arguments, with a size that is none, or with a string or a task that it cannot
use; such a call fails, and the failure is logged. A native can also come back with a status of the machine, which is
handed on as it is.
-/

namespace Interpose

/-- Why a native fails. -/
inductive NativeError
  /-- There are too few arguments. -/
  | params (expected got : Nat)
  /-- An argument lies outside its range. -/
  | outOfRange (what : String) (value : Cell)
  | pool (e : PoolError)
  | task (e : TaskError)
  /-- A status to hand on. -/
  | status (s : Status)
deriving DecidableEq

namespace NativeError

/-- What a failure says to a reader. -/
def message : NativeError → String
  | params expected got =>
    "expected at least " ++ toString expected ++ " arguments, got " ++ toString got
  | outOfRange what value => what ++ " out of range: " ++ toString value.val
  | pool e => e.message
  | task e => e.message
  | status s => s.message

end NativeError

end Interpose

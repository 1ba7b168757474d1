import Interpose.Native.Call
import Interpose.Proofs.Worlds

/-!
# Natives step by step

A built-in native is a few steps in a row, each of which answers or fails. What a native does is put together here from what
its steps do: a step that answers is followed by the next, and a step that fails ends the native. How a failure looks to the
script follows in the end.
-/

namespace Interpose

variable {σ α β : Type} {k : SubsystemId} {i : InstanceId} {w w' : World σ} {s : Subsystem}

namespace NativeAct

variable {native : NativeAct σ α} {next : α → NativeAct σ β}

theorem run_bind_of_ok {a : α} (h : native.run w = some (.ok a, w')) : (native >>= next).run w = (next a).run w' := by
  show (native.run >>= _) w = _
  rw [Act.bind_of_some h]
  rfl

theorem run_bind_of_error {e : NativeError} (h : native.run w = some (.error e, w')) :
    (native >>= next).run w = some (.error e, w') := by
  show (native.run >>= _) w = _
  rw [Act.bind_of_some h]
  rfl

theorem run_lift {act : Act σ α} {a : α} (h : act w = some (a, w')) : (lift act).run w = some (.ok a, w') := by
  show (act >>= fun a => Pure.pure (Except.ok a)) w = _
  rw [Act.bind_of_some h]
  rfl

theorem run_pure (a : α) (w : World σ) : (pure a : NativeAct σ α).run w = some (.ok a, w) := rfl

/-- A status of the machine is handed on. -/
theorem run_machine {act : Act σ (Except Status α)} {r : Except Status α} (h : act w = some (r, w')) :
    (machine act).run w = some (r.mapError .status, w') := by
  show (act >>= _) w = _
  rw [Act.bind_of_some h]
  cases r <;> rfl

theorem run_pool (hs : w.subsystem? k = some s) : (pool k : NativeAct σ Pool).run w = some (.ok s.pool, w) := by
  have hget : Act.getSubsystem k w = some (s, w) := congrArg (Option.map _) hs
  refine run_lift ?_
  rw [Act.bind_of_some hget]
  rfl

/-- An operation on a pool is made, or it is refused. -/
theorem run_onPool_of_ok {f : Pool → Except PoolError (α × Pool)} {a : α} {q : Pool} (hs : w.subsystem? k = some s)
    (h : f s.pool = .ok (a, q)) : (onPool k f).run w = some (.ok a, w.setSubsystem k { s with pool := q }) := by
  have hpool : Act.onPool k (fun p => p.settle (f p)) w = some (.ok a, w.setSubsystem k { s with pool := q }) := by
    refine (congrArg (Option.map _) hs).trans ?_
    simp only [Option.map_some, h, Pool.settle]
  show (Act.onPool k (fun p => p.settle (f p)) >>= _) w = _
  rw [Act.bind_of_some hpool]
  rfl

theorem run_onPool_of_error {f : Pool → Except PoolError (α × Pool)} {e : PoolError} (hs : w.subsystem? k = some s)
    (h : f s.pool = .error e) : ∃ w', (onPool k f).run w = some (.error (.pool e), w') := by
  have hpool : Act.onPool k (fun p => p.settle (f p)) w =
      some (.error e, w.setSubsystem k { s with pool := s.pool }) := by
    refine (congrArg (Option.map _) hs).trans ?_
    simp only [Option.map_some, h, Pool.settle]
  refine ⟨w.setSubsystem k { s with pool := s.pool }, ?_⟩
  show (Act.onPool k (fun p => p.settle (f p)) >>= _) w = _
  rw [Act.bind_of_some hpool]
  rfl

/-- A call with enough arguments is not refused. -/
theorem run_require {params : List Cell} {expected : Nat} (h : expected ≤ params.length) (next : NativeAct σ α) :
    (do require params expected; next : NativeAct σ α).run w = next.run w := by
  have hrequire : (require params expected : NativeAct σ Unit).run w = some (.ok (), w) := by
    rw [require, if_neg (Nat.not_lt.2 h)]
    rfl
  exact run_bind_of_ok hrequire

theorem run_size {c : Cell} {count : Nat} (h : c.toNat? = some count) (what : String) (w : World σ) :
    (size what c).run w = some (.ok count, w) := by
  unfold size
  rw [h]
  rfl

theorem run_size_negative {c : Cell} (h : c.toNat? = none) (what : String) (w : World σ) :
    (size what c).run w = some (.error (.outOfRange what c), w) := by
  unfold size
  rw [h]
  rfl

end NativeAct

namespace Act

variable {name : String} {native : NativeAct σ Cell}

theorem settleNative_ok {c : Cell} (h : native.run w = some (.ok c, w')) :
    settleNative name i native w = some (.ok c, w') := by
  unfold settleNative
  rw [bind_of_some h]
  rfl

/-- A status is handed on as it is. -/
theorem settleNative_status {status : Status} (h : native.run w = some (.error (.status status), w')) :
    settleNative name i native w = some (.error status, w') := by
  unfold settleNative
  rw [bind_of_some h]
  rfl

/-- A native that fails answers no cell. -/
theorem settleNative_ne_ok {e : NativeError} (h : native.run w = some (.error e, w')) (c : Cell) (v : World σ) :
    settleNative name i native w ≠ some (.ok c, v) := by
  have hreported : ∀ event,
      (do notify event; let status ← raise i .native; pure (.error status) : Act σ (Except Status Cell)) w' ≠
        some (.ok c, v) := by
    intro event hok
    obtain ⟨⟨status, w₁⟩, -, hok⟩ := Option.bind_eq_some_iff.1 hok
    cases hok
  unfold settleNative
  rw [bind_of_some h]
  cases e with
  | status status => exact nofun
  | _ => exact hreported _

end Act

end Interpose

import Interpose.Proofs.CallbackRouting

/-!
# What an index stands for

Functions, the main function, the continuation and the callbacks of the host share one cell. A callback is folded in by
subtracting its number, downwards to the least cell, and unfolded by subtracting again. Here stands that every cell is the
index of one thing, that everything whose number is not too large has one cell, and that nothing on the way is beyond a
cell. So the number with which a hook layer answers for a name is the number of the handler that is asked when the answer
is executed.

Main statement: `ExecIndex.one_each`.
-/

namespace Interpose

namespace ExecIndex

variable {x y : ExecIndex} {raw : Cell} {id position : Nat}

/-- From where on callbacks are folded in. -/
def callbackBase : Cell := ⟨-3, by decide, by decide⟩

/-- The last position that has an index. -/
def lastPosition : Nat := 2147483647

/-- The last number of a callback that has an index. -/
def lastCallback : Nat := 2147483645

theorem val_of_decode_function (h : decode raw = .function position) : raw.val = position := by
  unfold decode at h
  split at h
  · cases h
    omega
  split at h
  · cases h
  split at h <;> cases h

/-- The number of a callback is a difference of cells that is a cell. -/
theorem sub?_of_decode_synthetic (h : decode raw = .synthetic id) :
    ∃ unfolded, callbackBase.sub? raw = some unfolded ∧ unfolded.val = id := by
  have hlower := raw.lower
  have hbase : callbackBase.val = -3 := rfl
  unfold decode at h
  split at h
  · cases h
  split at h
  · cases h
  split at h
  · cases h
  · cases h
    exact ⟨⟨-3 - raw.val, by omega, by omega⟩, Cell.ofInt?_eq_some.2 rfl, by dsimp only; omega⟩

/-- What has no index has too large a number. -/
theorem encode_eq_none : x.encode = none ↔
    (∃ position, x = .function position ∧ lastPosition < position) ∨ ∃ id, x = .synthetic id ∧ lastCallback < id := by
  cases x with
  | main => simp [encode]
  | resume => simp [encode]
  | function position =>
    simp only [encode, Cell.ofInt?_eq_none, lastPosition, function.injEq, exists_eq_left', reduceCtorEq, false_and,
      exists_false, or_false]
    omega
  | synthetic id =>
    simp only [encode, Cell.ofInt?_eq_none, lastCallback, synthetic.injEq, exists_eq_left', reduceCtorEq, false_and,
      exists_false, false_or]
    omega

/-- What is known of indices and what they stand for. -/
structure Law : Prop where
  /-- Every cell stands for something, and is its index. -/
  decoded : ∀ raw, (decode raw).encode = some raw
  position : ∀ {raw position}, decode raw = .function position → raw.val = position
  callback : ∀ {raw id}, decode raw = .synthetic id →
    ∃ unfolded, callbackBase.sub? raw = some unfolded ∧ unfolded.val = id
  /-- What has an index is what it stands for; and nothing but too large a number is without one. -/
  encoded : ∀ {x : ExecIndex} {raw}, x.encode = some raw → decode raw = x
  without : ∀ {x : ExecIndex}, x.encode = none ↔
    (∃ position, x = .function position ∧ lastPosition < position) ∨ ∃ id, x = .synthetic id ∧ lastCallback < id
  /-- No two have one index. -/
  apart : ∀ {x y : ExecIndex} {raw}, x.encode = some raw → y.encode = some raw → x = y
  /-- When the event source of a layer names a callback for a name that is looked up, the number is refused if it is too
  large. Otherwise the answer is an index with which every layer, at any time and for any instance, has the handler asked
  that has this number. -/
  recognized : ∀ {σ : Type} {host : Host σ} {k i name beyond id} {w w' : World σ},
    w.entry .lookup = .detour k beyond → Act.callbackId host.callbackIds k i name w = some (some id, w') →
    ∀ n, (lastCallback < id ∧ Act.lookupWithin host.callbackIds i name (n + 1) w = some (.error .index, w')) ∨
      id ≤ lastCallback ∧ ∃ index, Act.lookupWithin host.callbackIds i name (n + 1) w = some (.ok index, w') ∧
        ∀ calls l j slot, Machine.intercepted host calls l j slot index =
          Machine.holding l (Machine.invoke host calls l j id slot >>= Machine.forwarded host calls l j slot)

/-- **Indices.** Every cell is the index of one thing, and everything that has an index has one. -/
theorem one_each : Law where
  decoded := encode_decode
  position := val_of_decode_function
  callback := sub?_of_decode_synthetic
  encoded := decode_encode
  without := encode_eq_none
  apart hx hy := by rw [← decode_encode hx, ← decode_encode hy]
  recognized {_ host _ _ _ _ id _ _} hentry hask n := by
    rw [Act.lookupWithin_of_some hentry hask]
    by_cases hid : id ≤ lastCallback
    · obtain ⟨index, hindex, hdecode⟩ := callbackIndex_of_le hid
      rw [hindex]
      exact .inr ⟨hid, index, rfl, fun calls l j slot => Machine.intercepted_synthetic hdecode slot⟩
    · rw [callbackIndex_of_lt (Nat.lt_of_not_le hid)]
      exact .inl ⟨Nat.lt_of_not_le hid, rfl⟩

/-- The last callback has the least cell. -/
example : (synthetic lastCallback).encode = some ⟨-2147483648, by decide, by decide⟩ := by decide

end ExecIndex

end Interpose

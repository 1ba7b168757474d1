import Mathlib.Logic.Function.Iterate
import Mathlib.Data.List.Nodup
import Mathlib.Data.List.Perm.Subperm
import Interpose.Proofs.TaskEntries

/-!
# Numbers for tasks

The search for the number of a new task goes through all numbers before it comes round (`iterate_next_injective`). So it
looks at one number more than there are tasks without looking at one twice, and finds one that is not taken, unless there
are as many tasks as numbers.

Main statement: `create?_isSome`.
-/

namespace Interpose

namespace Tasks

variable {t : Tasks} {task : TaskId} {c : Cell} {i j bound : Nat}

/-- How many numbers there are for tasks. -/
def mostTasks : Nat := 2147483647

theorem val_next (c : Cell) : (next c).val = if c.val = 2147483647 then 1 else c.val + 1 := by
  have hupper := c.upper
  have hlower := c.lower
  unfold next
  split
  · rename_i hlast
    have hnone : c.add? 1 = none := Cell.ofInt?_eq_none.2 (.inr (by rw [hlast]; decide))
    rw [hnone]
    rfl
  · have hsum : -2147483648 ≤ c.val + 1 ∧ c.val + 1 ≤ 2147483647 := by omega
    have hsome : c.add? 1 = some ⟨c.val + 1, hsum.1, hsum.2⟩ := Cell.ofInt?_eq_some.2 rfl
    rw [hsome]
    rfl

/-- Where the search is after some steps, before it can have come round twice. -/
theorem val_iterate_next (c : Cell) (h : j ≤ mostTasks) :
    (next^[j] c).val = if c.val + j ≤ 2147483647 then c.val + j else c.val + j - 2147483647 := by
  have hupper := c.upper
  induction j with
  | zero => simp [hupper]
  | succ j ih =>
    rw [Function.iterate_succ_apply', val_next, ih (by omega)]
    unfold mostTasks at h
    split <;> split <;> split <;> omega

theorem iterate_next_injective (hi : i < mostTasks) (hj : j < mostTasks) (h : next^[i] c = next^[j] c) : i = j := by
  have hval := congrArg Cell.val h
  rw [val_iterate_next c (by omega), val_iterate_next c (by omega)] at hval
  unfold mostTasks at hi hj
  split at hval <;> split at hval <;> omega

theorem contains_of_vacant?_eq_none (h : t.vacant? bound c = none) (hj : j < bound) :
    t.contains ⟨next^[j] c⟩ = true := by
  induction bound generalizing c j with
  | zero => omega
  | succ bound ih =>
    unfold vacant? at h
    split at h
    · rename_i htaken
      cases j with
      | zero => exact htaken
      | succ j =>
        show t.contains ⟨next^[j] (next c)⟩ = true
        exact ih h (by omega)
    · cases h

/-- As many numbers as were found taken are taken. -/
theorem le_size_of_vacant?_eq_none (h : t.vacant? bound c = none) (hbound : bound ≤ mostTasks) : bound ≤ t.size := by
  have hnodup : ((List.range bound).map fun j => (⟨next^[j] c⟩ : TaskId)).Nodup := by
    refine List.Nodup.map_on (fun i hi j hj heq => ?_) List.nodup_range
    rw [List.mem_range] at hi hj
    exact iterate_next_injective (by omega) (by omega) (congrArg TaskId.raw heq)
  have htaken : ((List.range bound).map fun j => (⟨next^[j] c⟩ : TaskId)) ⊆ t.tasks.keys := by
    intro task htask
    obtain ⟨j, hj, rfl⟩ := List.mem_map.1 htask
    exact (t.tasks.contains_iff _).1 (contains_of_vacant?_eq_none h (List.mem_range.1 hj))
  have hlength := (hnodup.subperm htaken).length_le
  simpa [Keyed.keys, size, Keyed.size] using hlength

/-- Unless every number is taken, a task can be made. -/
theorem create?_isSome (h : t.size < mostTasks) : t.create?.isSome := by
  unfold create?
  rw [Option.isSome_map, Option.isSome_iff_ne_none]
  intro hnone
  have hle := le_size_of_vacant?_eq_none hnone (by omega)
  omega

/-! ## How many tasks there are -/

theorem length_others_le {κ α : Type} [DecidableEq κ] (k : κ) (entries : List (κ × α)) :
    (Keyed.others k entries).length ≤ entries.length :=
  List.length_filter_le ..

/-- Another entry for a task that is there. -/
theorem size_put {entry other : Task} (h : t.entry? task = some entry) : (t.put task other).size ≤ t.size := by
  have hkey : task ∈ t.tasks.keys := by
    rw [← Keyed.contains_iff]
    show (t.entry? task).isSome = true
    rw [h]
    rfl
  obtain ⟨e, he, rfl⟩ := List.mem_map.1 hkey
  have hless : (Keyed.others e.1 t.tasks.entries).length < t.tasks.entries.length :=
    List.length_filter_lt_length_iff_exists.2 ⟨e, he, by simp⟩
  exact hless

theorem size_remove (t : Tasks) (task : TaskId) : (t.remove task).2.size ≤ t.size :=
  length_others_le task t.tasks.entries

theorem size_create {t' : Tasks} (h : t.create? = some (task, t')) : t'.size ≤ t.size + 1 := by
  obtain ⟨c, -, e⟩ := Option.map_eq_some_iff.1 h
  cases e
  exact Nat.succ_le_succ (length_others_le _ t.tasks.entries)

end Tasks

end Interpose

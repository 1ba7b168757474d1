import Mathlib.Data.List.Iterate
import Interpose.Proofs.Waiting

/-!
# Numbers in turn

The number of a new task is looked for from the number that was given out last, and on the way the numbers are passed that
tasks have. Whatever is done with tasks, the numbers that are passed are those that come in turn, without a gap; a task that
is dropped leaves its number behind, and nothing goes back to it. So a number is given out again only when all numbers have
been passed since, and until then whoever still has it means no other task.

`Searches` is the search as it goes, with no bound on how long. That it ends, and where, is what the bounded search answers.

Main statement: `numbers_in_turn`.
-/

namespace Interpose

open World

namespace Tasks

variable {σ : Type} {resume : Resume σ} {w w' v : World σ} {t t' : Tasks} {task : TaskId} {c found : Cell} {bound : Nat}
  {numbers : List Cell} {u : Use} {uses later : List Use} {effects more : List Effect}

/-! ## The search for a number -/

/-- How a number is looked for from `c` on: numbers that tasks have are passed, and the first that no task has is the end.
The numbers that are passed are listed, with that one as the last. -/
inductive Searches (t : Tasks) : Cell → List Cell → Prop
  | ends {c : Cell} (vacant : t.contains ⟨c⟩ = false) : Searches t c [c]
  | passes {c : Cell} {numbers : List Cell} (taken : t.contains ⟨c⟩ = true) (rest : Searches t (next c) numbers) :
      Searches t c (c :: numbers)

/-- The numbers that are passed when one that no task has is looked for among the first `bound`. -/
def searched (t : Tasks) : (bound : Nat) → Cell → List Cell
  | 0, _ => []
  | bound + 1, c => c :: if t.contains ⟨c⟩ then t.searched bound (next c) else []

/-- The numbers that are passed when a task is made. -/
def passed (t : Tasks) : List Cell :=
  t.searched (t.size + 1) (next t.last)

theorem searches_of_vacant? (h : t.vacant? bound c = some found) :
    Searches t c (t.searched bound c) ∧ (t.searched bound c).getLast? = some found := by
  induction bound generalizing c with
  | zero => cases h
  | succ bound ih =>
    unfold vacant? at h
    unfold searched
    split at h
    · rename_i htaken
      obtain ⟨hrest, hlast⟩ := ih h
      rw [if_pos htaken]
      refine ⟨.passes htaken hrest, ?_⟩
      rw [List.getLast?_cons, hlast]
      rfl
    · rename_i hvacant
      cases h
      rw [if_neg hvacant]
      exact ⟨.ends (Bool.eq_false_of_not_eq_true hvacant), rfl⟩

/-- Numbers are passed in turn. -/
theorem Searches.inTurn (h : Searches t c numbers) :
    ∃ j, numbers = List.iterate next c (j + 1) ∧ numbers.getLast? = some (next^[j] c) := by
  induction h with
  | ends => exact ⟨0, rfl, rfl⟩
  | passes _ _ ih =>
    obtain ⟨j, hnumbers, hlast⟩ := ih
    refine ⟨j + 1, congrArg (List.cons _) hnumbers, ?_⟩
    rw [List.getLast?_cons, hlast]
    rfl

/-- The number of a new task is where the search for it ends, and the next search begins behind it. -/
theorem create?_searches (h : t.create? = some (task, t')) :
    Searches t (next t.last) t.passed ∧ t.passed.getLast? = some task.raw ∧ t'.last = task.raw := by
  obtain ⟨c, hc, e⟩ := Option.map_eq_some_iff.1 h
  cases e
  obtain ⟨hsearches, hlast⟩ := searches_of_vacant? hc
  exact ⟨hsearches, hlast, rfl⟩

/-- What a use passes, if it passes anything, are the numbers in turn from the one that was given out last; and the one that
was given out last is the last of them then. -/
structure Turns (numbers : List Cell) (c c' : Cell) : Prop where
  inTurn : numbers = List.iterate next (next c) numbers.length
  last : c' = next^[numbers.length] c

theorem Turns.none (c : Cell) : Turns [] c c :=
  ⟨rfl, rfl⟩

theorem Turns.append {c c' c'' : Cell} {further : List Cell} (h : Turns numbers c c') (h' : Turns further c' c'') :
    Turns (numbers ++ further) c c'' := by
  refine ⟨?_, ?_⟩
  · -- the further numbers begin where the others end
    have hnext : next c' = next^[numbers.length] (next c) := by
      rw [h.last, ← Function.iterate_succ_apply' next, Function.iterate_succ_apply]
    rw [List.length_append, List.iterate_add, ← hnext, ← h.inTurn, ← h'.inTurn]
  · rw [List.length_append, Nat.add_comm, Function.iterate_add_apply, ← h.last, h'.last]

theorem turns_of_create? (h : t.create? = some (task, t')) : Turns t.passed t.last t'.last := by
  obtain ⟨hsearches, hlast, hgiven⟩ := create?_searches h
  obtain ⟨j, hnumbers, hend⟩ := hsearches.inTurn
  have hlength : t.passed.length = j + 1 := by rw [hnumbers, List.length_iterate]
  refine ⟨by rw [hlength]; exact hnumbers, ?_⟩
  rw [hgiven, hlength, Function.iterate_succ_apply]
  exact Option.some.inj (hlast.symm.trans hend)

/-! ## Any uses in a row -/

/-- The numbers that a use passes. -/
def Use.passes (t : Tasks) : Use → List Cell
  | create => t.passed
  | _ => []

/-- The numbers that uses in a row pass. -/
def passedBy (resume : Resume σ) : List Use → World σ → List Cell
  | [], _ => []
  | u :: rest, w => u.passes w.tasks ++
    match u.perform resume w with
    | some (_, v) => passedBy resume rest v
    | none => []

/-- The task that an effect makes. -/
def Effect.made? : Effect → Option TaskId
  | made task => some task
  | _ => none

theorem passedBy_cons {reply : u.Reply} (h : u.perform resume w = some (reply, v)) (later : List Use) :
    passedBy resume (u :: later) w = u.passes w.tasks ++ passedBy resume later v := by
  rw [passedBy, h]

/-- What a use does besides passing numbers leaves the number alone that was given out last. -/
theorem Use.turns {reply : u.Reply} (h : u.perform resume w = some (reply, w')) :
    Turns (u.passes w.tasks) w.tasks.last w'.tasks.last := by
  cases u with
  | create =>
    obtain ⟨⟨made, tasks⟩, hcreated, e⟩ := Option.map_eq_some_iff.1 h
    cases e
    exact turns_of_create? hcreated
  | register task token =>
    have h : Act.registerWaiter task token w = some (reply, w') := h
    cases hrefusal : w.tasks.refusal? task with
    | some e =>
      rw [Act.registerWaiter_refused hrefusal] at h
      cases h
      exact .none _
    | none =>
      -- the entry of the task is exchanged, and the table is otherwise as before
      obtain ⟨entry, hentry, hpending⟩ := refusal?_eq_none.1 hrefusal
      rw [Act.registerWaiter_pending hentry hpending] at h
      cases h
      exact .none _
  | complete task value =>
    have h : Act.completeTask resume task value w = some (reply, w') := h
    cases hrefusal : w.tasks.refusal? task with
    | some e =>
      rw [Act.completeTask_refused hrefusal] at h
      cases h
      exact .none _
    | none =>
      obtain ⟨entry, hentry, hpending⟩ := refusal?_eq_none.1 hrefusal
      rw [Act.completeTask_pending hentry hpending] at h
      cases h
      exact .none _
  | remove task =>
    have h : Act.removeTask task w = some (reply, w') := h
    cases hentry : w.tasks.entry? task with
    | some entry =>
      rw [Act.removeTask_there hentry] at h
      cases h
      exact .none _
    | none =>
      rw [Act.removeTask_absent hentry] at h
      cases h
      exact .none _

/-- The first of some uses, and the rest of them. -/
theorem cons_of_useAll (h : useAll resume (u :: later) w = some (effects, w')) :
    ∃ reply v more, u.perform resume w = some (reply, v) ∧ useAll resume later v = some (more, w') ∧
      effects = (u.effect? reply).toList ++ more := by
  obtain ⟨⟨reply, v⟩, hv, h⟩ := Option.bind_eq_some_iff.1 h
  obtain ⟨⟨more, v'⟩, hmore, e⟩ := Option.bind_eq_some_iff.1 h
  cases e
  exact ⟨reply, v, more, hv, hmore, rfl⟩

theorem useAll_append (h : useAll resume uses w = some (effects, v)) (h' : useAll resume later v = some (more, w')) :
    useAll resume (uses ++ later) w = some (effects ++ more, w') ∧
      passedBy resume (uses ++ later) w = passedBy resume uses w ++ passedBy resume later v := by
  induction uses generalizing w effects with
  | nil =>
    cases h
    exact ⟨h', rfl⟩
  | cons u rest ih =>
    obtain ⟨reply, v₁, effects₁, hu, hrest, rfl⟩ := cons_of_useAll h
    obtain ⟨hall, hpassed⟩ := ih hrest
    refine ⟨?_, ?_⟩
    · rw [List.cons_append, useAll, Act.bind_of_some hu, Act.bind_of_some hall, List.append_assoc]
      rfl
    · rw [List.cons_append, passedBy_cons hu, passedBy_cons hu, hpassed, List.append_assoc]

/-- The run lemma: whatever is done with tasks, numbers are passed in turn. -/
theorem turns_of_useAll (h : useAll resume uses w = some (effects, w')) :
    Turns (passedBy resume uses w) w.tasks.last w'.tasks.last := by
  induction uses generalizing w effects with
  | nil =>
    cases h
    exact .none _
  | cons u rest ih =>
    obtain ⟨reply, v, more, hu, hrest, -⟩ := cons_of_useAll h
    rw [passedBy_cons hu]
    exact (Use.turns hu).append (ih hrest)

/-- The numbers of the tasks that were made are, in this order, among those that were passed. -/
theorem sublist_passedBy (h : useAll resume uses w = some (effects, w')) :
    ((effects.filterMap Effect.made?).map TaskId.raw).Sublist (passedBy resume uses w) := by
  induction uses generalizing w effects with
  | nil =>
    cases h
    exact .slnil
  | cons u rest ih =>
    obtain ⟨reply, v, more, hu, hrest, rfl⟩ := cons_of_useAll h
    rw [passedBy_cons hu, List.filterMap_append, List.map_append]
    refine .append ?_ (ih hrest)
    cases u with
    | create =>
      obtain ⟨⟨made, tasks⟩, hcreated, e⟩ := Option.map_eq_some_iff.1 hu
      cases e
      exact List.singleton_sublist.2 (List.mem_of_getLast? (create?_searches hcreated).2.1)
    | register => cases reply <;> exact .slnil
    | complete => cases reply <;> exact .slnil
    | remove => cases reply <;> exact .slnil

theorem mem_passedBy_of_made (h : useAll resume uses w = some (effects, w')) (hmade : .made task ∈ effects) :
    task.raw ∈ passedBy resume uses w :=
  (sublist_passedBy h).subset (List.mem_map_of_mem (List.mem_filterMap.2 ⟨_, hmade, rfl⟩))

theorem exists_made (h : useAll resume uses w = some (effects, w')) (hcreate : .create ∈ uses) :
    ∃ task, .made task ∈ effects := by
  induction uses generalizing w effects with
  | nil => cases hcreate
  | cons u rest ih =>
    obtain ⟨reply, v, more, hu, hrest, rfl⟩ := cons_of_useAll h
    rcases List.mem_cons.1 hcreate with rfl | hlater
    · exact ⟨reply, List.mem_append_left _ (List.mem_singleton_self _)⟩
    · obtain ⟨task, hmade⟩ := ih hrest hlater
      exact ⟨task, List.mem_append_right _ hmade⟩

/-- A task that is not there, and is not made, is not there afterwards. -/
theorem entry?_eq_none_of_useAll (h : useAll resume uses w = some (effects, w')) (hnone : w.tasks.entry? task = none)
    (hmade : .made task ∉ effects) : w'.tasks.entry? task = none := by
  induction uses generalizing w effects with
  | nil =>
    cases h
    exact hnone
  | cons u rest ih =>
    obtain ⟨reply, v, more, hu, hrest, rfl⟩ := cons_of_useAll h
    refine ih hrest ?_ fun hm => hmade (List.mem_append_right _ hm)
    have hused := Act.used_perform hu
    cases heffect : u.effect? reply with
    | none =>
      rw [heffect] at hused
      rw [hused.entries, hnone]
    | some e =>
      rw [heffect] at hused
      rw [hused.leads.entries]
      split
      · rename_i htask
        subst htask
        -- nothing but being made can happen to a task that is not there
        have hallowed := hused.leads.allowed
        rw [hnone] at hallowed ⊢
        cases e with
        | made => exact absurd (List.mem_append_left _ (heffect ▸ List.mem_singleton_self _)) hmade
        | joined => rfl
        | completed =>
          obtain ⟨x, hx, -⟩ := hallowed
          cases hx
        | dropped => rfl
      · exact hnone

/-! ## When a number comes again -/

/-- Whatever number was given out last, those that come are positive. -/
theorem one_le_next (h : 0 ≤ c.val) : 1 ≤ (next c).val := by
  rw [val_next]
  split <;> omega

theorem nonneg_iterate_next (h : 0 ≤ c.val) (n : Nat) : 0 ≤ (next^[n] c).val := by
  induction n with
  | zero => exact h
  | succ n ih =>
    rw [Function.iterate_succ_apply']
    exact Int.le_trans (by decide) (one_le_next ih)

theorem Turns.positive {c c' : Cell} (h : Turns numbers c c') (hc : 0 ≤ c.val) (hsome : numbers ≠ []) : 1 ≤ c'.val := by
  obtain ⟨n, hlength⟩ := Nat.exists_eq_add_one_of_ne_zero (mt List.length_eq_zero_iff.1 hsome)
  rw [h.last, hlength, Function.iterate_succ_apply']
  exact one_le_next (nonneg_iterate_next hc n)

/-- Every number comes before the numbers have come round. -/
theorem exists_iterate_next (hc : 1 ≤ c.val) {n : Cell} (hn : 1 ≤ n.val) : ∃ m, m < mostTasks ∧ next^[m] c = n := by
  have hupper := c.upper
  have hnupper := n.upper
  by_cases hle : c.val ≤ n.val
  · refine ⟨(n.val - c.val).toNat, by unfold mostTasks; omega, Cell.ext ?_⟩
    rw [val_iterate_next c (by unfold mostTasks; omega), if_pos (by omega)]
    omega
  · refine ⟨(n.val - c.val + 2147483647).toNat, by unfold mostTasks; omega, Cell.ext ?_⟩
    rw [val_iterate_next c (by unfold mostTasks; omega), if_neg (by omega)]
    omega

/-- Numbers that are passed from `c` on and come to `c` again are all numbers there are. -/
theorem Turns.all {c c' : Cell} (h : Turns numbers c c') (hc : 1 ≤ c.val) (hagain : c ∈ numbers) {n : Cell}
    (hn : 1 ≤ n.val) : n ∈ numbers := by
  rw [h.inTurn, List.mem_iterate] at hagain ⊢
  obtain ⟨j, hj, hback⟩ := hagain
  -- it takes a whole round to come to the same number
  have hround : mostTasks ≤ j + 1 := by
    by_contra hless
    have hsame : next^[0] c = next^[j + 1] c := hback
    exact absurd (iterate_next_injective (by omega) (by omega) hsame) (by omega)
  obtain ⟨m, hm, hnumber⟩ := exists_iterate_next (one_le_next (c := c) (by omega)) hn
  exact ⟨m, by omega, hnumber.symm⟩

/-- As long as the numbers have not come round, they ascend. -/
theorem Turns.ascending {c c' : Cell} (h : Turns numbers c c') (hround : c.val + numbers.length ≤ 2147483647)
    (hc : 0 ≤ c.val) : numbers.Pairwise fun m n => m.val < n.val := by
  have hval : ∀ j (hj : j < numbers.length), numbers[j].val = c.val + (j + 1) := by
    intro j hj
    have hentry := List.getElem?_iterate next (next c) numbers.length j hj
    rw [← h.inTurn, List.getElem?_eq_getElem hj] at hentry
    have hplace : numbers[j] = next^[j + 1] c := Option.some.inj hentry
    rw [hplace, val_iterate_next c (by unfold mostTasks; omega), if_pos (by omega)]
    rfl
  refine List.pairwise_iff_getElem.2 fun i j hi hj hij => ?_
  rw [hval i hi, hval j hj]
  omega

/-! ## All of it -/

/-- What is known of the numbers of tasks after uses that began with no tasks. -/
structure Numbered (resume : Resume σ) (w₀ : World σ) (uses : List Use) (effects : List Effect) (w : World σ) : Prop where
  /-- The numbers that were passed are those from 1 on in turn. -/
  inTurn : passedBy resume uses w₀ = List.iterate next 1 (passedBy resume uses w₀).length
  /-- Once a task was made, the number that was given out last is positive. -/
  positive : .create ∈ uses → 1 ≤ w.tasks.last.val
  /-- Unless every number is taken, the search for one ends, and a task is made. Its number is positive and is where the
  search ended, no task had it, and nothing else is changed. -/
  makes : w.tasks.size < mostTasks → ∃ task w', Act.createTask w = some (task, w') ∧
    Searches w.tasks (next w.tasks.last) w.tasks.passed ∧ w.tasks.passed.getLast? = some task.raw ∧
    1 ≤ task.raw.val ∧ w.tasks.entry? task = none ∧ w' = { w with tasks := w'.tasks } ∧
    ∀ other, w'.tasks.entry? other = if other = task then some .fresh else w.tasks.entry? other
  /-- As long as the numbers have not come round, each task has a greater number than all that were made before. -/
  ascending : (passedBy resume uses w₀).length ≤ mostTasks →
    (effects.filterMap Effect.made?).Pairwise fun task other => task.raw.val < other.raw.val
  /-- If the number of a task is given out again, every number has been passed since the task was made. -/
  again : ∀ {task w₁ later more w₂}, Act.createTask w = some (task, w₁) →
    useAll resume later w₁ = some (more, w₂) → .made task ∈ more →
    ∀ n : Cell, 1 ≤ n.val → n ∈ passedBy resume later w₁
  /-- Until every number has been passed, the number of a task that is gone means no task. -/
  stale : ∀ {task w₁ later more w₂ latest last w₃}, Act.createTask w = some (task, w₁) →
    useAll resume later w₁ = some (more, w₂) → w₂.tasks.entry? task = none →
    useAll resume latest w₂ = some (last, w₃) →
    (∃ n : Cell, 1 ≤ n.val ∧ n ∉ passedBy resume (later ++ latest) w₁) → w₃.tasks.entry? task = none

/-- A task that is made has the number that is given out last then, and it is positive. -/
theorem last_of_createTask (h : Act.createTask w = some (task, w')) :
    Searches w.tasks (next w.tasks.last) w.tasks.passed ∧ w.tasks.passed.getLast? = some task.raw ∧
      w'.tasks.last = task.raw ∧ (0 ≤ w.tasks.last.val → 1 ≤ task.raw.val) := by
  obtain ⟨⟨made, tasks⟩, hcreated, e⟩ := Option.map_eq_some_iff.1 h
  cases e
  obtain ⟨hsearches, hlast, hgiven⟩ := create?_searches hcreated
  refine ⟨hsearches, hlast, hgiven, fun hnonneg => ?_⟩
  rw [← hgiven]
  refine (turns_of_create? hcreated).positive hnonneg fun hnil => ?_
  rw [hnil] at hlast
  cases hlast

/-- The number of a task is given out again only when all have been passed. -/
theorem all_of_made {w₁ w₂ : World σ} (hnonneg : 0 ≤ w.tasks.last.val) (hmade : Act.createTask w = some (task, w₁))
    (h : useAll resume later w₁ = some (more, w₂)) (hagain : .made task ∈ more) {n : Cell} (hn : 1 ≤ n.val) :
    n ∈ passedBy resume later w₁ := by
  obtain ⟨-, -, hlast, hpositive⟩ := last_of_createTask hmade
  have hturns := turns_of_useAll h
  rw [hlast] at hturns
  exact hturns.all (hpositive hnonneg) (mem_passedBy_of_made h hagain) hn

/-- **Numbers of tasks.** Whatever is done with tasks, the law of their numbers holds. -/
theorem numbers_in_turn {w₀ : World σ} (h₀ : w₀.tasks = .empty) (h : useAll resume uses w₀ = some (effects, w)) :
    Numbered resume w₀ uses effects w := by
  have hturns := turns_of_useAll h
  rw [show w₀.tasks.last = 0 by rw [h₀]; rfl] at hturns
  have hnonneg : 0 ≤ w.tasks.last.val := by
    rw [hturns.last]
    exact nonneg_iterate_next (Int.le_refl 0) _
  refine
    { inTurn := hturns.inTurn
      positive := fun hcreate => ?_
      makes := fun hroom => ?_
      ascending := fun hround => ?_
      again := fun hmade hlater hagain n hn => all_of_made hnonneg hmade hlater hagain hn
      stale := ?_ }
  · obtain ⟨task, hmade⟩ := exists_made h hcreate
    exact hturns.positive (Int.le_refl 0) (List.ne_nil_of_mem (mem_passedBy_of_made h hmade))
  · obtain ⟨⟨task, tasks⟩, hcreated⟩ := Option.isSome_iff_exists.1 (create?_isSome hroom)
    have hmade : Act.createTask w = some (task, { w with tasks }) := congrArg (Option.map _) hcreated
    obtain ⟨hsearches, hlast, -, hpositive⟩ := last_of_createTask hmade
    obtain ⟨hvacant, hsame, hentries⟩ := Act.createTask_spec hmade
    exact ⟨task, _, hmade, hsearches, hlast, hpositive hnonneg, hvacant, hsame, hentries⟩
  · have hround : (0 : Cell).val + (passedBy resume uses w₀).length ≤ 2147483647 := by
      rw [Cell.val_zero]
      unfold mostTasks at hround
      omega
    have hascending := (hturns.ascending hround (Int.le_refl 0)).sublist (sublist_passedBy h)
    rw [List.pairwise_map] at hascending
    exact hascending
  · rintro task w₁ later more w₂ latest last w₃ hmade hlater hgone hlatest ⟨n, hn, hleft⟩
    refine entry?_eq_none_of_useAll hlatest hgone fun hagain => hleft ?_
    exact all_of_made hnonneg hmade (useAll_append hlater hlatest).1 (List.mem_append_right _ hagain) hn

/-- Two tasks are made, the first is dropped, and its number is not the next that is given out. -/
theorem numbers_in_turn_dropping :
    ∃ effects w, useAll (fun _ _ state => state) [.create, .create, .remove ⟨1⟩, .create] (.initial .drop ()) =
        some (effects, w) ∧
      Numbered (fun _ _ state => state) (.initial .drop ()) [.create, .create, .remove ⟨1⟩, .create] effects w ∧
      effects.filterMap Effect.made? = [⟨1⟩, ⟨2⟩, ⟨⟨3, by decide, by decide⟩⟩] := by
  have hempty : (World.initial .drop ()).tasks = .empty := rfl
  refine ⟨_, _, rfl, numbers_in_turn hempty rfl, ?_⟩
  decide

end Tasks

end Interpose

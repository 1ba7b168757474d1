import Interpose.Proofs.Worlds
import Interpose.Native.Tasks

/-!
# Operations on tasks, one task at a time

What an operation does to a task, seen through the entry of the task. An operation that is refused leaves the whole world
as it was. One that is accepted changes one entry; only completing a task does more, which hands the result to those who
waited, one after another.

Main statements: `Act.registerWaiter_pending` and `Act.completeTask_pending`; `Act.registerWaiter_refused` and
`Act.completeTask_refused`.
-/

namespace Interpose

namespace Tasks

variable {t t' : Tasks} {task other : TaskId} {entry : Task}

/-- The task with a number. -/
def entry? (t : Tasks) (task : TaskId) : Option Task :=
  t.tasks.get? task

/-- The tasks with another entry for one of them. -/
def put (t : Tasks) (task : TaskId) (entry : Task) : Tasks :=
  { t with tasks := t.tasks.insert task entry }

theorem entry?_put (t : Tasks) (task : TaskId) (entry : Task) (other : TaskId) :
    entry? (t.put task entry) other = if other = task then some entry else t.entry? other :=
  t.tasks.get?_insert task other entry

theorem entry?_remove (t : Tasks) (task other : TaskId) :
    entry? (t.remove task).2 other = if other = task then none else t.entry? other :=
  t.tasks.get?_erase task other

theorem contains_eq (t : Tasks) (task : TaskId) : t.contains task = (t.entry? task).isSome := rfl

theorem entry?_of_vacant {bound : Nat} {c found : Cell} (h : t.vacant? bound c = some found) :
    t.entry? ⟨found⟩ = none := by
  induction bound generalizing c with
  | zero => cases h
  | succ bound ih =>
    unfold vacant? at h
    split at h
    · exact ih h
    · rename_i hvacant
      cases h
      rw [contains_eq, Bool.not_eq_true, Option.isSome_eq_false_iff, Option.isNone_iff_eq_none] at hvacant
      exact hvacant

/-- A new task gets a number that no task has. -/
theorem entry?_create (h : t.create? = some (task, t')) :
    t.entry? task = none ∧ ∀ other, t'.entry? other = if other = task then some .fresh else t.entry? other := by
  obtain ⟨c, hc, e⟩ := Option.map_eq_some_iff.1 h
  cases e
  exact ⟨entry?_of_vacant hc, fun other => t.tasks.get?_insert _ other _⟩

/-- Why registering for a task and completing it are refused, if they are. -/
def refusal? (t : Tasks) (task : TaskId) : Option TaskError :=
  match t.entry? task with
  | none => some (.invalidId task.raw)
  | some entry => entry.result.map fun _ => .completed task.raw

/-- They are accepted exactly if the task is there and has no result. -/
theorem refusal?_eq_none : t.refusal? task = none ↔ ∃ entry, t.entry? task = some entry ∧ entry.result = none := by
  unfold refusal?
  cases t.entry? task with
  | none => simp
  | some entry => simp

theorem refusal?_cases {e : TaskError} (h : t.refusal? task = some e) :
    (t.tasks.get? task = none ∧ e = .invalidId task.raw) ∨
      ∃ entry value, t.tasks.get? task = some entry ∧ entry.result = some value ∧ e = .completed task.raw := by
  unfold refusal? entry? at h
  cases hentry : t.tasks.get? task with
  | none =>
    rw [hentry] at h
    exact .inl ⟨rfl, (Option.some.inj h).symm⟩
  | some entry =>
    rw [hentry] at h
    obtain ⟨value, hvalue, he⟩ := Option.map_eq_some_iff.1 h
    exact .inr ⟨entry, value, rfl, hvalue, he.symm⟩

theorem register_refused {e : TaskError} (h : t.refusal? task = some e) (token : Token) :
    t.register task token = .error e := by
  obtain ⟨hentry, rfl⟩ | ⟨entry, value, hentry, hvalue, rfl⟩ := refusal?_cases h
  · simp only [register, hentry]
  · simp only [register, hentry, hvalue]

theorem complete_refused {e : TaskError} (h : t.refusal? task = some e) (value : Cell) :
    t.complete task value = .error e := by
  obtain ⟨hentry, rfl⟩ | ⟨entry, given, hentry, hgiven, rfl⟩ := refusal?_cases h
  · simp only [complete, hentry]
  · simp only [complete, hentry, hgiven]

theorem register_pending (h : t.entry? task = some entry) (hr : entry.result = none) (token : Token) :
    t.register task token = .ok (t.put task { entry with waiters := entry.waiters ++ [token] }) := by
  have hget : t.tasks.get? task = some entry := h
  simp only [register, hget, hr, put]

theorem complete_pending (h : t.entry? task = some entry) (hr : entry.result = none) (value : Cell) :
    t.complete task value = .ok (entry.waiters, t.put task { result := some value, waiters := [] }) := by
  have hget : t.tasks.get? task = some entry := h
  simp only [complete, hget, hr, put]

theorem result_eq (t : Tasks) (task : TaskId) :
    t.result task = ((t.entry? task).map Task.result).elim (.error (.invalidId task.raw)) .ok := by
  have hget : t.tasks.get? task = t.entry? task := rfl
  unfold result
  rw [hget]
  cases t.entry? task <;> rfl

end Tasks

/-! ## In a world -/

/-- What the journal tells when a result is handed to one who waited. -/
def Resumer.tells : Resumer → Token × Cell → Event
  | .drop, (token, _) => .notice (.waiterDropped token.owner)
  | .host, (token, value) => .resumed token value

/-- What becomes of the host's own state then. -/
def Resumer.continues {σ : Type} (resume : Resume σ) : Resumer → σ → Token × Cell → σ
  | .drop, state, _ => state
  | .host, state, (token, value) => resume token value state

namespace World

variable {σ : Type}

/-- The world after results have been handed to those who waited for them. -/
def handing (resume : Resume σ) (w : World σ) (handed : List (Token × Cell)) : World σ :=
  { w with
    journal := w.journal ++ handed.map w.resumer.tells
    host := handed.foldl (w.resumer.continues resume) w.host }

@[simp] theorem events_handing (resume : Resume σ) (w : World σ) (handed : List (Token × Cell)) :
    (w.handing resume handed).events = w.events ++ handed.map w.resumer.tells := by
  simp [handing, events]

end World

namespace Act

variable {σ : Type} {w w' : World σ} {task : TaskId} {entry : Task}

theorem resumeWaiter_eq (resume : Resume σ) (value : Cell) (token : Token) (w : World σ) :
    resumeWaiter resume value token w = some ((), w.handing resume [(token, value)]) := by
  have hget : (get : Act σ (World σ)) w = some (w, w) := rfl
  have hpush : ∀ e, w.journal.push e = w.journal ++ [e] := fun e => by simp
  unfold resumeWaiter
  rw [Act.bind_of_some hget]
  cases hresumer : w.resumer with
  | drop =>
    show some ((), w.record (.notice (.waiterDropped token.owner))) = _
    simp only [World.record, World.handing, hresumer, hpush]
    rfl
  | host =>
    show some ((), { w.record (.resumed token value) with host := resume token value w.host }) = _
    simp only [World.record, World.handing, hresumer, hpush]
    rfl

theorem resumeWaiters_eq (resume : Resume σ) (value : Cell) (waiters : List Token) (w : World σ) :
    resumeWaiters resume value waiters w = some ((), w.handing resume (waiters.map fun token => (token, value))) := by
  induction waiters generalizing w with
  | nil =>
    show some ((), w) = _
    simp [World.handing]
  | cons token rest ih =>
    unfold resumeWaiters
    rw [Act.bind_of_some (resumeWaiter_eq resume value token w), ih]
    simp [World.handing]

theorem registerWaiter_refused {e : TaskError} (h : w.tasks.refusal? task = some e) (token : Token) :
    registerWaiter task token w = some (.error e, w) := by
  have hget : (get : Act σ (World σ)) w = some (w, w) := rfl
  unfold registerWaiter
  rw [Act.bind_of_some hget, Tasks.register_refused h]
  rfl

theorem completeTask_refused {e : TaskError} (h : w.tasks.refusal? task = some e) (resume : Resume σ) (value : Cell) :
    completeTask resume task value w = some (.error e, w) := by
  have hget : (get : Act σ (World σ)) w = some (w, w) := rfl
  unfold completeTask
  rw [Act.bind_of_some hget, Tasks.complete_refused h]
  rfl

theorem registerWaiter_pending (h : w.tasks.entry? task = some entry) (hr : entry.result = none) (token : Token) :
    registerWaiter task token w =
      some (.ok (), { w with tasks := w.tasks.put task { entry with waiters := entry.waiters ++ [token] } }) := by
  have hget : (get : Act σ (World σ)) w = some (w, w) := rfl
  unfold registerWaiter
  rw [Act.bind_of_some hget, Tasks.register_pending h hr]
  rfl

theorem completeTask_pending (h : w.tasks.entry? task = some entry) (hr : entry.result = none) (resume : Resume σ)
    (value : Cell) :
    completeTask resume task value w = some (.ok entry.waiters.length,
      World.handing resume { w with tasks := w.tasks.put task { result := some value, waiters := [] } }
        (entry.waiters.map fun token => (token, value))) := by
  have hget : (get : Act σ (World σ)) w = some (w, w) := rfl
  unfold completeTask
  rw [Act.bind_of_some hget, Tasks.complete_pending h hr]
  -- the entry is changed before anybody is told
  let v : World σ := { w with tasks := w.tasks.put task { result := some value, waiters := [] } }
  have hput : (modify fun u => { u with tasks := v.tasks } : Act σ Unit) w = some ((), v) := rfl
  show ((modify fun u => { u with tasks := v.tasks }) >>= fun _ => resumeWaiters resume value entry.waiters >>= fun _ =>
    Pure.pure (.ok entry.waiters.length) : Act σ (Except TaskError Nat)) w = _
  rw [Act.bind_of_some hput, Act.bind_of_some (resumeWaiters_eq resume value entry.waiters v)]
  rfl

theorem removeTask_there (h : w.tasks.entry? task = some entry) :
    removeTask task w = some (true, World.record { w with tasks := (w.tasks.remove task).2 } (.taskRemoved task)) := by
  have hget : (get : Act σ (World σ)) w = some (w, w) := rfl
  have hthere : w.tasks.remove task = (true, (w.tasks.remove task).2) := by
    refine Prod.ext ?_ rfl
    show (w.tasks.entry? task).isSome = true
    rw [h]
    rfl
  unfold removeTask
  rw [Act.bind_of_some hget, hthere]
  rfl

theorem removeTask_absent (h : w.tasks.entry? task = none) :
    removeTask task w = some (false, { w with tasks := (w.tasks.remove task).2 }) := by
  have hget : (get : Act σ (World σ)) w = some (w, w) := rfl
  have hthere : w.tasks.remove task = (false, (w.tasks.remove task).2) := by
    refine Prod.ext ?_ rfl
    show (w.tasks.entry? task).isSome = false
    rw [h]
    rfl
  unfold removeTask
  rw [Act.bind_of_some hget, hthere]
  rfl

theorem createTask_spec (h : createTask w = some (task, w')) :
    w.tasks.entry? task = none ∧ w' = { w with tasks := w'.tasks } ∧
      ∀ other, w'.tasks.entry? other = if other = task then some .fresh else w.tasks.entry? other := by
  obtain ⟨⟨made, tasks⟩, htasks, e⟩ := Option.map_eq_some_iff.1 h
  cases e
  obtain ⟨hvacant, hentries⟩ := Tasks.entry?_create htasks
  exact ⟨hvacant, rfl, hentries⟩

end Act

/-- Asking for the result of a task changes nothing. -/
theorem NativeAct.taskResult_eq {σ : Type} (task : TaskId) (w : World σ) :
    (taskResult task : NativeAct σ (Option Cell)).run w = some (match w.tasks.result task with
      | .ok result => .ok result
      | .error e => .error (.task e), w) := by
  unfold taskResult
  show (match w.tasks.result task with | .ok result => _ | .error e => _ : NativeAct σ (Option Cell)).run w = _
  cases w.tasks.result task <;> rfl

end Interpose

import Interpose.Proofs.FrameOperations
import Interpose.Proofs.NativeCalls
import Interpose.Proofs.TaskEntries

/-!
# The native that waits for a task

What a script sees when it calls the native: the result, if the task has one; that there is no such task; or the status
that suspends the call, which the layer answers if the call has a frame to write the request into. Whatever it is, no task
changes, and no frame but the one that is written into.

Main statement: `Act.answersAwait`.
-/

namespace Interpose

open World Tasks

variable {σ : Type} {k : SubsystemId} {i : InstanceId} {w w' : World σ} {resume : Resume σ}

namespace Act

variable {name : String} {native : NativeAct σ Cell}

/-- What is refused of a task is reported, and raised as the status of natives. -/
theorem settleNative_task {e : TaskError} {a : Instance} (h : native.run w = some (.error (.task e), w'))
    (ha : w'.instance? i = some a) :
    settleNative name i native w = some (.error .native,
      (w'.record (.notice (.nativeFailed name i (.task e)))).setInstance i (a.raise .native)) := by
  have hnotify : notify (.nativeFailed name i (.task e)) w' =
      some ((), w'.record (.notice (.nativeFailed name i (.task e)))) := rfl
  have hraise : raise i .native (w'.record (.notice (.nativeFailed name i (.task e)))) =
      some (.native, (w'.record (.notice (.nativeFailed name i (.task e)))).setInstance i (a.raise .native)) :=
    congrArg (Option.map _) ha
  unfold settleNative
  rw [bind_of_some h]
  exact (bind_of_some hnotify).trans ((bind_of_some hraise).trans rfl)

/-- A request is answered `sleep` if there is a frame to write it into, and told in any case. -/
theorem requestAwait_spec {s : Subsystem} (hs : w.subsystem? k = some s) (task : TaskId) (result : Cell) :
    ∃ status w', requestAwait k i task result w = some (status, w') ∧
      status = (if w.frames k i = [] then .invalidState else .sleep) ∧ w'.tasks = w.tasks ∧
      w'.events = w.events ++ [.awaitRequested k i task result status] ∧
      ∀ l j, w'.frames l j =
        if l = k ∧ j = i then (w.frames k i).modifyHead fun f => f.await task result else w.frames l j := by
  have hedit : onContexts k (fun c => c.requestAwait i task result) w = some ((s.contexts.requestAwait i task result).1,
      w.setSubsystem k { s with contexts := (s.contexts.requestAwait i task result).2 }) := congrArg (Option.map _) hs
  refine ⟨_, _, bind_of_some hedit, ?_, rfl, ?_, fun l j => ?_⟩
  · rw [frames_of_subsystem? hs]
    unfold Contexts.requestAwait Contexts.editTop?
    split
    · rename_i f rest hframes
      rw [hframes]
      rfl
    · rename_i hframes
      rw [hframes]
      rfl
  · exact events_record ..
  · show (w.setSubsystem k { s with contexts := (s.contexts.requestAwait i task result).2 }).frames l j = _
    by_cases hl : l = k
    · subst hl
      rw [frames_setSubsystem hs, if_pos rfl, frames_of_subsystem? hs, frames_of_subsystem? hs]
      show (s.contexts.settle _).2.frames j = _
      rw [Contexts.frames_settle_editTop?]
      simp only [true_and]
    · rw [frames_setSubsystem hs, if_neg hl, if_neg fun h => hl h.1]

end Act

/-! ## Waiting for a task -/

namespace TaskNative

variable {c : Cell} {rest : List Cell}

/-- The native asks for the result first. -/
theorem run_await_of_result {answer : Except TaskError (Option Cell)} (hresult : w.tasks.result ⟨c⟩ = answer) :
    (await.run resume k i (c :: rest)).run w = match answer with
      | .error e => some (.error (.task e), w)
      | .ok (some value) => some (.ok value, w)
      | .ok none => (NativeAct.lift (Act.requestAwait k i ⟨c⟩ 0) >>= fun s => NativeAct.fail (.status s) :
          NativeAct σ Cell).run w := by
  have hrequire : (NativeAct.require (c :: rest) 1 : NativeAct σ Unit).run w = some (.ok (), w) := rfl
  have hasked := NativeAct.taskResult_eq ⟨c⟩ w
  show (runAwait k i (c :: rest)).run w = _
  unfold runAwait
  rw [NativeAct.run_bind_of_ok hrequire]
  rw [hresult] at hasked
  cases answer with
  | error e => exact NativeAct.run_bind_of_error hasked
  | ok result => cases result <;> exact NativeAct.run_bind_of_ok hasked

end TaskNative

/-- What the native that waits answers to a script, when it is called with the number of a task. -/
structure AnswersAwait (k : SubsystemId) (i : InstanceId) (task : TaskId) (w : World σ)
    (call : Act σ (Except Status Cell)) : Prop where
  /-- The result of a task that has one, and nothing happens. -/
  completed : ∀ {value waiters}, w.tasks.entry? task = some { result := some value, waiters } →
    call w = some (.ok value, w)
  /-- That the native failed, if there is no such task; no frame and no task changes. -/
  unknown : w.tasks.entry? task = none → (w.instance? i).isSome →
    ∃ w', call w = some (.error .native, w') ∧ w'.tasks = w.tasks ∧ ∀ l j, w'.frames l j = w.frames l j
  /-- That the call is suspended, if the task is pending; the request with the result 0 is written into the innermost
  frame. -/
  pending : ∀ {waiters f fs}, w.tasks.entry? task = some { result := none, waiters } → (w.subsystem? k).isSome →
    w.frames k i = f :: fs →
    ∃ w', call w = some (.error .sleep, w') ∧ w'.tasks = w.tasks ∧
      w'.events = w.events ++ [.awaitRequested k i task 0 .sleep] ∧
      ∀ l j, w'.frames l j = if l = k ∧ j = i then f.await task 0 :: fs else w.frames l j
  /-- That there is nothing to suspend, outside of any call that has a frame; nobody is made to wait. -/
  outside : ∀ {waiters}, w.tasks.entry? task = some { result := none, waiters } → (w.subsystem? k).isSome →
    w.frames k i = [] →
    ∃ w', call w = some (.error .invalidState, w') ∧ w'.tasks = w.tasks ∧ ∀ l j, w'.frames l j = w.frames l j

namespace Act

theorem answersAwait (resume : Resume σ) (k : SubsystemId) (i : InstanceId) (c : Cell) (rest : List Cell)
    (w : World σ) :
    AnswersAwait k i ⟨c⟩ w (settleNative TaskNative.await.name i (TaskNative.await.run resume k i (c :: rest))) := by
  have hpending : ∀ {waiters}, w.tasks.entry? ⟨c⟩ = some { result := none, waiters } → ∀ {s v},
      requestAwait k i ⟨c⟩ 0 w = some (s, v) →
      settleNative TaskNative.await.name i (TaskNative.await.run resume k i (c :: rest)) w = some (.error s, v) := by
    intro waiters hentry s v hasked
    have hresult : w.tasks.result ⟨c⟩ = .ok none := by rw [result_eq, hentry]; rfl
    refine settleNative_status ?_
    rw [TaskNative.run_await_of_result hresult]
    exact NativeAct.run_bind_of_ok (NativeAct.run_lift hasked)
  refine ⟨fun {value waiters} hentry => ?_, fun hentry hi => ?_, fun {waiters f fs} hentry hk hframes => ?_,
    fun {waiters} hentry hk hframes => ?_⟩
  · -- the result is there, and no request is made
    have hresult : w.tasks.result ⟨c⟩ = .ok (some value) := by rw [result_eq, hentry]; rfl
    exact settleNative_ok (TaskNative.run_await_of_result hresult)
  · obtain ⟨a, ha⟩ := Option.isSome_iff_exists.1 hi
    have hresult : w.tasks.result ⟨c⟩ = .error (.invalidId c) := by rw [result_eq, hentry]; rfl
    exact ⟨_, settleNative_task (TaskNative.run_await_of_result hresult) ha, rfl, fun _ _ => rfl⟩
  · obtain ⟨s, hs⟩ := Option.isSome_iff_exists.1 hk
    obtain ⟨status, w', hasked, hstatus, htasks, hevents, hafter⟩ := requestAwait_spec (i := i) hs ⟨c⟩ 0
    -- there is a frame for the request
    rw [hframes, if_neg (List.cons_ne_nil f fs)] at hstatus
    subst hstatus
    refine ⟨w', hpending hentry hasked, htasks, hevents, fun l j => ?_⟩
    rw [hafter, hframes]
    rfl
  · obtain ⟨s, hs⟩ := Option.isSome_iff_exists.1 hk
    obtain ⟨status, w', hasked, hstatus, htasks, -, hafter⟩ := requestAwait_spec (i := i) hs ⟨c⟩ 0
    -- there is none, and the request changes nothing
    rw [if_pos hframes] at hstatus
    subst hstatus
    refine ⟨w', hpending hentry hasked, htasks, fun l j => ?_⟩
    rw [hafter]
    split
    · rename_i h
      rw [h.1, h.2, hframes]
      rfl
    · rfl

end Act

end Interpose

import Interpose.Proofs.AwaitNative
import Interpose.Proofs.OwnRequests
import Interpose.Proofs.Suspension
import Interpose.Proofs.TaskRuns

/-!
# From waiting for a task to its result

A script that waits for a task asks for its call to be suspended. The request is written into the frame of the call, and
acted upon when the call that the layer passed on comes back suspended; in between there may be more calls, more requests,
and the task may get its result or be dropped. If the task is still pending then, the instance is remembered with its
registers, and will be handed the result exactly once; otherwise the suspension is rejected. If the instance was forgotten
by the layer meanwhile, the request is lost with the frame, and the suspension is rejected as well. Giving a task that is
pending its result is what hands it to those who wait, whether the host does it or a script.

Main statement: `Machine.awaits_tasks`.
-/

namespace Interpose.Machine

open World Tasks

variable {σ : Type} {k : SubsystemId} {i : InstanceId} {w w' : World σ}

theorem onward_openCall (k : SubsystemId) (i : InstanceId) : (openCall k i : Act σ Unit).Keeps Onward :=
  .bind Act.track_onward (Act.steady_onward.hold k fun n => n + 1) fun _ => onward_openFrame k i

/-! ## The task system -/

section

variable {host : Host σ} {calls : Calls σ} {slot : Option Cell} {r : ExecReply} {d : Activity} {left : Nat}
  {o : Outcome σ ExecReply} {result : Cell} {task : TaskId} {reclaim : ReclaimMarker} {s : Subsystem} {a : Instance}
  (h : Routes host calls k i slot r d w left o (some ⟨.await, result, some task, reclaim⟩))
  (hs : w.subsystem? k = some s) (htasks : s.collaborators.tasks = .tasks) (ha : w.instance? i = some a)
include h hs htasks ha

/-- A call that waits for a pending task is over, and its instance is remembered. -/
theorem Routes.remembered {waiters : List Token} (hentry : w.tasks.entry? task = some { result := none, waiters }) :
    ∃ w', o = .done (.success (slot.map fun _ => result)) w' left ∧ (w'.instance? i).map Instance.error = some none ∧
      w'.tasks = w.tasks.put task { result := none, waiters := waiters ++ [⟨i, a.registers⟩] } := by
  obtain ⟨s', a', hs', ha', hasked⟩ := h
  cases hs.symm.trans hs'
  cases ha.symm.trans ha'
  rw [htasks] at hasked
  simp only [remembering, hentry] at hasked
  obtain ⟨w', hdone, -, hsystems, herror⟩ := hasked
  exact ⟨w', hdone, herror, (Prod.mk.inj hsystems).2⟩

/-- A call that waits for a task that is not pending any more is rejected, and nobody is remembered. -/
theorem Routes.refused (hentry : ∀ waiters, w.tasks.entry? task ≠ some { result := none, waiters }) :
    ∃ w', o = .done (.failure .invalidState r.slot) w' left ∧
      (w'.instance? i).map Instance.error = some (some .invalidState) ∧ w'.tasks = w.tasks := by
  obtain ⟨s', a', hs', ha', hasked⟩ := h
  cases hs.symm.trans hs'
  cases ha.symm.trans ha'
  rw [htasks] at hasked
  -- there is no such task, or it has its result
  obtain ⟨why, hanswer⟩ : ∃ why, remembering host k task ⟨i, a.registers⟩ w .tasks = (.error why, w.host, w.tasks) := by
    unfold remembering
    cases hfound : w.tasks.entry? task with
    | none => exact ⟨_, rfl⟩
    | some entry =>
      obtain ⟨given, waiters⟩ := entry
      cases given with
      | none => exact absurd hfound (hentry waiters)
      | some value => exact ⟨_, rfl⟩
  rw [hanswer] at hasked
  obtain ⟨w', hdone, -, hsystems, herror⟩ := hasked
  exact ⟨w', hdone, herror, (Prod.mk.inj hsystems).2⟩

end

/-! ## Giving a task its result -/

/-- What giving a pending task its result does, for which `waiters` wait: each of them is handed it once, in turn. -/
structure HandsResult (resume : Resume σ) (task : TaskId) (value : Cell) (waiters : List Token) (w w' : World σ) :
    Prop where
  proceeds : Proceeds w [.completed task value] w'
  tasks : w'.tasks = w.tasks.put task { result := some value, waiters := [] }
  journal : w'.events = w.events ++ waiters.map fun token => w.resumer.tells (token, value)
  host : w'.host = waiters.foldl (fun state token => w.resumer.continues resume state (token, value)) w.host

theorem completeTask_hands {task : TaskId} {waiters : List Token}
    (hentry : w.tasks.entry? task = some { result := none, waiters }) (resume : Resume σ) (value : Cell) :
    ∃ w', Act.completeTask resume task value w = some (.ok waiters.length, w') ∧
      HandsResult resume task value waiters w w' := by
  have hcompleted := Act.completeTask_pending hentry rfl resume value
  refine ⟨_, hcompleted, .used (Act.used_completeTask hcompleted), rfl, ?_, ?_⟩
  -- the tokens are handed on paired with the result
  · rw [events_handing, List.map_map]
    rfl
  · exact List.foldl_map

/-- The native that gives a task its result does just that. -/
theorem settleNative_setResult {resume : Resume σ} {task : TaskId} {value : Cell} {count : Nat}
    (h : Act.completeTask resume task value w = some (.ok count, w')) (k : SubsystemId) (i : InstanceId)
    (rest : List Cell) :
    Act.settleNative TaskNative.setResult.name i (TaskNative.setResult.run resume k i (task.raw :: value :: rest)) w =
      some (.ok 1, w') := by
  have hrequire : (NativeAct.require (task.raw :: value :: rest) 2 : NativeAct σ Unit).run w = some (.ok (), w) := rfl
  refine Act.settleNative_ok ?_
  show (TaskNative.runSetResult resume (task.raw :: value :: rest)).run w = _
  unfold TaskNative.runSetResult
  rw [NativeAct.run_bind_of_ok hrequire]
  exact NativeAct.run_bind_of_ok (NativeAct.run_lift h)

/-! ## Every run -/

/-- What becomes of those who wait for tasks, through a layer that hands work to the tasks. -/
structure AwaitsTasks (host : Host σ) (k : SubsystemId) : Prop where
  /-- When the call that was passed on comes back suspended, and the last request in the call itself was to wait for a task,
  the call is over, unless the instance was forgotten. If the task is still pending, the call is a success with the result
  that was asked for, its instance has no error, and the instance with its registers is the last of those who wait for the
  task; no other task changes. Otherwise the status `invalidState` is recorded on the instance, and no task changes. -/
  settles : ∀ {index}, ExecIndex.IsPublic index →
    ∀ {depth i slot d w w₀ fuel w₁ left r}, (w.collaborators? k).map Collaborators.tasks = some .tasks →
    openCall k i w = some ((), w₀) → passOn (enter host depth) k i slot index d w₀ fuel = .done r w₁ left →
    r.status = .error .sleep →
    ∃ es a, w₁.events = w₀.events ++ es ∧ w₁.instance? i = some a ∧ ∀ {task result s},
      (ownRequests k i 0 es).getLast? = some (.awaitRequested k i task result s) → ¬ Unloaded k i es →
      ∃ reply w', intercepted host (enter host depth) k i slot index d w fuel = .done reply w' left ∧
        (∀ {waiters}, w₁.tasks.entry? task = some { result := none, waiters } →
          reply = .success (slot.map fun _ => result) ∧ (w'.instance? i).map Instance.error = some none ∧
          w'.tasks = w₁.tasks.put task { result := none, waiters := waiters ++ [⟨i, a.registers⟩] }) ∧
        ((∀ waiters, w₁.tasks.entry? task ≠ some { result := none, waiters }) →
          reply = .failure .invalidState r.slot ∧
          (w'.instance? i).map Instance.error = some (some .invalidState) ∧ w'.tasks = w₁.tasks)
  /-- What the native that waits answers. -/
  answers : ∀ i c rest w, AnswersAwait k i ⟨c⟩ w
    (Act.settleNative TaskNative.await.name i (TaskNative.await.run host.resume k i (c :: rest)))
  /-- Whatever code goes on from a world, each moment of its run comes after it, and each later moment after each earlier
  one. -/
  later : ∀ {α : Type} (p : Program σ α) depth d w {n m}, n ≤ m →
    Onward w (p.run host (enter host depth) d w n).world ∧
    Onward (p.run host (enter host depth) d w n).world (p.run host (enter host depth) d w m).world
  /-- Giving a pending task its result is never refused, neither to the host nor to the native, and hands it to all who wait
  for the task. -/
  completes : ∀ {w task waiters}, w.tasks.entry? task = some { result := none, waiters } → ∀ value,
    ∃ w', Act.completeTask host.resume task value w = some (.ok waiters.length, w') ∧
      (∀ i rest, Act.settleNative TaskNative.setResult.name i
        (TaskNative.setResult.run host.resume k i (task.raw :: value :: rest)) w = some (.ok 1, w')) ∧
      HandsResult host.resume task value waiters w w'
  /-- Between a world and a later one, those who wait for a task that is not dropped go on waiting, or are handed its result
  exactly once: the task was given one result, which was handed to all who waited for it then. -/
  resumes : ∀ {w w' : World σ} {effects}, Proceeds w effects w' → ∀ {task waiters},
    w.tasks.entry? task = some { result := none, waiters } → .dropped task ∉ effects →
    StillWaiting w.tasks.entry? task waiters effects ∨
      ∃ value, HandedOnce w.tasks.entry? task waiters effects value

/-- Whatever happens between the request of a call to wait for a task and the end of the call, it is acted upon if the
instance is not forgotten; and those who wait are handed the result of the task exactly once. -/
theorem awaits_tasks {host : Host σ} {k : SubsystemId}
    (hhost : host.UsesOnly (.operations (Operation.leavesFrames k))) : AwaitsTasks host k where
  settles {index} hindex {depth i slot d w w₀ fuel w₁ left r} htasks hopen hinner hsleep := by
    obtain ⟨es, htells, hnested, hthere, hsleeper, hplace, hrest⟩ := reaches_settle hhost hindex hopen hinner hsleep
    obtain ⟨a, ha⟩ := Option.isSome_iff_exists.1 hsleeper
    obtain ⟨s, hs⟩ := Option.isSome_iff_exists.1 hthere
    -- the layer still hands work to the tasks
    have hcollaborators : s.collaborators.tasks = .tasks := by
      obtain ⟨c, hc, htasks⟩ := Option.map_eq_some_iff.1 htasks
      obtain ⟨before, hbefore⟩ := onward_openCall k i hopen
      have hinside : (passOn (enter host depth) k i slot index).Flows Onward :=
        (regimeOfTasks host).passOn ((regimeOfTasks host).enter depth) k i slot index
      obtain ⟨inside, hproceeds⟩ := (hinside.keeps d w₀).of_done hinner
      have hkept := (hbefore.trans hproceeds).collaborators hc
      unfold collaborators? at hkept
      rw [stock?_of_subsystem? hs] at hkept
      rw [← htasks, ← Option.some.inj hkept]
      rfl
    refine ⟨es, a, htells.journal, ha, fun {task result status} hlast hkept => ?_⟩
    -- the frame of the call is the innermost one again, and is what the last request made of it
    rcases htells.own (hnested i) (frames_openCall hopen) with ⟨-, hi, -⟩ | ⟨f, hown, -, hframes⟩
    · exact absurd hi hkept
    · obtain ⟨reclaim, rfl⟩ := ownFrame_of_awaitRequested hown hlast
      have hroutes : Routes host (enter host depth) k i slot r d w₁ left
          (settleAndClose host (enter host depth) k i r d w₁ left) (w₁.frames k i).head? :=
        routes_settleAndClose hhost (keepsFrames_enter hhost depth) hthere hsleeper hsleep hplace
      rw [hframes, List.head?_cons, ← hrest] at hroutes
      by_cases hpending : ∃ waiters, w₁.tasks.entry? task = some { result := none, waiters }
      · obtain ⟨waiters, hentry⟩ := hpending
        obtain ⟨w', hdone, herror, hafter⟩ := hroutes.remembered hs hcollaborators ha hentry
        refine ⟨_, w', hdone, fun {waiters'} hentry' => ?_, fun hnot => absurd hentry (hnot waiters)⟩
        cases hentry.symm.trans hentry'
        exact ⟨rfl, herror, hafter⟩
      · have hnot : ∀ waiters, w₁.tasks.entry? task ≠ some { result := none, waiters } :=
          fun waiters hentry => hpending ⟨waiters, hentry⟩
        obtain ⟨w', hdone, herror, hafter⟩ := hroutes.refused hs hcollaborators ha hnot
        exact ⟨_, w', hdone, fun {waiters} hentry => absurd hentry (hnot waiters), fun _ => ⟨rfl, herror, hafter⟩⟩
  answers i c rest w := Act.answersAwait host.resume k i c rest w
  later {_} p depth d w {n _} hnm :=
    ⟨(proceeds_run host depth p).keeps.world_of d w n, (proceeds_run host depth p).moments d w hnm⟩
  completes {w task waiters} hentry value := by
    obtain ⟨w', hcompleted, hhands⟩ := completeTask_hands hentry host.resume value
    exact ⟨w', hcompleted, settleNative_setResult hcompleted k, hhands⟩
  resumes {_ _ _} h {_ _} hentry hdropped := waiting_entries h.possible hentry hdropped

/-- A script with two functions: the first waits for a task; the second does too, but then has its own instance forgotten
before it suspends its call. -/
def awaitingScript (code : Code) (i : InstanceId) : Program Unit (Except Status Cell) :=
  if code = ⟨0⟩ then Program.callIndex i (.ofNat 4) [1]
  else do
    let _ ← Program.callIndex i (.ofNat 4) [1]
    let _ ← Program.perform (.unload ⟨0⟩ i)
    .done (.error .sleep)

/-- A world in which that script is loaded with the natives on tasks, there is a task, and every hook is switched on. -/
def awaitingWorld : World Unit :=
  let setUp : Program Unit Unit := do
    let i ← Program.perform (.newInstance 4)
    let _ ← Program.perform (.registerModule ⟨0⟩ i .task)
    let _ ← Program.perform (.addFunction i "main" ⟨0⟩)
    let _ ← Program.perform (.addFunction i "forgotten" ⟨1⟩)
    let _ ← Program.perform .createTask
    let _ ← Program.perform (.installAll ⟨0⟩)
  (setUp.runIn (.scripted awaitingScript) 9 (.single #[] .host () .standard ⟨.tasks, .unsupported, .unsupported⟩)).world

/-- What a function of that script has done when its call comes back suspended, after so many entries of the journal: it
asked last to wait for the task, and the task is pending. -/
def awaitsTask (entries : Nat) (m : ExecReply × World Unit) : Bool :=
  m.1.isSuspended && decide ((m.2.tasks.entry? ⟨1⟩) = some { result := none, waiters := [] }) &&
    decide ((ownRequests ⟨0⟩ ⟨0⟩ 0 (m.2.events.drop entries)).getLast? =
      some (.awaitRequested ⟨0⟩ ⟨0⟩ ⟨1⟩ 0 .sleep))

/-- The first function waits for the task, its call is a success, and when the native gives the task its result, that is
handed to the instance. -/
theorem awaits_tasks_awaiting :
    ∃ w₀ r w₁ left a w' w'', openCall ⟨0⟩ ⟨0⟩ awaitingWorld = some ((), w₀) ∧
      passOn (enter (.scripted awaitingScript) 4) ⟨0⟩ ⟨0⟩ (some 1) 0 .outside w₀ 9 = .done r w₁ left ∧
      r.status = .error .sleep ∧ w₁.instance? ⟨0⟩ = some a ∧
      intercepted (.scripted awaitingScript) (enter (.scripted awaitingScript) 4) ⟨0⟩ ⟨0⟩ (some 1) 0 .outside
        awaitingWorld 9 = .done (.success (some 0)) w' left ∧
      w'.tasks.entry? ⟨1⟩ = some { result := none, waiters := [⟨⟨0⟩, a.registers⟩] } ∧
      Act.settleNative TaskNative.setResult.name ⟨0⟩
        (TaskNative.setResult.run (Host.scripted awaitingScript).resume ⟨0⟩ ⟨0⟩ [1, .ofNat 7]) w' = some (.ok 1, w'') ∧
      w''.events = w'.events ++ [.resumed ⟨⟨0⟩, a.registers⟩ (.ofNat 7)] := by
  have hhost : (Host.scripted awaitingScript).UsesOnly (.operations (Operation.leavesFrames ⟨0⟩)) := by
    refine Host.scripted_uses _ fun code i => ?_
    unfold awaitingScript
    split
    · exact ⟨trivial, fun _ => trivial⟩
    · exact ⟨trivial, fun _ => ⟨trivial, fun _ => trivial⟩⟩
  have hindex : ExecIndex.IsPublic 0 := fun id h => nomatch h
  have hruns : (openCall ⟨0⟩ ⟨0⟩ awaitingWorld).any (fun opened =>
      (passOn (enter (.scripted awaitingScript) 4) ⟨0⟩ ⟨0⟩ (some 1) 0 .outside opened.2 9).done?.any fun m =>
        awaitsTask opened.2.events.length m &&
          decide (Event.unloaded ⟨0⟩ ⟨0⟩ true ∉ m.2.events ∧ Event.unloaded ⟨0⟩ ⟨0⟩ false ∉ m.2.events)) = true := by
    decide +kernel
  obtain ⟨⟨u, w₀⟩, hopen, hinner⟩ := (Option.any_eq_true _ _).1 hruns
  obtain ⟨r, w₁, left, hinner, hsuspended⟩ := Outcome.exists_done hinner
  simp only [awaitsTask, Bool.and_eq_true, decide_eq_true_eq] at hsuspended
  obtain ⟨⟨⟨hsleep, hpending⟩, hlast⟩, hthere⟩ := hsuspended
  have hsleep := ExecReply.isSuspended_iff.1 hsleep
  have hlaw : AwaitsTasks (.scripted awaitingScript) ⟨0⟩ := awaits_tasks hhost
  obtain ⟨es, a, hes, ha, hsettles⟩ := hlaw.settles hindex (by decide +kernel) hopen hinner hsleep
  rw [hes, List.drop_left] at hlast
  have hkept : ¬ Unloaded ⟨0⟩ ⟨0⟩ es := by
    rintro ⟨kept, hkept⟩
    have hmem : Event.unloaded ⟨0⟩ ⟨0⟩ kept ∈ w₁.events := hes ▸ List.mem_append_right _ hkept
    cases kept with
    | true => exact hthere.1 hmem
    | false => exact hthere.2 hmem
  obtain ⟨reply, w', hdone, hregistered, -⟩ := hsettles hlast hkept
  obtain ⟨rfl, -, htasks⟩ := hregistered hpending
  have hentry : w'.tasks.entry? ⟨1⟩ = some { result := none, waiters := [⟨⟨0⟩, a.registers⟩] } := by
    rw [htasks, entry?_put, if_pos rfl]
    rfl
  obtain ⟨w'', -, hgiven, hhands⟩ := hlaw.completes hentry (.ofNat 7)
  -- in this world there is a resumer that hands results on
  have hresumer : (intercepted (.scripted awaitingScript) (enter (.scripted awaitingScript) 4) ⟨0⟩ ⟨0⟩ (some 1) 0 .outside
      awaitingWorld 9).world.resumer = .host := by decide +kernel
  rw [hdone] at hresumer
  have hjournal := hhands.journal
  rw [show w'.resumer = .host from hresumer] at hjournal
  exact ⟨w₀, r, w₁, left, a, w', w'', hopen, hinner, hsleep, ha, hdone, hentry, hgiven ⟨0⟩ [], hjournal⟩

/-- A call whose own last request was to wait for a task that is pending, but whose instance was forgotten, is not a
success, and nobody is remembered. -/
theorem awaits_tasks_forgotten :
    ∃ w₀ r w₁ left es reply w' left', openCall ⟨0⟩ ⟨0⟩ awaitingWorld = some ((), w₀) ∧
      passOn (enter (.scripted awaitingScript) 4) ⟨0⟩ ⟨0⟩ (some 1) 1 .outside w₀ 9 = .done r w₁ left ∧
      r.status = .error .sleep ∧ w₁.events = w₀.events ++ es ∧
      (ownRequests ⟨0⟩ ⟨0⟩ 0 es).getLast? = some (.awaitRequested ⟨0⟩ ⟨0⟩ ⟨1⟩ 0 .sleep) ∧
      w₁.tasks.entry? ⟨1⟩ = some { result := none, waiters := [] } ∧
      intercepted (.scripted awaitingScript) (enter (.scripted awaitingScript) 4) ⟨0⟩ ⟨0⟩ (some 1) 1 .outside
        awaitingWorld 9 = .done reply w' left' ∧
      reply.status = .error .invalidState ∧ w'.tasks.entry? ⟨1⟩ = some { result := none, waiters := [] } := by
  have hruns : (openCall ⟨0⟩ ⟨0⟩ awaitingWorld).any (fun opened =>
      (passOn (enter (.scripted awaitingScript) 4) ⟨0⟩ ⟨0⟩ (some 1) 1 .outside opened.2 9).done?.any fun m =>
        awaitsTask opened.2.events.length m &&
          decide (m.2.events.take opened.2.events.length = opened.2.events)) = true := by
    decide +kernel
  have hends : (intercepted (.scripted awaitingScript) (enter (.scripted awaitingScript) 4) ⟨0⟩ ⟨0⟩ (some 1) 1 .outside
      awaitingWorld 9).done?.any (fun m => decide (m.1.status = .error .invalidState) &&
        decide (m.2.tasks.entry? ⟨1⟩ = some { result := none, waiters := [] })) = true := by
    decide +kernel
  obtain ⟨⟨u, w₀⟩, hopen, hinner⟩ := (Option.any_eq_true _ _).1 hruns
  obtain ⟨r, w₁, left, hinner, hsuspended⟩ := Outcome.exists_done hinner
  obtain ⟨reply, w', left', hdone, hreply⟩ := Outcome.exists_done hends
  simp only [awaitsTask, Bool.and_eq_true, decide_eq_true_eq] at hsuspended hreply
  obtain ⟨⟨⟨hsleep, hpending⟩, hlast⟩, hsame⟩ := hsuspended
  refine ⟨w₀, r, w₁, left, w₁.events.drop w₀.events.length, reply, w', left', hopen, hinner,
    ExecReply.isSuspended_iff.1 hsleep, ?_, hlast, hpending, hdone, hreply.1, hreply.2⟩
  exact (hsame ▸ (List.take_append_drop w₀.events.length w₁.events)).symm

end Interpose.Machine

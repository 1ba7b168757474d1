import Interpose.Proofs.TaskHistory
import Interpose.Proofs.TaskNumbers

/-!
# Those who wait

Tasks are made, registered for, completed and dropped in any order, with any numbers and tokens. From the history of what
was accepted follows everything else: which tasks there are and which results they have; what is accepted next; what the
journal tells, and what became of the host's own state. Whoever was accepted is handed the result of the task exactly once
if there is one before the task is dropped, in the order of registration, and nothing otherwise.

`World.Follows` is the invariant: a world comes after a history that began in another. Each use leads on from it
(`Follows.used`), so each run of uses does.

Main statement: `waiters_resumed_once`.
-/

namespace Interpose

namespace Tasks

variable {σ : Type} {task : TaskId} {effects : List Effect}

/-- What can be done with tasks. -/
inductive Use
  | create
  | register (task : TaskId) (token : Token)
  | complete (task : TaskId) (value : Cell)
  | remove (task : TaskId)
deriving DecidableEq

namespace Use

/-- What is answered. -/
abbrev Reply : Use → Type
  | create => TaskId
  | register _ _ => Except TaskError Unit
  | complete _ _ => Except TaskError Nat
  | remove _ => Bool

/-- Does it. -/
def perform (resume : Resume σ) : (u : Use) → Act σ u.Reply
  | create => Act.createTask
  | register task token => Act.registerWaiter task token
  | complete task value => Act.completeTask resume task value
  | remove task => Act.removeTask task

/-- The effect it had, which the answer tells. -/
def effect? : (u : Use) → u.Reply → Option Effect
  | create, task => some (.made task)
  | register task token, .ok _ => some (.joined task token)
  | complete task value, .ok _ => some (.completed task value)
  | remove task, true => some (.dropped task)
  | _, _ => none

end Use

/-- Uses in a row, and the effects they had. -/
def useAll (resume : Resume σ) : List Use → Act σ (List Effect)
  | [] => pure []
  | u :: rest => do
    let reply ← u.perform resume
    let effects ← useAll resume rest
    pure ((u.effect? reply).toList ++ effects)

/-- A use is answered, unless it asks for a new task when every number is taken; only new tasks make the tasks more. -/
theorem Use.answers (resume : Resume σ) (u : Use) (w : World σ) (h : u = .create → w.tasks.size < mostTasks) :
    ∃ reply w', u.perform resume w = some (reply, w') ∧ w'.tasks.size ≤ w.tasks.size + if u = .create then 1 else 0 := by
  cases u with
  | create =>
    obtain ⟨⟨task, tasks⟩, hcreated⟩ := Option.isSome_iff_exists.1 (create?_isSome (h rfl))
    exact ⟨task, { w with tasks }, congrArg (Option.map _) hcreated, size_create hcreated⟩
  | register task token =>
    cases hrefusal : w.tasks.refusal? task with
    | some e => exact ⟨_, w, Act.registerWaiter_refused hrefusal token, Nat.le_add_right ..⟩
    | none =>
      obtain ⟨entry, hentry, hpending⟩ := refusal?_eq_none.1 hrefusal
      exact ⟨_, _, Act.registerWaiter_pending hentry hpending token, size_put hentry⟩
  | complete task value =>
    cases hrefusal : w.tasks.refusal? task with
    | some e => exact ⟨_, w, Act.completeTask_refused hrefusal resume value, Nat.le_add_right ..⟩
    | none =>
      obtain ⟨entry, hentry, hpending⟩ := refusal?_eq_none.1 hrefusal
      exact ⟨_, _, Act.completeTask_pending hentry hpending resume value, size_put hentry⟩
  | remove task =>
    cases hentry : w.tasks.entry? task with
    | some entry => exact ⟨_, _, Act.removeTask_there hentry, size_remove w.tasks task⟩
    | none => exact ⟨_, _, Act.removeTask_absent hentry, size_remove w.tasks task⟩

/-- Uses in a row are answered if there are numbers for all the tasks they ask for. -/
theorem useAll_answers (resume : Resume σ) (uses : List Use) (w : World σ)
    (h : w.tasks.size + uses.count .create ≤ mostTasks) : ∃ effects w', useAll resume uses w = some (effects, w') := by
  induction uses generalizing w with
  | nil => exact ⟨[], w, rfl⟩
  | cons u rest ih =>
    rw [List.count_cons] at h
    obtain ⟨reply, v, hv, hsize⟩ := u.answers resume w fun hcreate => by simp [hcreate] at h; omega
    -- a use takes at most the one number that is counted for it
    have hroom : v.tasks.size + rest.count .create ≤ mostTasks := by
      simp only [beq_iff_eq] at h
      omega
    obtain ⟨effects, w', hw'⟩ := ih v hroom
    refine ⟨(u.effect? reply).toList ++ effects, w', ?_⟩
    unfold useAll
    rw [Act.bind_of_some hv, Act.bind_of_some hw']
    rfl

/-- What the journal tells of an effect. -/
def Effect.tells (resumer : Resumer) (entry : Option Task) : Effect → List Event
  | .dropped task => [.taskRemoved task]
  | e => (e.hands entry).map resumer.tells

/-- What the journal tells of a history. -/
def tellings (resumer : Resumer) : List Effect → List Event :=
  along (fun before e => e.tells resumer (taskAfter e.task before)) []

theorem tellings_concat (resumer : Resumer) (effects : List Effect) (e : Effect) :
    tellings resumer (effects ++ [e]) = tellings resumer effects ++ e.tells resumer (taskAfter e.task effects) :=
  along_concat _ [] effects e

/-- The other entries are untouched. -/
theorem leads_put {t : Tasks} {e : Effect} {x y : Task} (hx : t.entry? e.task = some x) (hr : x.result = none)
    (hallowed : e.Allowed (some x) ↔ ∃ z, some x = some z ∧ z.result = none) (hy : e.change (some x) = some y) :
    e.Leads t (t.put e.task y) where
  allowed := hx ▸ hallowed.2 ⟨x, rfl, hr⟩
  entries other := by rw [entry?_put, hx, hy]

end Tasks

open Tasks

namespace World

variable {σ : Type}

/-- What an effect does to a world. -/
structure Undergoes (resume : Resume σ) (w : World σ) (e : Effect) (w' : World σ) : Prop where
  leads : e.Leads w.tasks w'.tasks
  resumer : w'.resumer = w.resumer
  subsystems : w'.subsystems = w.subsystems
  journal : w'.events = w.events ++ e.tells w.resumer (w.tasks.entry? e.task)
  host : w'.host = (e.hands (w.tasks.entry? e.task)).foldl (w.resumer.continues resume) w.host

/-- No task differs between two worlds, and nobody was told anything. -/
structure Unaffected (w w' : World σ) : Prop where
  entries : ∀ task, w'.tasks.entry? task = w.tasks.entry? task
  resumer : w'.resumer = w.resumer
  subsystems : w'.subsystems = w.subsystems
  journal : w'.events = w.events
  host : w'.host = w.host

theorem Unaffected.refl (w : World σ) : Unaffected w w :=
  ⟨fun _ => rfl, rfl, rfl, rfl, rfl⟩

/-- What a use that had this effect, or none, does to a world. -/
def Used (resume : Resume σ) (w : World σ) : Option Effect → World σ → Prop
  | some e, w' => Undergoes resume w e w'
  | none, w' => Unaffected w w'

end World

namespace Act

open World

variable {σ : Type} {resume : Resume σ} {w w' : World σ} {task : TaskId}

theorem used_createTask (hw : createTask w = some (task, w')) : Used resume w (some (.made task)) w' := by
  obtain ⟨hvacant, hsame, hentries⟩ := createTask_spec hw
  refine ⟨⟨hvacant, hentries⟩, by rw [hsame], by rw [hsame], ?_, by rw [hsame]; rfl⟩
  rw [hsame]
  exact (List.append_nil _).symm

theorem used_registerWaiter {token : Token} {reply : Except TaskError Unit}
    (hw : registerWaiter task token w = some (reply, w')) :
    Used resume w (Use.effect? (.register task token) reply) w' := by
  cases hrefusal : w.tasks.refusal? task with
  | some e =>
    rw [registerWaiter_refused hrefusal] at hw
    cases hw
    exact Unaffected.refl w
  | none =>
    obtain ⟨entry, hentry, hpending⟩ := refusal?_eq_none.1 hrefusal
    rw [registerWaiter_pending hentry hpending] at hw
    cases hw
    have hleads := leads_put (e := .joined task token) hentry hpending .rfl rfl
    exact ⟨hleads, rfl, rfl, (List.append_nil _).symm, rfl⟩

theorem used_completeTask {value : Cell} {reply : Except TaskError Nat}
    (hw : completeTask resume task value w = some (reply, w')) :
    Used resume w (Use.effect? (.complete task value) reply) w' := by
  cases hrefusal : w.tasks.refusal? task with
  | some e =>
    rw [completeTask_refused hrefusal] at hw
    cases hw
    exact Unaffected.refl w
  | none =>
    obtain ⟨entry, hentry, hpending⟩ := refusal?_eq_none.1 hrefusal
    rw [completeTask_pending hentry hpending] at hw
    cases hw
    have hleads := leads_put (e := .completed task value) hentry hpending .rfl rfl
    have hhands : Effect.hands (w.tasks.entry? task) (.completed task value) =
        entry.waiters.map fun token => (token, value) := by
      rw [hentry]
      rfl
    refine ⟨hleads, rfl, rfl, ?_, ?_⟩
    · show _ = w.events ++ (Effect.hands (w.tasks.entry? task) (.completed task value)).map w.resumer.tells
      rw [hhands]
      exact events_handing ..
    · show _ = (Effect.hands (w.tasks.entry? task) (.completed task value)).foldl _ _
      rw [hhands]
      rfl

theorem used_removeTask {reply : Bool} (hw : removeTask task w = some (reply, w')) :
    Used resume w (Use.effect? (.remove task) reply) w' := by
  cases hentry : w.tasks.entry? task with
  | some entry =>
    rw [removeTask_there hentry] at hw
    cases hw
    refine ⟨⟨?_, fun other => entry?_remove w.tasks task other⟩, rfl, rfl, events_record .., rfl⟩
    show (w.tasks.entry? task).isSome
    rw [hentry]
    rfl
  | none =>
    rw [removeTask_absent hentry] at hw
    cases hw
    refine ⟨fun other => ?_, rfl, rfl, rfl, rfl⟩
    show Tasks.entry? (w.tasks.remove task).2 other = _
    rw [entry?_remove]
    split
    · rename_i hother
      rw [hother, hentry]
    · rfl

/-- Each use has the effect that its answer tells. -/
theorem used_perform {u : Use} {reply : u.Reply} (hw : u.perform resume w = some (reply, w')) :
    Used resume w (u.effect? reply) w' := by
  cases u with
  | create => exact used_createTask hw
  | register task token => exact used_registerWaiter hw
  | complete task value => exact used_completeTask hw
  | remove task => exact used_removeTask hw

end Act

namespace World

variable {σ : Type} {resume : Resume σ} {w₀ w w' : World σ} {effects : List Effect}

/-- A world that comes after a history, which began in another where there were no tasks. -/
structure Follows (resume : Resume σ) (w₀ : World σ) (effects : List Effect) (w : World σ) : Prop where
  agrees : Agrees w.tasks effects
  resumer : w.resumer = w₀.resumer
  journal : w.events = w₀.events ++ tellings w₀.resumer effects
  host : w.host = (handed effects).foldl (w₀.resumer.continues resume) w₀.host

theorem follows_nil (h : w₀.tasks = .empty) : Follows resume w₀ [] w₀ where
  agrees := h ▸ agrees_empty
  resumer := rfl
  journal := (List.append_nil _).symm
  host := rfl

namespace Follows

/-- The step lemma. -/
theorem used {effect : Option Effect} (h : Follows resume w₀ effects w) (hw : Used resume w effect w') :
    Follows resume w₀ (effects ++ effect.toList) w' := by
  cases effect with
  | some e =>
    refine ⟨h.agrees.step hw.leads, hw.resumer.trans h.resumer, ?_, ?_⟩
    · rw [hw.journal, h.journal, h.resumer, h.agrees.entries, Option.toList_some, tellings_concat, List.append_assoc]
    · rw [hw.host, h.host, h.resumer, h.agrees.entries, Option.toList_some, handed_concat, List.foldl_append]
  | none =>
    have hagrees : Agrees w'.tasks effects :=
      { h.agrees with entries := fun task => (hw.entries task).trans (h.agrees.entries task) }
    rw [Option.toList_none, List.append_nil]
    exact ⟨hagrees, hw.resumer.trans h.resumer, hw.journal.trans h.journal, hw.host.trans h.host⟩

/-- The run lemma. -/
theorem useAll {uses : List Use} {later : List Effect} (h : Follows resume w₀ effects w)
    (hw : Tasks.useAll resume uses w = some (later, w')) : Follows resume w₀ (effects ++ later) w' := by
  -- the history before the uses grows by what each of them did
  induction uses generalizing effects w later with
  | nil =>
    cases hw
    exact (List.append_nil effects).symm ▸ h
  | cons u rest ih =>
    obtain ⟨⟨reply, v⟩, hv, hw⟩ := Option.bind_eq_some_iff.1 hw
    obtain ⟨⟨more, v'⟩, hv', e⟩ := Option.bind_eq_some_iff.1 hw
    cases e
    rw [← List.append_assoc]
    exact ih (h.used (Act.used_perform hv)) hv'

end Follows

end World

namespace Tasks

open World

variable {σ : Type} {resume : Resume σ} {w₀ w : World σ} {effects : List Effect} {task : TaskId}

/-- The task is pending if it was given no result since it was made, and is completed otherwise. -/
theorem taskAfter_pending {past : List Effect} (h : since task effects = some past)
    (hpending : past.filterMap Effect.value? = []) :
    taskAfter task effects = some { result := none, waiters := past.filterMap Effect.token? } := by
  have hnone : past.findSome? Effect.value? = none :=
    List.findSome?_eq_none_iff.2 (List.filterMap_eq_nil_iff.1 hpending)
  simp [taskAfter, h, entryAfter, hnone]

theorem taskAfter_completed {past : List Effect} {value : Cell} (h : since task effects = some past)
    (hvalue : past.findSome? Effect.value? = some value) :
    taskAfter task effects = some { result := some value, waiters := [] } := by
  simp [taskAfter, h, entryAfter, hvalue]

/-- What is known after a history that began in the world `w₀`. -/
structure Law (resume : Resume σ) (w₀ : World σ) (effects : List Effect) (w : World σ) : Prop where
  /-- A task that was not made, or was dropped since, is not there. Everything that is asked of it is refused and changes
  nothing. -/
  unknown : ∀ {task}, since task effects = none →
    w.tasks.entry? task = none ∧
    (NativeAct.taskResult task).run w = some (.error (.task (.invalidId task.raw)), w) ∧
    (∀ token, Act.registerWaiter task token w = some (.error (.invalidId task.raw), w)) ∧
    ∀ value, Act.completeTask resume task value w = some (.error (.invalidId task.raw), w)
  /-- A task that was given no result since it was made has none. Those wait for it who came since, in the order in which
  they came. Whoever comes now is accepted and is the last of them; a result that is given now is handed to all of them in
  this order, and their number is answered. -/
  pending : ∀ {task past}, since task effects = some past → past.filterMap Effect.value? = [] →
    w.tasks.entry? task = some { result := none, waiters := past.filterMap Effect.token? } ∧
    (NativeAct.taskResult task).run w = some (.ok none, w) ∧
    (∀ token, Act.registerWaiter task token w = some (.ok (),
      { w with tasks := w.tasks.put task { result := none, waiters := past.filterMap Effect.token? ++ [token] } })) ∧
    ∀ value, Act.completeTask resume task value w = some (.ok (past.filterMap Effect.token?).length,
      World.handing resume { w with tasks := w.tasks.put task { result := some value, waiters := [] } }
        ((past.filterMap Effect.token?).map fun token => (token, value)))
  /-- A task that was given a result since it was made was given one only, and has it. Nobody waits for it; nobody is
  accepted, and no other result is, and this changes nothing. -/
  completed : ∀ {task past value}, since task effects = some past → value ∈ past.filterMap Effect.value? →
    past.filterMap Effect.value? = [value] ∧
    w.tasks.entry? task = some { result := some value, waiters := [] } ∧
    (NativeAct.taskResult task).run w = some (.ok (some value), w) ∧
    (∀ token, Act.registerWaiter task token w = some (.error (.completed task.raw), w)) ∧
    ∀ other, Act.completeTask resume task other w = some (.error (.completed task.raw), w)
  /-- The journal tells what was handed on and which tasks were dropped, and the host continued those who were handed
  something, in this order; if the resumer drops them it continued nobody. -/
  journal : w.events = w₀.events ++ tellings w₀.resumer effects
  host : w.host = (handed effects).foldl (w₀.resumer.continues resume) w₀.host
  /-- What was handed on is, each once, what those are due who were accepted for a task that was given its result before it
  was dropped. -/
  settled : (handed effects).Perm ((registrations effects).filterMap Registration.due?)
  /-- Those who are remembered are, each once, those who were accepted for a task that was neither given its result nor
  dropped since. -/
  waiting : ∀ task, ((w.tasks.entry? task).map Task.waiters).getD [] =
    (registrations effects).filterMap (Registration.waits? task)

/-- Whatever is done with tasks, it is answered as long as there are numbers for new ones; and those who wait are resumed
exactly once. -/
theorem waiters_resumed_once (h₀ : w₀.tasks = .empty) (uses : List Use) :
    (uses.count .create ≤ mostTasks → ∃ effects w, useAll resume uses w₀ = some (effects, w)) ∧
      ∀ {effects w}, useAll resume uses w₀ = some (effects, w) → Law resume w₀ effects w := by
  have hnone : w₀.tasks.size = 0 := by rw [h₀]; rfl
  refine ⟨fun hroom => useAll_answers resume uses w₀ (by omega), fun {effects w} h => ?_⟩
  have hw : Follows resume w₀ effects w := (follows_nil h₀).useAll h
  -- what is known of a task follows from its entry, and the entry from the history
  refine ⟨?_, ?_, ?_, hw.journal, hw.host, hw.agrees.settled, ?_⟩
  · -- there is no such task
    intro task hsince
    have hentry : w.tasks.entry? task = none := by
      rw [hw.agrees.entries, taskAfter, hsince]
      rfl
    have hrefusal : w.tasks.refusal? task = some (.invalidId task.raw) := by
      rw [refusal?, hentry]
    refine ⟨hentry, ?_, fun token => Act.registerWaiter_refused hrefusal token,
      fun value => Act.completeTask_refused hrefusal resume value⟩
    rw [NativeAct.taskResult_eq, result_eq, hentry]
    rfl
  · -- it is pending
    intro task past hsince hpending
    have hentry : w.tasks.entry? task = some { result := none, waiters := past.filterMap Effect.token? } := by
      rw [hw.agrees.entries, taskAfter_pending hsince hpending]
    refine ⟨hentry, ?_, fun token => Act.registerWaiter_pending hentry rfl token,
      fun value => Act.completeTask_pending hentry rfl resume value⟩
    rw [NativeAct.taskResult_eq, result_eq, hentry]
    rfl
  · -- it has its result, which was the only one
    intro task past value hsince hvalue
    have honce := hw.agrees.once task past hsince
    have hfirst : past.findSome? Effect.value? = some value := by
      rw [honce] at hvalue
      exact Option.mem_toList.1 hvalue
    have hentry : w.tasks.entry? task = some { result := some value, waiters := [] } := by
      rw [hw.agrees.entries, taskAfter_completed hsince hfirst]
    have hrefusal : w.tasks.refusal? task = some (.completed task.raw) := by
      rw [refusal?, hentry]
      rfl
    refine ⟨by rw [honce, hfirst]; rfl, hentry, ?_, fun token => Act.registerWaiter_refused hrefusal token,
      fun other => Act.completeTask_refused hrefusal resume other⟩
    rw [NativeAct.taskResult_eq, result_eq, hentry]
    rfl
  · intro task
    rw [hw.agrees.entries]
    exact (hw.agrees.waiting task).symm

/-- One instance registers twice and another once, and the task is completed; the next task is dropped. -/
def relayedUses : List Use :=
  let waiter (i : InstanceId) : Token := ⟨i, ⟨0, 0, 0, 0, 0, 0⟩⟩
  [.create, .register ⟨1⟩ (waiter ⟨0⟩), .register ⟨1⟩ (waiter ⟨0⟩), .register ⟨1⟩ (waiter ⟨1⟩), .complete ⟨1⟩ 2,
    .complete ⟨1⟩ 1, .register ⟨1⟩ (waiter ⟨2⟩), .create, .register ⟨2⟩ (waiter ⟨2⟩), .remove ⟨2⟩]

/-- A host that notes whom it continued with what. -/
def noting (token : Token) (value : Cell) (log : List (InstanceId × Cell)) : List (InstanceId × Cell) :=
  log ++ [(token.owner, value)]

/-- Each registration that was accepted is continued once, and the dropped one is not. -/
theorem waiters_resumed_once_relayed :
    ∃ effects w, useAll noting relayedUses (.initial .host []) = some (effects, w) ∧
      Law noting (.initial .host []) effects w ∧ w.host = [(⟨0⟩, 2), (⟨0⟩, 2), (⟨1⟩, 2)] ∧
      (registrations effects).length = 4 := by
  have hempty : (World.initial .host ([] : List (InstanceId × Cell))).tasks = .empty := rfl
  obtain ⟨effects, w, hrun⟩ : ∃ effects w, useAll noting relayedUses (.initial .host []) = some (effects, w) :=
    (waiters_resumed_once hempty relayedUses).1 (by decide)
  have hlaw : Law noting (.initial .host []) effects w := (waiters_resumed_once hempty relayedUses).2 hrun
  have hhost : (useAll noting relayedUses (.initial .host [])).map (fun r => (r.1.length, r.2.host)) =
      some (8, [(⟨0⟩, 2), (⟨0⟩, 2), (⟨1⟩, 2)]) := by rfl
  have hregistered : (useAll noting relayedUses (.initial .host [])).map (fun r => (registrations r.1).length) =
      some 4 := by rfl
  rw [hrun] at hhost hregistered
  exact ⟨effects, w, hrun, hlaw, (Prod.mk.inj (Option.some.inj hhost)).2, Option.some.inj hregistered⟩

end Tasks

end Interpose

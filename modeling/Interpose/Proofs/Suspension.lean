import Interpose.Proofs.Replies
import Interpose.Proofs.TaskEntries

/-!
# What becomes of a suspended call

When the call that an intercepted call passes on comes back suspended, the frame of the intercepted call says what to
do: the instance is handed to the task system or to the thread system, exactly once, and the call counts as a success; in
all other cases the suspension is rejected. The frame that is read then is the one that the call opened, as the requests
made in the call itself have left it, whatever frames were opened and closed above it in the meantime; it is gone if the
instance was forgotten.

Main definition: `Machine.Routes`; what the two systems make of a call is `Machine.remembering` and `Machine.detaching`.

Main statement: `Machine.routes_suspension`.
-/

namespace Interpose.Machine

open World

variable {σ : Type}

/-! ## How a call ends -/

/-- What comes of asking the task system of a layer to remember a token: the answer, the host's own state, and the tasks. A
task system of the host's is asked once, and the tasks of the world remember the token last. -/
def remembering (host : Host σ) (k : SubsystemId) (task : TaskId) (token : Token) (w : World σ) :
    TaskSystem → Except String Unit × σ × Tasks
  | .unsupported => (.error ("no task system to await task " ++ toString task.raw.val), w.host, w.tasks)
  | .host =>
    let (answer, state) := host.register k task token w.host
    (answer, state, w.tasks)
  | .tasks =>
    match w.tasks.entry? task with
    | some { result := none, waiters } =>
      (.ok (), w.host, w.tasks.put task { result := none, waiters := waiters ++ [token] })
    | some { result := some _, .. } => (.error (TaskError.completed task.raw).message, w.host, w.tasks)
    | none => (.error (TaskError.invalidId task.raw).message, w.host, w.tasks)

/-- What a thread system does that an instance is handed to. One of the host's may run code of its own, which may not come
to an end. -/
def detaching (host : Host σ) (calls : Calls σ) (k : SubsystemId) (i : InstanceId) (marker : ReclaimMarker) :
    ThreadSystem → Run σ Unit
  | .unsupported => Run.act (Act.record (.notice (.detachIgnored i marker)))
  | .host => Run.within (.detach k i) ((host.detach k i marker).run host calls)

/-- A call through layer `k` ends with an answer: since the world `w` the journal has the entries `log`, and after them
those of the end of the call; `systems` is what became of the host's own state and of the tasks; and `error` is what is
recorded on the instance. -/
def EndsWith (k : SubsystemId) (i : InstanceId) (o : Outcome σ ExecReply) (w : World σ) (left : Nat) (log : List Event)
    (systems : σ × Tasks) (error : Option Status) (reply : ExecReply) : Prop :=
  ∃ w', o = .done reply w' left ∧ w'.events = w.events ++ log ++ closing k i (w.frames k i) ∧
    (w'.host, w'.tasks) = systems ∧ (w'.instance? i).map Instance.error = some error

/-- What a suspension comes to, whose answer was `r` in the world `w`: `f` is the frame of the call as it stands, and
`slot` the caller's place for a result. -/
def Routes (host : Host σ) (calls : Calls σ) (k : SubsystemId) (i : InstanceId) (slot : Option Cell) (r : ExecReply)
    (d : Activity) (w : World σ) (left : Nat) (o : Outcome σ ExecReply) (f : Option Frame) : Prop :=
  -- the suspension is rejected after the entries `log`
  let rejected := fun log systems => EndsWith k i o w left log systems (some .invalidState) (.failure .invalidState r.slot)
  match f with
  | none => rejected [.notice (.contextLost i)] (w.host, w.tasks)
  | some f =>
    let written := slot.map fun _ => f.result
    match f.reason, f.awaiting with
    | .none, _ => rejected [.notice (.sleepWithoutReason i)] (w.host, w.tasks)
    | .await, none => rejected [.notice (.awaitWithoutTask i)] (w.host, w.tasks)
    | .await, some task =>
      -- the task system is asked, and its answer decides
      ∃ s a, w.subsystem? k = some s ∧ w.instance? i = some a ∧
        match remembering host k task ⟨i, a.registers⟩ w s.collaborators.tasks with
        | (.ok _, systems) =>
          EndsWith k i o w left [.registered k task ⟨i, a.registers⟩] systems none (.success written)
        | (.error why, systems) =>
          rejected [.registered k task ⟨i, a.registers⟩, .notice (.registrationFailed i task why)] systems
    | .detach, _ =>
      -- the thread system is called once, after the result has been written
      ∃ s, w.subsystem? k = some s ∧
        let handed := detaching host calls k i f.reclaim s.collaborators.threads d
          (w.record (.detached k i f.reclaim written)) left
        (∃ es, handed.world.events = w.events ++ .detached k i f.reclaim written :: es) ∧
          match handed with
          | .done _ w' left' => EndsWith k i o w' left' [] (w'.host, w'.tasks) none (.success written)
          | .cut d' w' => o = .cut d' w'

section

variable {host : Host σ} {calls : Calls σ} {k : SubsystemId} {i : InstanceId} {d : Activity} {w : World σ} {left : Nat}

/-- What an intercepted call does once the call that it passed on has its answer. -/
def settleAndClose (host : Host σ) (calls : Calls σ) (k : SubsystemId) (i : InstanceId) (r : ExecReply) :
    Run σ ExecReply := do
  let r ← settle host calls k i r
  Run.act (closeCall k i)
  pure r

/-- Once the answer of a call is settled, the call is closed and its answer stays. -/
theorem closed_of_done {x : Run σ ExecReply} {w₁ w₂ : World σ} {fuel left₂ : Nat} {reply : ExecReply}
    (hx : x d w₁ fuel = .done reply w₂ left₂) (hk : (w₂.subsystem? k).isSome) :
    ∃ w', (x >>= fun r => Run.act (closeCall k i) >>= fun _ => pure r) d w₁ fuel = .done reply w' left₂ ∧
      closeCall k i w₂ = some ((), w') := by
  obtain ⟨u, w', hclose, -⟩ := answers_closeCall (i := i) w₂ hk
  refine ⟨w', ?_, hclose⟩
  rw [Run.bind_of_done hx, Run.bind_of_done (Run.act_of_some hclose d left₂)]
  rfl

theorem EndsWith.of_settled {x : Run σ ExecReply} {w₂ : World σ} {left₂ : Nat} {log : List Event} {systems : σ × Tasks}
    {error : Option Status} {reply : ExecReply} {fuel : Nat} {w₁ : World σ} (hx : x d w₁ fuel = .done reply w₂ left₂)
    (hk : (w.subsystem? k).isSome) (hstill : FramesStill k w w₂) (hlog : w₂.events = w.events ++ log)
    (hsystems : (w₂.host, w₂.tasks) = systems) (herror : (w₂.instance? i).map Instance.error = some error) :
    EndsWith k i ((x >>= fun r => Run.act (closeCall k i) >>= fun _ => pure r) d w₁ fuel) w left₂ log systems error
      reply := by
  obtain ⟨w', hdone, hclose⟩ := closed_of_done (i := i) hx (hstill.persists.layers k hk)
  refine ⟨w', hdone, ?_, ?_, ?_⟩
  · rw [(tells_closeCall hclose).1.journal, hlog, hstill.frames]
  · rw [host_closeCall hclose, tasks_closeCall hclose, hsystems]
  · rw [instance?_closeCall hclose, herror]

/-! ## Single operations -/

theorem reject_eq {a : Instance} (ha : w.instance? i = some a) (why : Notice) (slot : Option Cell) :
    reject i why slot w = some (.failure .invalidState slot,
      (w.record (.notice why)).setInstance i (a.raise .invalidState)) := by
  have hraise : Act.raise i .invalidState (w.record (.notice why)) =
      some (.invalidState, (w.record (.notice why)).setInstance i (a.raise .invalidState)) :=
    congrArg (Option.map _) ha
  have hnotify : Act.notify why w = some ((), w.record (.notice why)) := rfl
  unfold reject
  rw [Act.bind_of_some hnotify, Act.bind_of_some hraise]
  rfl

/-- The tasks of the world remember a token if the task is pending, and say why not otherwise. -/
theorem registerWithTasks_eq (host : Host σ) (k : SubsystemId) (w : World σ) (task : TaskId) (token : Token) :
    ∃ v, registerWithTasks task token w = some ((remembering host k task token w .tasks).1, v) ∧
      (v.host, v.tasks) = (remembering host k task token w .tasks).2 ∧ v.events = w.events ∧
      ∀ j, v.instance? j = w.instance? j := by
  have hrefused : ∀ {e : TaskError}, w.tasks.refusal? task = some e →
      registerWithTasks task token w = some (.error e.message, w) := fun hrefusal =>
    Act.bind_of_some (Act.registerWaiter_refused hrefusal token)
  unfold remembering Tasks.refusal? at *
  cases hentry : w.tasks.entry? task with
  | none =>
    rw [hentry] at hrefused
    exact ⟨w, hrefused rfl, rfl, rfl, fun _ => rfl⟩
  | some entry =>
    rw [hentry] at hrefused
    obtain ⟨result, waiters⟩ := entry
    cases result with
    | some value => exact ⟨w, hrefused rfl, rfl, rfl, fun _ => rfl⟩
    | none => exact ⟨_, Act.bind_of_some (Act.registerWaiter_pending hentry rfl token), rfl, rfl, fun _ => rfl⟩

/-- The task system of a layer is asked once, and the journal tells that it was. -/
theorem register_eq (host : Host σ) {s : Subsystem} (hs : w.subsystem? k = some s) (task : TaskId) (token : Token) :
    ∃ v, register host k task token w = some ((remembering host k task token w s.collaborators.tasks).1, v) ∧
      (v.host, v.tasks) = (remembering host k task token w s.collaborators.tasks).2 ∧
      v.events = w.events ++ [.registered k task token] ∧ ∀ j, v.instance? j = w.instance? j := by
  have hget : Act.getSubsystem k w = some (s, w) := congrArg (Option.map _) hs
  have htold : Act.record (.registered k task token) w = some ((), w.record (.registered k task token)) := rfl
  unfold register
  rw [Act.bind_of_some hget, Act.bind_of_some htold]
  cases s.collaborators.tasks with
  | unsupported => exact ⟨_, rfl, rfl, events_record .., fun _ => rfl⟩
  | host => exact ⟨_, rfl, rfl, events_record .., fun _ => rfl⟩
  | tasks =>
    obtain ⟨v, hanswer, hsystems, hevents, hinstances⟩ :=
      registerWithTasks_eq host k (w.record (.registered k task token)) task token
    exact ⟨v, hanswer, hsystems, hevents.trans (events_record ..), hinstances⟩

/-- An instance is handed to the thread system of a layer once the journal has told it. -/
theorem detach_eq (host : Host σ) (calls : Calls σ) {s : Subsystem} (hs : w.subsystem? k = some s) (i : InstanceId)
    (marker : ReclaimMarker) (slot : Option Cell) (d : Activity) (left : Nat) :
    detach host calls k i marker slot d w left =
      detaching host calls k i marker s.collaborators.threads d (w.record (.detached k i marker slot)) left := by
  have hget : Act.getSubsystem k w = some (s, w) := congrArg (Option.map _) hs
  have htold : Act.record (.detached k i marker slot) w = some ((), w.record (.detached k i marker slot)) := rfl
  unfold detach
  rw [Run.bind_of_done (Run.act_of_some hget d left), Run.bind_of_done (Run.act_of_some htold d left)]
  cases s.collaborators.threads <;> rfl

theorem clearError_eq {a : Instance} (ha : w.instance? i = some a) :
    clearError i w = some ((), w.setInstance i { a with error := none }) :=
  congrArg (Option.map _) ha

theorem error_setInstance {a : Instance} (ha : w.instance? i = some a) (b : Instance) :
    ((w.setInstance i b).instance? i).map Instance.error = some b.error := by
  rw [instance?_setInstance ha, if_pos rfl]
  rfl

/-! ## What a suspension comes to -/

/-- A rejected suspension ends the call with the status `invalidState`. -/
theorem EndsWith.of_reject {w₁ : World σ} {a : Instance} {log : List Event} {systems : σ × Tasks} {why : Notice}
    (hwhy : (Event.notice why).isRemark = true) (slot : Option Cell) (hk : (w.subsystem? k).isSome)
    (hstill : FramesStill k w w₁) (hlog : w₁.events = w.events ++ log) (hsystems : (w₁.host, w₁.tasks) = systems)
    (ha : w₁.instance? i = some a) :
    EndsWith k i ((Run.act (reject i why slot) >>= fun r => Run.act (closeCall k i) >>= fun _ => pure r) d w₁ left) w
      left (log ++ [.notice why]) systems (some .invalidState) (.failure .invalidState slot) := by
  have hreject := reject_eq ha why slot
  have hquiet : (reject i why slot : Act σ ExecReply).IsQuiet := keeps_reject Act.mild_quiet i hwhy slot
  refine .of_settled (Run.act_of_some hreject d left) hk (hstill.trans (hquiet.still hreject)) ?_ hsystems ?_
  · rw [events_setInstance, events_record, hlog, List.append_assoc]
  · exact error_setInstance (w := w₁.record (.notice why)) ha _

variable (hhost : host.UsesOnly (.operations (Operation.leavesFrames k))) (hcalls : ∀ c, (calls c).KeepsFrames k)
include hhost hcalls

/-- The thread system may do what it likes; the journal is only written to. -/
theorem journal_detaching (marker : ReclaimMarker) (threads : ThreadSystem) :
    ∃ es, (detaching host calls k i marker threads d w left).world.events = w.events ++ es := by
  have hkeeps : (detaching host calls k i marker threads).KeepsFrames k := by
    cases threads with
    | unsupported => exact .still (Act.still_record fun _ => rfl)
    | host => exact .within (((regimeOfFrames hhost).discipline hcalls).detach k i marker)
  exact hkeeps.journal d w left

omit hhost hcalls in
/-- The place for a result may hold another value by now, but it is there if it was. -/
theorem written_eq {slot slot' : Option Cell} (h : slot'.isSome = slot.isSome) (c : Cell) :
    (slot'.map fun _ => c) = slot.map fun _ => c := by
  cases slot' <;> cases slot <;> first | rfl | cases h

omit hhost hcalls in
/-- The task system remembers a call that is to wait. -/
theorem route_registered {a : Instance} {v : World σ} {result : Cell} {task : TaskId} {reclaim : ReclaimMarker}
    (ha : w.instance? i = some a) (hregister : register host k task ⟨i, a.registers⟩ w = some (.ok (), v))
    (hv : v.instance? i = some a) (slot : Option Cell) :
    route host calls k i ⟨.await, result, some task, reclaim⟩ slot d w left =
      .done (.success (slot.map fun _ => result)) (v.setInstance i { a with error := none }) left := by
  have hget : Act.getInstance i w = some (a, w) := congrArg (Option.map _) ha
  show (Run.act (Act.getInstance i) >>= _) d w left = _
  rw [Run.bind_of_done (Run.act_of_some hget d left), Run.bind_of_done (Run.act_of_some hregister d left)]
  exact Run.bind_of_done (Run.act_of_some (clearError_eq hv) d left)

omit hhost hcalls in
/-- The task system refuses to remember it. -/
theorem route_refused {a : Instance} {v : World σ} {result : Cell} {task : TaskId} {reclaim : ReclaimMarker} {why : String}
    (ha : w.instance? i = some a) (hregister : register host k task ⟨i, a.registers⟩ w = some (.error why, v))
    (slot : Option Cell) :
    route host calls k i ⟨.await, result, some task, reclaim⟩ slot d w left =
      Run.act (reject i (.registrationFailed i task why) slot) d v left := by
  have hget : Act.getInstance i w = some (a, w) := congrArg (Option.map _) ha
  show (Run.act (Act.getInstance i) >>= _) d w left = _
  rw [Run.bind_of_done (Run.act_of_some hget d left), Run.bind_of_done (Run.act_of_some hregister d left)]

omit hhost hcalls in
/-- A call that is to wait for a task is handed to the task system, which is asked once and whose answer decides. -/
theorem routes_await {r : ExecReply} {slot : Option Cell} (hk : (w.subsystem? k).isSome) (hi : (w.instance? i).isSome)
    (hslot : r.slot.isSome = slot.isSome) (result : Cell) (task : TaskId) (reclaim : ReclaimMarker) :
    Routes host calls k i slot r d w left ((route host calls k i ⟨.await, result, some task, reclaim⟩ r.slot >>= fun r =>
      Run.act (closeCall k i) >>= fun _ => pure r) d w left) (some ⟨.await, result, some task, reclaim⟩) := by
  obtain ⟨s, hs⟩ := Option.isSome_iff_exists.1 hk
  obtain ⟨a, ha⟩ := Option.isSome_iff_exists.1 hi
  obtain ⟨v, hregister, hsystems, hlog, hinstances⟩ := register_eq host hs task ⟨i, a.registers⟩
  have hstill : FramesStill k w v :=
    keeps_register (.of_quiet Act.track_still fun hq => hq.framesStill) host k task _
      (fun w => Act.still_record (fun _ => rfl) rfl) hregister
  have hv : v.instance? i = some a := (hinstances i).trans ha
  refine ⟨s, a, hs, ha, ?_⟩
  -- by the answer of the task system, whatever it made of its own state
  rcases hasked : remembering host k task ⟨i, a.registers⟩ w s.collaborators.tasks with ⟨answer, systems⟩
  rw [hasked] at hregister hsystems
  cases answer with
  | error why =>
    rw [Run.bind_congr (route_refused ha hregister r.slot)]
    exact EndsWith.of_reject rfl r.slot hk hstill hlog hsystems hv
  | ok u =>
    have hroute : route host calls k i ⟨.await, result, some task, reclaim⟩ r.slot d w left =
        .done (.success (slot.map fun _ => result)) (v.setInstance i { a with error := none }) left := by
      rw [← written_eq hslot]
      exact route_registered ha hregister hv r.slot
    have hstill' : FramesStill k w (v.setInstance i { a with error := none }) :=
      hstill.trans (Act.still_onInstance i _ (clearError_eq hv))
    exact EndsWith.of_settled hroute hk hstill' hlog hsystems (error_setInstance hv _)

/-- A call that is to be detached is handed to the thread system, and then its error is cleared. -/
theorem routes_detach {r : ExecReply} {slot : Option Cell} (hk : (w.subsystem? k).isSome) (hi : (w.instance? i).isSome)
    (hslot : r.slot.isSome = slot.isSome) (result : Cell) (awaiting : Option TaskId) (reclaim : ReclaimMarker) :
    Routes host calls k i slot r d w left ((route host calls k i ⟨.detach, result, awaiting, reclaim⟩ r.slot >>= fun r =>
      Run.act (closeCall k i) >>= fun _ => pure r) d w left) (some ⟨.detach, result, awaiting, reclaim⟩) := by
  obtain ⟨s, hs⟩ := Option.isSome_iff_exists.1 hk
  have hroute : route host calls k i ⟨.detach, result, awaiting, reclaim⟩ r.slot =
      detach host calls k i reclaim (slot.map fun _ => result) >>= fun _ => Run.act (clearError i) >>= fun _ =>
        pure (.success (slot.map fun _ => result)) := by
    rw [← written_eq hslot]
    rfl
  let v := w.record (.detached k i reclaim (slot.map fun _ => result))
  obtain ⟨es, hes⟩ : ∃ es, (detaching host calls k i reclaim s.collaborators.threads d v left).world.events =
      v.events ++ es := journal_detaching hhost hcalls reclaim _
  rw [hroute, bind_assoc]
  refine ⟨s, hs, ⟨es, ?_⟩, ?_⟩
  · rw [hes, events_record, List.append_assoc]
    rfl
  -- the entry in the journal comes first, and then the thread system is called
  dsimp only
  rw [← detach_eq host calls hs]
  cases hdetach : detach host calls k i reclaim (slot.map fun _ => result) d w left with
  | cut d' w' => exact Run.bind_of_cut hdetach
  | done u w' left' =>
    rw [Run.bind_of_done hdetach]
    -- the instance and the layer are still there, whatever the thread system did
    obtain ⟨es, htells, -⟩ := (((regimeOfFrames hhost).discipline hcalls).handOver k i reclaim _ d w).of_done hdetach
    obtain ⟨b, hb⟩ := Option.isSome_iff_exists.1 (htells.persists.instances i hi)
    have hclear := clearError_eq hb
    have hhanded : (Run.act (clearError i) >>= fun _ => pure (.success (slot.map fun _ => result)) : Run σ ExecReply)
        d w' left' = .done (.success (slot.map fun _ => result)) (w'.setInstance i { b with error := none }) left' :=
      Run.bind_of_done (Run.act_of_some hclear d left')
    exact EndsWith.of_settled hhanded (htells.persists.layers k hk) (Act.still_onInstance i _ hclear)
      (List.append_nil _).symm rfl (error_setInstance hb _)

/-- The frame of a suspended call says what becomes of it. -/
theorem routes_route {r : ExecReply} {slot : Option Cell} (hk : (w.subsystem? k).isSome)
    (hi : (w.instance? i).isSome) (hslot : r.slot.isSome = slot.isSome) (f : Frame) :
    Routes host calls k i slot r d w left
      ((route host calls k i f r.slot >>= fun r => Run.act (closeCall k i) >>= fun _ => pure r) d w left) (some f) := by
  obtain ⟨a, ha⟩ := Option.isSome_iff_exists.1 hi
  have hnothing : w.events = w.events ++ [] := (List.append_nil _).symm
  obtain ⟨reason, result, awaiting, reclaim⟩ := f
  cases reason with
  | none => exact EndsWith.of_reject rfl r.slot hk (.refl w) hnothing rfl ha
  | await =>
    cases awaiting with
    | none => exact EndsWith.of_reject rfl r.slot hk (.refl w) hnothing rfl ha
    | some task => exact routes_await hk hi hslot result task reclaim
  | detach => exact routes_detach hhost hcalls hk hi hslot result awaiting reclaim

omit hhost hcalls in
/-- The frame that says what becomes of a suspended call is the innermost one. -/
theorem settle_suspended {r : ExecReply} (hk : (w.subsystem? k).isSome) (hsleep : r.status = .error .sleep) :
    settle host calls k i r d w left =
      ((w.frames k i).head?.elim (Run.act (reject i (.contextLost i) r.slot)) fun f => route host calls k i f r.slot)
        d w left := by
  obtain ⟨s, hs⟩ := Option.isSome_iff_exists.1 hk
  have hget : Act.getSubsystem k w = some (s, w) := congrArg (Option.map _) hs
  have htop : s.contexts.top? i = (w.frames k i).head? := by
    rw [frames_of_subsystem? hs]
    rfl
  unfold settle
  rw [hsleep]
  show (Run.act (Act.getSubsystem k) >>= _) d w left = _
  rw [Run.bind_of_done (Run.act_of_some hget d left), htop]
  cases (w.frames k i).head? <;> rfl

/-- A suspended call is settled as the innermost frame says. -/
theorem routes_settleAndClose {r : ExecReply} {slot : Option Cell} (hk : (w.subsystem? k).isSome)
    (hi : (w.instance? i).isSome) (hsleep : r.status = .error .sleep) (hslot : r.slot.isSome = slot.isSome) :
    Routes host calls k i slot r d w left (settleAndClose host calls k i r d w left) (w.frames k i).head? := by
  obtain ⟨a, ha⟩ := Option.isSome_iff_exists.1 hi
  unfold settleAndClose
  rw [Run.bind_congr (settle_suspended hk hsleep)]
  cases (w.frames k i).head? with
  | none => exact EndsWith.of_reject rfl r.slot hk (.refl w) (List.append_nil _).symm rfl ha
  | some f => exact routes_route hhost hcalls hk hi hslot f

end

/-- When the call that was passed on comes back suspended, the calls that were made in it are over, and what is left of the
frame is to settle the suspension. -/
theorem inFrame_suspended {host : Host σ} {k : SubsystemId} (hhost : host.UsesOnly (.operations (Operation.leavesFrames k)))
    {index : Cell} {depth : Nat} {i : InstanceId} {slot : Option Cell} {d : Activity} {w₀ w₁ : World σ} {fuel left : Nat}
    {r : ExecReply} (hk : (w₀.subsystem? k).isSome)
    (hinner : passOn (enter host depth) k i slot index d w₀ fuel = .done r w₁ left) (hsleep : r.status = .error .sleep) :
    ∃ es, Tells k w₀ w₁ es ∧ (∀ j, FrameChange.nested? 0 (frameChanges k j es) = some 0) ∧ (w₁.subsystem? k).isSome ∧
      (w₁.instance? i).isSome ∧ r.slot.isSome = slot.isSome ∧
      inFrame host (enter host depth) k i slot index d w₀ fuel =
        settleAndClose host (enter host depth) k i r d w₁ left := by
  have hcalls := keepsFrames_enter hhost depth
  obtain ⟨es, htells, hnested, -⟩ := ((regimeOfFrames hhost).passOn hcalls k i slot index d w₀).of_done hinner
  have hfaithful := (faithful_passOn (faithful_enter host depth) k).of_done hinner
  exact ⟨es, htells, hnested, htells.persists.layers k hk, hfaithful.sleeper hsleep, hfaithful.place,
    Run.bind_of_done hinner⟩

/-- That is all that is left of a call of a public index. -/
theorem reaches_settle {host : Host σ} {k : SubsystemId} (hhost : host.UsesOnly (.operations (Operation.leavesFrames k)))
    {index : Cell} (hindex : ExecIndex.IsPublic index) {depth : Nat} {i : InstanceId} {slot : Option Cell} {d : Activity}
    {w w₀ w₁ : World σ} {fuel left : Nat} {r : ExecReply} (hopen : openCall k i w = some ((), w₀))
    (hinner : passOn (enter host depth) k i slot index d w₀ fuel = .done r w₁ left) (hsleep : r.status = .error .sleep) :
    ∃ es, Tells k w₀ w₁ es ∧ (∀ j, FrameChange.nested? 0 (frameChanges k j es) = some 0) ∧ (w₁.subsystem? k).isSome ∧
      (w₁.instance? i).isSome ∧ r.slot.isSome = slot.isSome ∧
      intercepted host (enter host depth) k i slot index d w fuel =
        settleAndClose host (enter host depth) k i r d w₁ left := by
  rw [intercepted_public hindex, Run.bind_of_done (Run.act_of_some hopen d fuel)]
  exact inFrame_suspended hhost (isSome_of_openCall hopen) hinner hsleep

/-- Suspensions are routed exactly, in every run. No intercepted call of a public index comes back suspended. If the call
that it passed on did, then its own frame, as it stands at that moment, says what becomes of the suspension. -/
theorem routes_suspension {host : Host σ} {k : SubsystemId}
    (hhost : host.UsesOnly (.operations (Operation.leavesFrames k))) {index : Cell} (hindex : ExecIndex.IsPublic index)
    (depth : Nat) (i : InstanceId) (slot : Option Cell) (d : Activity) (w : World σ) (fuel : Nat) :
    (∀ r w' left, intercepted host (enter host depth) k i slot index d w fuel = .done r w' left →
      r.status ≠ .error .sleep) ∧
    ∀ w₀ r w₁ left, openCall k i w = some ((), w₀) →
      passOn (enter host depth) k i slot index d w₀ fuel = .done r w₁ left → r.status = .error .sleep →
      ∃ es f, w₁.events = w₀.events ++ es ∧
        -- the frame that the call opened, as far as the requests made in the call itself have changed it
        f = FrameChange.ownFrame 0 .fresh (frameChanges k i es) ∧ (f = none ↔ Unloaded k i es) ∧
        w₁.frames k i = f.elim [] (fun f => f :: w.frames k i) ∧
        Routes host (enter host depth) k i slot r d w₁ left
          (intercepted host (enter host depth) k i slot index d w fuel) f := by
  refine ⟨fun r w' left hr => ?_, fun w₀ r w₁ left hopen hinner hsleep => ?_⟩
  · exact ((awake_intercepted (faithful_enter host depth) k).of_done hr).1
  obtain ⟨es, htells, hnested, hthere, hsleeper, hplace, hrest⟩ := reaches_settle hhost hindex hopen hinner hsleep
  have hroutes : Routes host (enter host depth) k i slot r d w₁ left
      (settleAndClose host (enter host depth) k i r d w₁ left) (w₁.frames k i).head? :=
    routes_settleAndClose hhost (keepsFrames_enter hhost depth) hthere hsleeper hsleep hplace
  rw [hrest]
  refine ⟨es, (w₁.frames k i).head?, htells.journal, ?_⟩
  rcases htells.own (hnested i) (frames_openCall hopen) with ⟨hown, hi, hframes⟩ | ⟨f, hown, hi, hframes⟩
  · rw [hframes] at hroutes ⊢
    exact ⟨hown.symm, ⟨fun _ => hi, fun _ => rfl⟩, rfl, hroutes⟩
  · rw [hframes] at hroutes ⊢
    exact ⟨hown.symm, ⟨nofun, fun h => absurd h hi⟩, rfl, hroutes⟩

/-- A script that asks to wait and suspends its call. -/
def waitingScript (_ : Code) (i : InstanceId) : Program σ (Except Status Cell) :=
  .act (.requestAwait ⟨0⟩ i ⟨1⟩ 1) fun s => .done (.error s)

/-- A host with that script, and with a task system that keeps all that it is asked to remember. -/
def rememberingHost : Host (List (TaskId × Token)) :=
  { Host.scripted waitingScript with register := fun _ task token asked => (.ok (), asked ++ [(task, token)]) }

/-- A world in which that script is loaded, and every hook is switched on. -/
def rememberingWorld : World (List (TaskId × Token)) :=
  let setUp : Program (List (TaskId × Token)) Unit := do
    let i ← Program.perform (.newInstance 4)
    let _ ← Program.perform (.addFunction i "main" ⟨0⟩)
    let _ ← Program.perform (.installAll ⟨0⟩)
  (setUp.runIn rememberingHost 9 (.single #[] .drop [] .standard ⟨.host, .unsupported, .unsupported⟩)).world

/-- A call that is to wait is a success, and the task system was asked for it once. -/
theorem routes_suspension_waiting :
    ∃ w₀ r w₁ left f a w', openCall ⟨0⟩ ⟨0⟩ rememberingWorld = some ((), w₀) ∧
      passOn (enter rememberingHost 3) ⟨0⟩ ⟨0⟩ (some 0) 0 .outside w₀ 9 = .done r w₁ left ∧
      w₁.host = [] ∧ w₁.instance? ⟨0⟩ = some a ∧ f.reason = .await ∧
      Routes rememberingHost (enter rememberingHost 3) ⟨0⟩ ⟨0⟩ (some 0) r .outside w₁ left
        (intercepted rememberingHost (enter rememberingHost 3) ⟨0⟩ ⟨0⟩ (some 0) 0 .outside rememberingWorld 9) (some f) ∧
      intercepted rememberingHost (enter rememberingHost 3) ⟨0⟩ ⟨0⟩ (some 0) 0 .outside rememberingWorld 9 =
        .done (.success (some 1)) w' left ∧
      w'.host = [(⟨1⟩, ⟨⟨0⟩, a.registers⟩)] := by
  have hhost : rememberingHost.UsesOnly (.operations (Operation.leavesFrames ⟨0⟩)) :=
    ⟨fun _ _ => ⟨trivial, fun _ => trivial⟩, fun _ _ _ => trivial, fun _ _ _ _ => trivial, fun _ _ _ _ => trivial,
      fun _ _ _ => trivial⟩
  have hindex : ExecIndex.IsPublic 0 := fun id h => nomatch h
  have hruns : (openCall ⟨0⟩ ⟨0⟩ rememberingWorld).any (fun opened =>
      (passOn (enter rememberingHost 3) ⟨0⟩ ⟨0⟩ (some 0) 0 .outside opened.2 9).done?.any fun m =>
        m.1.isSuspended && decide (m.2.host = [] ∧ m.2.frames ⟨0⟩ ⟨0⟩ = [⟨.await, 1, some ⟨1⟩, ⟨0⟩⟩]) &&
          (m.2.subsystem? ⟨0⟩).all fun s => decide (s.collaborators.tasks = .host)) = true := by
    decide +kernel
  obtain ⟨⟨u, w₀⟩, hopen, hinner⟩ := (Option.any_eq_true _ _).1 hruns
  obtain ⟨r, w₁, left, hinner, hsuspended⟩ := Outcome.exists_done hinner
  simp only [Bool.and_eq_true, decide_eq_true_eq] at hsuspended
  obtain ⟨⟨hsleep, hnobody, hframe⟩, htasks⟩ := hsuspended
  have hroutes := (routes_suspension hhost hindex 3 ⟨0⟩ (some 0) .outside rememberingWorld 9).2
  obtain ⟨es, f, -, -, -, hframes, hf⟩ := hroutes w₀ r w₁ left hopen hinner (ExecReply.isSuspended_iff.1 hsleep)
  rw [hframes] at hframe
  cases f with
  | none => cases hframe
  | some f =>
    obtain ⟨rfl, -⟩ := List.cons.inj hframe
    obtain ⟨s, a, hs, ha, hasked⟩ := id hf
    rw [hs, Option.all_some, decide_eq_true_eq] at htasks
    rw [htasks] at hasked
    -- the task system of the host answers that it remembers the token
    obtain ⟨w', hdone, -, hsystems, -⟩ := hasked
    refine ⟨w₀, r, w₁, left, ⟨.await, 1, some ⟨1⟩, ⟨0⟩⟩, a, w', hopen, hinner, hnobody, ha, rfl, hf, hdone, ?_⟩
    rw [(Prod.mk.inj hsystems).1, hnobody]
    rfl

end Interpose.Machine

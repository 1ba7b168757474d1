import Interpose.Proofs.Stocks
import Interpose.Proofs.Waiting

/-!
# Tasks throughout a run

Between two moments of a run tasks undergo a list of effects, whatever else happens meanwhile. The journal tells who was
resumed with what, if there is a resumer that does it, and which tasks were dropped; and the systems that a hook layer
hands work to are what they were when it was made (`World.Proceeds`). All this is steady, so it holds from each moment to
each later one, and of whatever code goes on from a world.

Main statements: `Machine.proceeds_run`; and `waiting_entries`, by which one who waits for a task still waits, or was handed
its result exactly once, unless the task was dropped.
-/

namespace Interpose

open World

variable {σ α : Type}

namespace Tasks

/-! ## Effects in a row -/

/-- The tasks there are after an effect. -/
def Effect.on (e : Effect) (entries : TaskId → Option Task) (task : TaskId) : Option Task :=
  if task = e.task then e.change (entries e.task) else entries task

/-- Whether effects are possible one after another. -/
def Possible (entries : TaskId → Option Task) : List Effect → Prop
  | [] => True
  | e :: rest => e.Allowed (entries e.task) ∧ Possible (e.on entries) rest

/-- The tasks there are after effects in a row. -/
def entriesAfter (entries : TaskId → Option Task) (effects : List Effect) : TaskId → Option Task :=
  effects.foldl (fun entries e => e.on entries) entries

/-- What is handed on by effects in a row. -/
def handedFrom (entries : TaskId → Option Task) : List Effect → List (Token × Cell)
  | [] => []
  | e :: rest => e.hands (entries e.task) ++ handedFrom (e.on entries) rest

/-- The task that an effect drops. -/
def Effect.dropped? : Effect → Option TaskId
  | dropped task => some task
  | _ => none

variable {entries : TaskId → Option Task} {effects later : List Effect} {task : TaskId} {waiters : List Token}

theorem possible_append :
    Possible entries (effects ++ later) ↔ Possible entries effects ∧ Possible (entriesAfter entries effects) later := by
  induction effects generalizing entries with
  | nil => exact (true_and _).symm.to_iff
  | cons e rest ih =>
    show _ ∧ Possible _ (rest ++ later) ↔ (_ ∧ _) ∧ _
    rw [ih, and_assoc]
    rfl

theorem handedFrom_append :
    handedFrom entries (effects ++ later) =
      handedFrom entries effects ++ handedFrom (entriesAfter entries effects) later := by
  induction effects generalizing entries with
  | nil => rfl
  | cons e rest ih =>
    show _ ++ handedFrom _ (rest ++ later) = (_ ++ _) ++ _
    rw [ih, List.append_assoc]
    rfl

/-- Nothing but being dropped happens to a task that has its result. -/
theorem completed_entries {value : Cell} (h : Possible entries effects)
    (hentry : entries task = some { result := some value, waiters := [] }) (hdropped : .dropped task ∉ effects) :
    entriesAfter entries effects task = some { result := some value, waiters := [] } ∧
      ∀ other, .completed task other ∉ effects := by
  induction effects generalizing entries with
  | nil => exact ⟨hentry, fun _ => List.not_mem_nil⟩
  | cons e rest ih =>
    obtain ⟨hallowed, hrest⟩ := h
    -- a task with a result is there already, and accepts neither a waiter nor another result
    have hother : e.task ≠ task := by
      rintro rfl
      rw [hentry] at hallowed
      cases e with
      | made => cases hallowed
      | dropped => exact hdropped List.mem_cons_self
      | joined | completed =>
        obtain ⟨x, hx, hpending⟩ := hallowed
        cases hx
        cases hpending
    have hstill : e.on entries task = some { result := some value, waiters := [] } := by
      rw [Effect.on, if_neg (Ne.symm hother), hentry]
    obtain ⟨hafter, hnone⟩ := ih hrest hstill fun hm => hdropped (List.mem_cons_of_mem _ hm)
    refine ⟨hafter, fun other hm => ?_⟩
    rcases List.mem_cons.1 hm with rfl | hm
    · exact hother rfl
    · exact hnone other hm

/-- Those who wait for a task still wait for it, in front of those who came later, and it was given no result. -/
def StillWaiting (entries : TaskId → Option Task) (task : TaskId) (waiters : List Token) (effects : List Effect) : Prop :=
  ∃ more, entriesAfter entries effects task = some { result := none, waiters := waiters ++ more } ∧
    ∀ value, .completed task value ∉ effects

/-- A task was given a result once, and this handed it to all who waited then, those who came later included. -/
def HandedOnce (entries : TaskId → Option Task) (task : TaskId) (waiters : List Token) (effects : List Effect)
    (value : Cell) : Prop :=
  ∃ more before after, effects = before ++ .completed task value :: after ∧
    (∀ other, .completed task other ∉ before ∧ .completed task other ∉ after) ∧
    entriesAfter entries effects task = some { result := some value, waiters := [] } ∧
    handedFrom entries effects = handedFrom entries before ++ (waiters ++ more).map (fun token => (token, value)) ++
      handedFrom (entriesAfter entries (before ++ [.completed task value])) after

/-- An effect that leaves a task pending, with some more who wait for it perhaps. -/
theorem waiting_cons {e : Effect} {joined : List Token} (hne : ∀ value, e ≠ .completed task value)
    (h : StillWaiting (e.on entries) task (waiters ++ joined) effects ∨
      ∃ value, HandedOnce (e.on entries) task (waiters ++ joined) effects value) :
    StillWaiting entries task waiters (e :: effects) ∨ ∃ value, HandedOnce entries task waiters (e :: effects) value := by
  rcases h with ⟨more, hentry, hnone⟩ | ⟨value, more, before, after, rfl, honce, hentry, hhanded⟩
  · refine .inl ⟨joined ++ more, by rw [← List.append_assoc]; exact hentry, fun value hm => ?_⟩
    rcases List.mem_cons.1 hm with heq | hm
    · exact hne value heq.symm
    · exact hnone value hm
  · refine .inr ⟨value, joined ++ more, e :: before, after, rfl, fun other => ⟨fun hm => ?_, (honce other).2⟩, hentry, ?_⟩
    · rcases List.mem_cons.1 hm with heq | hm
      · exact hne other heq.symm
      · exact (honce other).1 hm
    · rw [handedFrom, handedFrom, hhanded, List.append_assoc waiters joined more]
      simp only [List.append_assoc]
      rfl

/-- Those who wait for a task are handed its result at most once, and exactly once if it is given one, unless the task is
dropped. -/
theorem waiting_entries (h : Possible entries effects) (hentry : entries task = some { result := none, waiters })
    (hdropped : .dropped task ∉ effects) :
    StillWaiting entries task waiters effects ∨ ∃ value, HandedOnce entries task waiters effects value := by
  induction effects generalizing entries waiters with
  | nil => exact .inl ⟨[], by rw [List.append_nil]; exact hentry, fun _ => List.not_mem_nil⟩
  | cons e rest ih =>
    obtain ⟨hallowed, hrest⟩ := h
    have hdropped' : .dropped task ∉ rest := fun hm => hdropped (List.mem_cons_of_mem _ hm)
    by_cases htask : e.task = task
    · subst htask
      cases e with
      | made task =>
        -- a number that is in use is not given to a new task
        cases hentry.symm.trans hallowed
      | dropped task => exact absurd List.mem_cons_self hdropped
      | joined task token =>
        have hjoined : (Effect.joined task token).on entries task =
            some { result := none, waiters := waiters ++ [token] } := by
          have hentry : entries task = some { result := none, waiters } := hentry
          simp [Effect.on, Effect.task, Effect.change, hentry]
        have hne : ∀ value, Effect.joined task token ≠ .completed task value := fun value h => Effect.noConfusion h
        exact waiting_cons hne (ih hrest hjoined hdropped')
      | completed task value =>
        -- this is the one time: from here on the task has its result
        have hentry : entries task = some { result := none, waiters } := hentry
        have hcompleted : (Effect.completed task value).on entries task = some { result := some value, waiters := [] } :=
          if_pos rfl
        obtain ⟨hafter, hnone⟩ := completed_entries hrest hcompleted hdropped'
        refine .inr ⟨value, [], [], rest, rfl, fun other => ⟨List.not_mem_nil, hnone other⟩, hafter, ?_⟩
        simp [handedFrom, Effect.hands, Effect.task, hentry, entriesAfter]
    · have hstill : e.on entries task = some { result := none, waiters := waiters ++ [] } := by
        rw [Effect.on, if_neg (Ne.symm htask), List.append_nil, hentry]
      exact waiting_cons (fun value heq => htask (heq ▸ rfl)) (ih hrest hstill hdropped')

end Tasks

open Tasks

/-! ## From one world to a later one -/

/-- Whom an entry of the journal tells to have been resumed, and with what. -/
def Event.resumed? : Event → Option (Token × Cell)
  | .resumed token value => some (token, value)
  | _ => none

/-- Which task an entry of the journal tells to have been dropped. -/
def Event.droppedTask? : Event → Option TaskId
  | .taskRemoved task => some task
  | _ => none

theorem Tasks.Effect.resumed?_tells (e : Effect) (entry : Option Task) :
    (e.tells .host entry).filterMap Event.resumed? = e.hands entry := by
  have hmap : ∀ handed : List (Token × Cell), (handed.map Resumer.host.tells).filterMap Event.resumed? = handed := by
    intro handed
    rw [List.filterMap_map]
    exact List.filterMap_some
  cases e with
  | dropped task => rfl
  | _ => exact hmap _

theorem Tasks.Effect.droppedTask?_tells (e : Effect) (resumer : Resumer) (entry : Option Task) :
    (e.tells resumer entry).filterMap Event.droppedTask? = [e].filterMap Effect.dropped? := by
  have hmap : ∀ handed : List (Token × Cell), (handed.map resumer.tells).filterMap Event.droppedTask? = [] := by
    intro handed
    refine List.filterMap_eq_nil_iff.2 fun e he => ?_
    obtain ⟨x, -, rfl⟩ := List.mem_map.1 he
    cases resumer <;> rfl
  cases e with
  | dropped task => rfl
  | _ => exact hmap _

namespace World

/-- The systems that a hook layer hands work to. -/
def collaborators? (w : World σ) (k : SubsystemId) : Option Collaborators :=
  (w.stock? k).map Stock.collaborators

/-- What becomes of tasks, and of what a hook layer hands work to, from one world to a later one. -/
structure Proceeds (w : World σ) (effects : List Effect) (w' : World σ) : Prop where
  resumer : w'.resumer = w.resumer
  collaborators : ∀ {k c}, w.collaborators? k = some c → w'.collaborators? k = some c
  possible : Possible w.tasks.entry? effects
  entries : w'.tasks.entry? = entriesAfter w.tasks.entry? effects
  /-- The journal tells who was resumed, by a resumer that does it, and which tasks were dropped. -/
  journal : ∃ es, w'.events = w.events ++ es ∧
    (w.resumer = .host → es.filterMap Event.resumed? = handedFrom w.tasks.entry? effects) ∧
    es.filterMap Event.droppedTask? = effects.filterMap Effect.dropped?

namespace Proceeds

variable {u v w w' : World σ} {effects later : List Effect} {es : List Event}

theorem trans (h : Proceeds u effects v) (h' : Proceeds v later w) : Proceeds u (effects ++ later) w := by
  obtain ⟨es, hes, hresumed, hdropped⟩ := h.journal
  obtain ⟨es', hes', hresumed', hdropped'⟩ := h'.journal
  have hpossible := h'.possible
  rw [h.entries] at hpossible hresumed'
  refine ⟨h'.resumer.trans h.resumer, fun hc => h'.collaborators (h.collaborators hc),
    possible_append.2 ⟨h.possible, hpossible⟩, ?_, es ++ es', by rw [hes', hes, List.append_assoc], fun hhost => ?_, ?_⟩
  · rw [h'.entries, h.entries]
    exact List.foldl_append.symm
  · rw [List.filterMap_append, hresumed hhost, hresumed' (h.resumer.trans hhost), handedFrom_append]
  · rw [List.filterMap_append, List.filterMap_append, hdropped, hdropped']

/-- Nothing happens to tasks, and the journal tells nothing of them. -/
theorem idle (ht : w'.tasks = w.tasks) (hr : w'.resumer = w.resumer)
    (hc : ∀ {k c}, w.collaborators? k = some c → w'.collaborators? k = some c) (hj : w'.events = w.events ++ es)
    (hes : ∀ e ∈ es, e.resumed? = none ∧ e.droppedTask? = none) : Proceeds w [] w' := by
  refine ⟨hr, hc, trivial, by rw [ht]; rfl, es, hj, fun _ => ?_, ?_⟩
  · exact List.filterMap_eq_nil_iff.2 fun e he => (hes e he).1
  · exact List.filterMap_eq_nil_iff.2 fun e he => (hes e he).2

theorem refl (w : World σ) : Proceeds w [] w :=
  .idle rfl rfl id (List.append_nil _).symm (by simp)

/-- One stock is another. -/
theorem restocked {l : SubsystemId} {x y : Stock} (h : Restocked l x y w w') (hxy : y.collaborators = x.collaborators)
    (hj : w'.events = w.events ++ es) (hes : ∀ e ∈ es, e.resumed? = none ∧ e.droppedTask? = none) :
    Proceeds w [] w' := by
  refine .idle h.tasks h.resumer (fun {k c} hc => ?_) hj hes
  unfold collaborators? at hc ⊢
  rw [h.after]
  split
  · rename_i hk
    rw [hk, h.before] at hc
    exact (congrArg some hxy).trans hc
  · exact hc

/-- An operation on tasks has its effect, if any. -/
theorem used {resume : Resume σ} {effect : Option Effect} (h : Used resume w effect w') :
    Proceeds w effect.toList w' := by
  have hsame : w'.subsystems = w.subsystems → ∀ {k c}, w.collaborators? k = some c → w'.collaborators? k = some c := by
    intro hs k c hc
    unfold collaborators? stock? subsystem? at hc ⊢
    rw [hs]
    exact hc
  cases effect with
  | none =>
    refine ⟨h.resumer, hsame h.subsystems, trivial, funext h.entries, [], ?_, fun _ => rfl, rfl⟩
    rw [h.journal, List.append_nil]
  | some e =>
    refine ⟨h.resumer, hsame h.subsystems, ⟨h.leads.allowed, trivial⟩, funext h.leads.entries, _, h.journal, ?_, ?_⟩
    · intro hhost
      rw [hhost, e.resumed?_tells]
      exact (List.append_nil _).symm
    · exact e.droppedTask?_tells _ _

end Proceeds

/-- A world comes after another. -/
def Onward (w w' : World σ) : Prop :=
  ∃ effects, Proceeds w effects w'

end World

namespace Act

theorem track_onward : Track (Onward : World σ → World σ → Prop) where
  refl w := ⟨[], .refl w⟩
  trans := by
    rintro u v w ⟨effects, h⟩ ⟨later, h'⟩
    exact ⟨effects ++ later, h.trans h'⟩

theorem onward_onPool (l : SubsystemId) (f : Pool → α × Pool) : (onPool l f : Act σ α).Keeps Onward := by
  intro w a w' h
  obtain ⟨x, hx⟩ := restocked_of_onSubsystem h
  have hpool := hx.onSubsystem h (fun y => { y with pool := (f y.pool).2 }) fun _ => rfl
  exact ⟨[], .restocked hpool rfl (by rw [events_onSubsystem h, List.append_nil]) (by simp)⟩

theorem keepsTasks_onward : KeepsTasks (Onward : World σ → World σ → Prop) where
  -- these continue nobody, whatever it is that would
  create _ _ _ h := ⟨_, .used (show Used (fun _ _ state => state) _ _ _ from used_createTask h)⟩
  register _ _ _ _ _ h := ⟨_, .used (show Used (fun _ _ state => state) _ _ _ from used_registerWaiter h)⟩
  complete _ _ _ _ _ _ h := ⟨_, .used (used_completeTask h)⟩
  remove _ _ _ _ h := ⟨_, .used (show Used (fun _ _ state => state) _ _ _ from used_removeTask h)⟩

theorem steady_onward : Steady (Onward : World σ → World σ → Prop) := by
  refine .of_stocks track_onward (fun {w w'} h => ?_) (fun {w l s q} hs _ => ?_) (fun l id w r w' h => ?_)
    keepsTasks_onward fun w e he => ?_
  · refine ⟨[], .idle h.tasks h.resumer (fun hc => ?_) (by rw [h.events, List.append_nil]) (by simp)⟩
    unfold collaborators? at hc ⊢
    rw [h.layers]
    exact hc
  · exact onward_onPool l (fun _ => ((), q)) (congrArg (Option.map _) hs)
  · obtain ⟨x, hx, hevents⟩ := removeString_spec h
    refine ⟨[], .restocked hx rfl hevents fun e he => ?_⟩
    split at he
    · rw [List.mem_singleton.1 he]
      exact ⟨rfl, rfl⟩
    · cases he
  · refine ⟨[], .idle rfl rfl id (events_record w e) fun d hd => ?_⟩
    rw [List.mem_singleton.1 hd]
    cases e <;> first | exact ⟨rfl, rfl⟩ | cases he

/-- Whatever the host asks for. -/
theorem onward_perform (ids : CallbackIds σ) (resume : Resume σ) (o : Operation) :
    (o.perform ids resume).Keeps Onward := by
  cases o with
  | newSubsystem config collaborators =>
    intro w k w' h
    obtain ⟨hnone, hstock, htasks, hresumer, hjournal⟩ := stock?_newSubsystem h
    have hevents : w'.events = w.events := congrArg Array.toList hjournal
    refine ⟨[], .idle htasks hresumer (fun {l c} hc => ?_) (by rw [hevents, List.append_nil]) (by simp)⟩
    unfold collaborators? at hc ⊢
    rw [hstock, if_neg, hc]
    rintro rfl
    rw [hnone] at hc
    cases hc
  | _ => exact steady_onward.perform ids resume trivial fun l _ => onward_onPool l _

end Act

namespace Machine

theorem onward_openFrame (l : SubsystemId) (i : InstanceId) : (openFrame l i : Act σ Unit).Keeps Onward := by
  intro w u w' h
  obtain ⟨x, hx⟩ := restocked_openFrame h
  refine ⟨[], .restocked hx rfl (tells_openFrame (k := l) h).1.journal fun e he => ?_⟩
  rw [List.mem_singleton.1 he]
  exact ⟨rfl, rfl⟩

theorem onward_closeFrame (l : SubsystemId) (i : InstanceId) : (closeFrame l i : Act σ Unit).Keeps Onward := by
  intro w u w' h
  obtain ⟨x, hx⟩ := restocked_closeFrame h
  refine ⟨[], .restocked hx rfl (tells_closeFrame (k := l) h).1.journal fun e he => ?_⟩
  rcases List.mem_append.1 he with he | he
  · split at he
    · rw [List.mem_singleton.1 he]
      exact ⟨rfl, rfl⟩
    · cases he
  · rw [List.mem_singleton.1 he]
    exact ⟨rfl, rfl⟩

variable (host : Host σ)

theorem regimeOfTasks : Regime host Onward fun _ r => Run.Flows (Onward : World σ → World σ → Prop) r :=
  regimeOfSteady Act.steady_onward (fun o _ => Act.onward_perform _ _ o) host.uses_operations_true onward_openFrame
    onward_closeFrame

/-- Whatever program goes on from a world, each moment of its run comes after it, and each later moment after each
earlier one. -/
theorem proceeds_run (depth : Nat) (p : Program σ α) : (p.run host (enter host depth)).Flows Onward :=
  flows_run Act.steady_onward (fun o _ => Act.onward_perform _ _ o) host.uses_operations_true onward_openFrame
    onward_closeFrame depth p.uses_operations_true

end Machine

end Interpose

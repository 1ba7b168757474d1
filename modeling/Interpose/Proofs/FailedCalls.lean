import Interpose.Proofs.Suspension

/-!
# Failed calls and the status of their instance

An execute call that fails leaves the status that it failed with on its instance: the machine records the failures of
functions, and a layer those of the suspensions that it rejects. A layer that hands a suspension on takes the record of it
back.

There is one way to fail without a record. The handler of a synthetic callback names a function to run instead, and the
layer looks it up before anything is executed. If there is no such function, then the call fails with the status of the
look-up, and on the instance stays what the handler left there. The same goes for every call that passes on such a call.

Main statement: `Machine.failed_calls`.
-/

namespace Interpose

variable {σ α : Type}

/-- The status that a call failed with. -/
def ExecReply.failure? (r : ExecReply) : Option Status :=
  match r.status with
  | .ok _ => none
  | .error e => some e

theorem ExecReply.failure?_eq_some {r : ExecReply} {e : Status} : r.failure? = some e ↔ r.status = .error e := by
  unfold failure?
  cases r.status <;> simp

namespace World

/-- What is recorded on an instance. -/
def recorded? (w : World σ) (i : InstanceId) : Option (Option Status) :=
  (w.instance? i).map Instance.error

/-- The records of all instances are as they were. -/
def SameRecords (w w' : World σ) : Prop :=
  ∀ i, w'.recorded? i = w.recorded? i

theorem SameRecords.of_instances {w w' : World σ} (h : w'.instances = w.instances) : w.SameRecords w' := by
  intro i
  unfold recorded? instance?
  rw [h]

end World

open World

/-! ## Operations that record nothing -/

namespace Act

theorem track_sameRecords : Track (SameRecords : World σ → World σ → Prop) :=
  ⟨fun _ _ => rfl, fun h h' i => (h' i).trans (h i)⟩

theorem sameRecords_onInstance {i : InstanceId} {f : Instance → α × Instance} (hf : ∀ a, (f a).2.error = a.error) :
    (onInstance i f : Act σ α).Keeps SameRecords := by
  refine .onInstance fun w a ha j => ?_
  unfold recorded?
  rw [instance?_setInstance ha]
  split
  · rename_i hj
    rw [hj, ha]
    exact congrArg some (hf a)
  · rfl

theorem sameRecords_onSubsystem (k : SubsystemId) (f : Subsystem → α × Subsystem) :
    (onSubsystem k f : Act σ α).Keeps SameRecords :=
  .onSubsystem fun _ _ _ => .of_instances rfl

theorem sameRecords_onMount (k : SubsystemId) (x : Export) (f : Mount → α × Mount) :
    (onMount k x f : Act σ α).Keeps SameRecords := by
  intro w a w' h
  obtain ⟨s, -, heq⟩ := Option.map_eq_some_iff.1 h
  cases heq
  exact .of_instances rfl

theorem sameRecords_pastHook {k : SubsystemId} {x : Export} {call : Act σ α} (h : call.Keeps SameRecords) :
    (pastHook k x call).Keeps SameRecords :=
  .bind track_sameRecords (sameRecords_onMount k x _) fun _ => .bind track_sameRecords h fun _ =>
    .bind track_sameRecords (sameRecords_onMount k x _) fun _ => .pure track_sameRecords _

theorem sameRecords_callbackId (ids : CallbackIds σ) (k : SubsystemId) (i : InstanceId) (name : String) :
    (callbackId ids k i name).Keeps SameRecords := by
  have hasked : ∀ id, (record (.lookedUp k i name id) >>= fun _ => pure id : Act σ (Option Nat)).Keeps SameRecords :=
    fun id => .bind track_sameRecords (.record fun _ => .of_instances rfl) fun _ => .pure track_sameRecords _
  refine .bind track_sameRecords (.getSubsystem track_sameRecords k) fun s => ?_
  cases s.collaborators.events with
  | unsupported => exact .bind track_sameRecords (.pure track_sameRecords _) hasked
  | host =>
    refine .bind track_sameRecords (.get track_sameRecords) fun w => ?_
    exact .bind track_sameRecords (.pure track_sameRecords _) hasked

/-- Looking a function up records nothing, whether it is there or not. -/
theorem sameRecords_lookupWithin (ids : CallbackIds σ) (i : InstanceId) (name : String) (bound : Nat) :
    (lookupWithin ids i name bound).Keeps SameRecords := by
  -- along the detours that the look-up goes past
  induction bound with
  | zero => exact .undefined
  | succ bound ih =>
    refine .bind track_sameRecords (.get track_sameRecords) fun w => ?_
    cases w.entry .lookup with
    | plain =>
      refine .bind track_sameRecords (.getInstance track_sameRecords i) fun a => ?_
      split <;> exact .pure track_sameRecords _
    | detour k replaced =>
      refine .bind track_sameRecords (sameRecords_callbackId ids k i name) fun id => ?_
      cases id with
      | some id => exact .pure track_sameRecords _
      | none => exact sameRecords_pastHook ih

theorem sameRecords_lookupPast (ids : CallbackIds σ) (k : SubsystemId) (i : InstanceId) (name : String) :
    (lookupPast ids k i name).Keeps SameRecords :=
  sameRecords_pastHook (.bind track_sameRecords (.get track_sameRecords) fun _ => sameRecords_lookupWithin ids i name _)

theorem sameRecords_restoreCallback (k : SubsystemId) (i : InstanceId) :
    (restoreCallback k i : Act σ Bool).Keeps SameRecords := by
  refine .bind track_sameRecords (sameRecords_onSubsystem k _) fun callback => ?_
  cases callback with
  | some callback => exact sameRecords_onInstance fun _ => rfl
  | none => exact .pure track_sameRecords _

/-- A status that is raised is recorded. -/
theorem recorded_raise {i : InstanceId} {s s' : Status} {w w' : World σ} (h : raise i s w = some (s', w')) :
    s' = s ∧ w'.recorded? i = some (some s) := by
  obtain ⟨a, ha, heq⟩ := Option.map_eq_some_iff.1 h
  cases heq
  exact ⟨rfl, Machine.error_setInstance ha _⟩

end Act

namespace Machine

variable {host : Host σ} {calls : Calls σ} {k : SubsystemId} {i : InstanceId} {slot slot' : Option Cell} {index index' : Cell}
  {d : Activity} {u v w w' : World σ} {depth fuel left left' : Nat} {r r' : ExecReply} {e : Status}

/-! ## The machine's own entry -/

/-- The machine records every failure. -/
theorem recorded_plainExec (h : plainExec host calls i slot index d w fuel = .done r w' left)
    (he : r.status = .error e) : w'.recorded? i = some (some e) := by
  have hraised : ∀ {s v m}, (do
      let s ← Run.act (Act.raise i s)
      pure (.failure s slot) : Run σ ExecReply) d v m = .done r w' left → w'.recorded? i = some (some e) := by
    intro s v m h
    obtain ⟨s', v', hraise, h⟩ := Run.done_of_act_bind h
    cases h
    obtain ⟨rfl, hrecorded⟩ := Act.recorded_raise hraise
    cases he
    exact hrecorded
  obtain ⟨a, v, m, -, h⟩ := Run.done_of_bind h
  cases hscript : scriptOf a index with
  | none =>
    rw [hscript] at h
    exact hraised h
  | some code =>
    rw [hscript] at h
    obtain ⟨answer, v', m', -, h⟩ := Run.done_of_bind h
    cases answer with
    | ok value =>
      cases h
      cases he
    | error s => exact hraised h

/-! ## Suspended calls -/

theorem recorded_reject {why : Notice} (h : reject i why slot w = some (r, w')) : w'.recorded? i = some r.failure? := by
  obtain ⟨⟨s, v⟩, hraise, h⟩ := Option.bind_eq_some_iff.1 h
  cases h
  obtain ⟨rfl, hrecorded⟩ := Act.recorded_raise hraise
  exact hrecorded

theorem recorded_clearError (h : clearError i w = some ((), w')) : w'.recorded? i = some none := by
  obtain ⟨a, ha, heq⟩ := Option.map_eq_some_iff.1 h
  cases heq
  exact error_setInstance ha _

/-- However a suspension is settled, the instance has the failure recorded that comes of it, or none. -/
theorem recorded_route {f : Frame} (h : route host calls k i f slot d w fuel = .done r w' left) :
    w'.recorded? i = some r.failure? := by
  have hrejected : ∀ {why v m}, Run.act (reject i why slot) d v m = .done r w' left →
      w'.recorded? i = some r.failure? := fun h => recorded_reject (Run.done_of_act h).1
  have hhanded : ∀ {v m} {written : Option Cell}, (do
      Run.act (clearError i)
      pure (.success written) : Run σ ExecReply) d v m = .done r w' left → w'.recorded? i = some r.failure? := by
    intro v m written h
    obtain ⟨u, v', hclear, h⟩ := Run.done_of_act_bind h
    cases h
    exact recorded_clearError hclear
  obtain ⟨reason, result, awaiting, reclaim⟩ := f
  cases reason with
  | none => exact hrejected h
  | await =>
    cases awaiting with
    | none => exact hrejected h
    | some task =>
      obtain ⟨a, v, m, -, h⟩ := Run.done_of_bind h
      obtain ⟨answer, v', m', -, h⟩ := Run.done_of_bind h
      cases answer with
      | error why => exact hrejected h
      | ok u => exact hhanded h
  | detach =>
    obtain ⟨u, v, m, -, h⟩ := Run.done_of_bind h
    exact hhanded h

/-- Only suspensions are settled, and any other answer stays as it is. -/
theorem recorded_settle (h : settle host calls k i r d w fuel = .done r' w' left) :
    r.status = .error .sleep ∧ w'.recorded? i = some r'.failure? ∨ r.status ≠ .error .sleep ∧ r' = r ∧ w' = w := by
  by_cases hsleep : r.status = .error .sleep
  · refine .inl ⟨hsleep, ?_⟩
    unfold settle at h
    rw [hsleep] at h
    obtain ⟨s, v, m, -, h⟩ := Run.done_of_bind h
    cases htop : s.contexts.top? i with
    | none =>
      rw [htop] at h
      exact recorded_reject (Run.done_of_act h).1
    | some f =>
      rw [htop] at h
      exact recorded_route h
  · rw [settle_of_ne host hsleep] at h
    cases h
    exact .inr ⟨hsleep, rfl, rfl⟩

/-! ## Passing calls on -/

/-- What a layer does before it passes a call on: it takes its hook out of the slot, if it is there, and has the callback
of the instance replaced until then. -/
def handOn (k : SubsystemId) (i : InstanceId) : Act σ Unit := do
  let s ← Act.getSubsystem k
  if s.hooks.exec.attached then
    Act.swapCallback k i (.intercept k)
    let _ ← Act.borrow k .exec
    pure ()
  else pure ()

theorem done_of_passOn (h : passOn calls k i slot index d w fuel = .done r w' left) :
    ∃ v w₁, handOn k i w = some ((), v) ∧ calls (.exec i slot index) d v fuel = .done r w₁ left ∧ w₁.SameRecords w' := by
  obtain ⟨s, w₀, hget, h⟩ := Run.done_of_act_bind h
  cases hattached : s.hooks.exec.attached with
  | false =>
    rw [if_neg (by simp [hattached])] at h
    refine ⟨w₀, w', ?_, h, Act.track_sameRecords.refl w'⟩
    unfold handOn
    rw [Act.bind_of_some hget, if_neg (by simp [hattached])]
    rfl
  | true =>
    rw [if_pos hattached] at h
    obtain ⟨_, v₁, hswap, h⟩ := Run.done_of_act_bind h
    obtain ⟨took, v₂, hborrow, h⟩ := Run.done_of_act_bind h
    obtain ⟨r₁, w₁, m, hcall, h⟩ := Run.done_of_bind h
    obtain ⟨_, w₂, hback, h⟩ := Run.done_of_act_bind h
    obtain ⟨restored, w₃, hrestore, h⟩ := Run.done_of_act_bind h
    cases h
    refine ⟨v₂, w₁, ?_, hcall, ?_⟩
    · unfold handOn
      rw [Act.bind_of_some hget, if_pos hattached, Act.bind_of_some hswap, Act.bind_of_some hborrow]
      rfl
    · exact Act.track_sameRecords.trans (Act.sameRecords_onMount k .exec _ hback)
        (Act.sameRecords_restoreCallback k i hrestore)

/-- A call through the table that nests at most `depth + 1` deep reaches layer `k` and has a frame opened, and in the world
`v`, with `left` fuel, the layer passes it on, for the index `index'` and the place `slot'`. -/
def Passes (host : Host σ) (depth : Nat) (k : SubsystemId) (i : InstanceId) (slot : Option Cell) (index : Cell)
    (w : World σ) (fuel : Nat) (slot' : Option Cell) (index' : Cell) (v : World σ) (left : Nat) : Prop :=
  ∃ replaced u u₀, w.entry .exec = .detour k replaced ∧
    OpensFrame host (enter host depth) k i slot index .machine w fuel slot' index' u left ∧
    openFrame k i u = some ((), u₀) ∧ handOn k i u₀ = some ((), v)

/-- What a call comes to that is passed on: its answer is that of the call it is passed on as, unless that was suspended. -/
theorem Passes.done (hp : Passes host depth k i slot index w fuel slot' index' v left)
    (h : enter host (depth + 1) (.exec i slot index) d w fuel = .done r w' left') :
    ∃ r₁ w₁ left₁, enter host depth (.exec i slot' index') .machine v left = .done r₁ w₁ left₁ ∧
      (r₁.status = .error .sleep ∧ w'.recorded? i = some r.failure? ∨
        r₁.status ≠ .error .sleep ∧ r = r₁ ∧ w'.recorded? i = w₁.recorded? i) := by
  obtain ⟨replaced, u, u₀, hentry, hopens, hopen, hhand⟩ := hp
  rw [enter_of_detour hentry, hopens.intercepted hopen] at h
  obtain ⟨w₂, hinside, hclose⟩ := done_of_inFrame h
  obtain ⟨r₁, w₁, m₁, hpassed, hsettled⟩ := Run.done_of_bind hinside
  obtain ⟨v', w₀, hhand', hcall, hsame⟩ := done_of_passOn hpassed
  cases hhand.symm.trans hhand'
  have hclosed : w'.recorded? i = w₂.recorded? i :=
    congrArg (Option.map Instance.error) (instance?_closeCall hclose i)
  refine ⟨r₁, w₀, m₁, hcall, ?_⟩
  rcases recorded_settle hsettled with ⟨hsleep, hrecorded⟩ | ⟨hother, rfl, rfl⟩
  · exact .inl ⟨hsleep, hclosed.trans hrecorded⟩
  · exact .inr ⟨hother, rfl, hclosed.trans (hsame i)⟩

/-! ## Functions that are not found -/

/-- A call fails with the status `e` since it reaches a layer whose handler names a function that is not found, or since it
is passed on and then does; `v` is the world in which the handler was over. -/
inductive Unfound (host : Host σ) (i : InstanceId) :
    (depth : Nat) → Option Cell → Cell → World σ → (fuel : Nat) → (e : Status) → (v : World σ) → Prop
  | named {depth : Nat} {slot : Option Cell} {index : Cell} {w : World σ} {fuel : Nat} {k : SubsystemId} {replaced : Entry}
      {id : Nat} {u v v' : World σ} {handled : Handled} {left : Nat} {name : String} {e : Status}
      (hentry : w.entry .exec = .detour k replaced) (hindex : ExecIndex.decode index = .synthetic id)
      (hhold : Act.onSubsystem k (fun s => ((), { s with holds := s.holds + 1 })) w = some ((), u))
      (hinvoke : invoke host (enter host depth) k i id slot .machine u fuel = .done handled v left)
      (hname : handled.forward = some name)
      (hlookup : Act.lookupPast host.callbackIds k i name v = some (.error e, v')) :
      Unfound host i (depth + 1) slot index w fuel e v
  | passedOn {depth : Nat} {slot slot' : Option Cell} {index index' : Cell} {w v u : World σ} {fuel left : Nat}
      {k : SubsystemId} {e : Status} (hpasses : Passes host depth k i slot index w fuel slot' index' v left)
      (h : Unfound host i depth slot' index' v left e u) : Unfound host i (depth + 1) slot index w fuel e u

/-- Nothing is suspended by that. -/
theorem Unfound.ne_sleep (h : Unfound host i depth slot index w fuel e v) : e ≠ .sleep := by
  induction h with
  | named _ _ _ _ _ hlookup => exact fun hs => Act.lookupPast_ne_sleep _ _ _ _ hlookup (congrArg Except.error hs)
  | passedOn _ _ ih => exact ih

/-- It takes a handler, so it happens to synthetic callbacks only. -/
theorem Unfound.synthetic (h : Unfound host i depth slot index w fuel e v) :
    ∃ id, ExecIndex.decode index = .synthetic id := by
  induction h with
  | named _ hindex => exact ⟨_, hindex⟩
  | passedOn hpasses _ ih =>
    obtain ⟨_, _, _, -, hopens, -, -⟩ := hpasses
    cases hopens with
    | atOnce => exact ih
    | afterHandler hindex => exact ⟨_, hindex⟩

/-- A call whose handler names a function that is not found fails, and what is recorded is what the handler has left. -/
theorem Unfound.done (h : Unfound host i depth slot index w fuel e v)
    (hdone : enter host depth (.exec i slot index) d w fuel = .done r w' left) :
    r.status = .error e ∧ w'.recorded? i = v.recorded? i := by
  induction h generalizing d r w' left with
  | @named depth slot index w fuel k replaced id u v v' handled left₁ name e hentry hindex hhold hinvoke hname hlookup =>
    have hforwarded : forwarded host (enter host depth) k i slot handled .machine v left₁ =
        .done (.failure e (slot.map fun c => handled.result.getD c)) v' left₁ := by
      unfold forwarded
      rw [hname]
      exact Run.bind_of_done (Run.act_of_some hlookup .machine left₁)
    rw [enter_of_detour hentry, intercepted_synthetic hindex] at hdone
    unfold holding at hdone
    rw [Run.bind_of_done (Run.act_of_some hhold .machine fuel), bind_assoc, Run.bind_of_done hinvoke,
      Run.bind_of_done hforwarded] at hdone
    obtain ⟨_, v'', hrelease, hdone⟩ := Run.done_of_act_bind hdone
    cases hdone
    refine ⟨rfl, ?_⟩
    rw [Act.sameRecords_onSubsystem k _ hrelease i, Act.sameRecords_lookupPast _ k i name hlookup i]
  | @passedOn depth slot slot' index index' w v u fuel left k e hpasses hunfound ih =>
    obtain ⟨r₁, w₁, left₁, hcall, hrest⟩ := hpasses.done hdone
    obtain ⟨hstatus, hrecorded⟩ := ih hcall
    rcases hrest with ⟨hsleep, -⟩ | ⟨-, rfl, hsame⟩
    · exact absurd (Except.error.inj (hstatus.symm.trans hsleep)) hunfound.ne_sleep
    · exact ⟨hstatus, hsame.trans hrecorded⟩

/-- A layer that opens a frame for a call and comes back from passing it on has passed it on. -/
theorem exists_passes {replaced : Entry} {u₀ : World σ} {m : Nat} (hentry : w.entry .exec = .detour k replaced)
    (hopens : OpensFrame host (enter host depth) k i slot index .machine w fuel slot' index' u left)
    (hopen : openFrame k i u = some ((), u₀))
    (h : passOn (enter host depth) k i slot' index' .machine u₀ left = .done r v m) :
    ∃ v, Passes host depth k i slot index w fuel slot' index' v left := by
  obtain ⟨v, -, hhand, -⟩ := done_of_passOn h
  exact ⟨v, replaced, u, u₀, hentry, hopens, hopen, hhand⟩

/-- Where a call that is over has been: it was executed by the machine's own entry, or passed on by a layer, or answered by a
handler, or its handler named a function that is not found. -/
theorem cases_of_enter (h : enter host (depth + 1) (.exec i slot index) d w fuel = .done r w' left) :
    plainExec host (enter host depth) i slot index .machine w fuel = .done r w' left ∨
      (∃ k slot' index' v m, Passes host depth k i slot index w fuel slot' index' v m) ∨ r.status = .ok () ∨
      ∃ e v, Unfound host i (depth + 1) slot index w fuel e v := by
  cases hentry : w.entry .exec with
  | plain =>
    rw [enter_of_plain hentry] at h
    exact .inl h
  | detour k replaced =>
    rw [enter_of_detour hentry] at h
    by_cases hindex : ExecIndex.IsPublic index
    · rw [intercepted_public hindex] at h
      obtain ⟨_, u₀, hopened, h⟩ := Run.done_of_act_bind h
      obtain ⟨⟨_, u⟩, hhold, hopen⟩ := Option.bind_eq_some_iff.1 hopened
      obtain ⟨r₁, v, m, hpassed, -⟩ := Run.done_of_bind h
      obtain ⟨v', hpasses⟩ := exists_passes hentry (.atOnce hindex hhold) hopen hpassed
      exact .inr (.inl ⟨k, slot, index, v', fuel, hpasses⟩)
    · obtain ⟨id, hindex⟩ := Classical.not_forall_not.1 hindex
      rw [intercepted_synthetic hindex] at h
      obtain ⟨_, u, hhold, h⟩ := Run.done_of_act_bind h
      obtain ⟨r₁, w₁, m₁, hanswered, h⟩ := Run.done_of_bind h
      obtain ⟨_, w₂, -, h⟩ := Run.done_of_act_bind h
      cases h
      obtain ⟨handled, v, m, hinvoke, hforwarded⟩ := Run.done_of_bind hanswered
      unfold forwarded at hforwarded
      cases hname : handled.forward with
      | none =>
        -- the handler was all there was to the call
        rw [hname] at hforwarded
        cases hforwarded
        exact .inr (.inr (.inl rfl))
      | some name =>
        rw [hname] at hforwarded
        obtain ⟨answer, v', hlookup, hforwarded⟩ := Run.done_of_act_bind hforwarded
        cases answer with
        | error e => exact .inr (.inr (.inr ⟨e, v, .named hentry hindex hhold hinvoke hname hlookup⟩))
        | ok index' =>
          obtain ⟨_, u₀, hopen, hforwarded⟩ := Run.done_of_act_bind hforwarded
          obtain ⟨r₂, w₃, m₃, hpassed, -⟩ := Run.done_of_bind hforwarded
          obtain ⟨v'', hpasses⟩ := exists_passes hentry (.afterHandler hindex hhold hinvoke hname hlookup) hopen hpassed
          exact .inr (.inl ⟨k, _, index', v'', m, hpasses⟩)

/-! ## Calls -/

/-- What an execute call through the table, of instance `i`, leaves recorded on the instance, when it is over with the answer
`r` in the world `w'`. -/
structure Records (host : Host σ) (depth : Nat) (i : InstanceId) (slot : Option Cell) (index : Cell) (w : World σ)
    (fuel : Nat) (r : ExecReply) (w' : World σ) : Prop where
  /-- What it failed with, if it was to execute a function. -/
  failed : ExecIndex.IsPublic index → ∀ e, r.status = .error e → w'.recorded? i = some (some e)
  /-- So if it was a synthetic callback, as long as every function that a handler named was found. -/
  found : (∀ e v, ¬ Unfound host i depth slot index w fuel e v) → ∀ e, r.status = .error e →
    w'.recorded? i = some (some e)
  /-- What the handler left, if it named a function that is not found. -/
  unfound : ∀ e v, Unfound host i depth slot index w fuel e v → r.status = .error e ∧ w'.recorded? i = v.recorded? i
  /-- Nothing, if it had been suspended when a layer that passed it on got it back, and was handed on; if it was rejected, what
  it failed with. -/
  settled : ∀ n k slot' index' v m r₁ w₁ m₁, depth = n + 1 → Passes host n k i slot index w fuel slot' index' v m →
    enter host n (.exec i slot' index') .machine v m = .done r₁ w₁ m₁ → r₁.status = .error .sleep →
    w'.recorded? i = some r.failure?

/-- A call that fails records it, unless a handler named a function that is not found. -/
theorem recorded_enter (hfound : ∀ e v, ¬ Unfound host i depth slot index w fuel e v)
    (h : enter host depth (.exec i slot index) d w fuel = .done r w' left) (he : r.status = .error e) :
    w'.recorded? i = some (some e) := by
  induction depth generalizing slot index d w fuel r w' left with
  | zero => cases h
  | succ depth ih =>
    rcases cases_of_enter h with hplain | ⟨k, slot', index', v, m, hpasses⟩ | hok | ⟨e', v, hunfound⟩
    · exact recorded_plainExec hplain he
    · obtain ⟨r₁, w₁, left₁, hcall, hrest⟩ := hpasses.done h
      rcases hrest with ⟨-, hrecorded⟩ | ⟨-, rfl, hsame⟩
      · rw [hrecorded, ExecReply.failure?_eq_some.2 he]
      · -- what it was passed on as has recorded it
        exact hsame.trans (ih (fun e v hunfound => hfound e v (.passedOn hpasses hunfound)) hcall he)
    · rw [hok] at he
      cases he
    · exact absurd hunfound (hfound e' v)

/-- **Failed calls.** Whatever the host does, in every world, and however calls nest: an execute call through the table that
fails leaves the status that it failed with on its instance, with the one exception of a handler that names a function that is
not found; and a suspension that is settled leaves the failure that comes of it, or none. -/
theorem failed_calls (h : enter host depth (.exec i slot index) d w fuel = .done r w' left) :
    Records host depth i slot index w fuel r w' where
  failed hindex _ he := by
    refine recorded_enter (fun e v hunfound => ?_) h he
    obtain ⟨id, hid⟩ := hunfound.synthetic
    exact hindex id hid
  found hfound _ he := recorded_enter hfound h he
  unfound _ _ hunfound := hunfound.done h
  settled n k slot' index' v m r₁ w₁ m₁ hdepth hpasses hcall hsleep := by
    subst hdepth
    obtain ⟨r₂, w₂, left₂, hcall', hrest⟩ := hpasses.done h
    cases hcall.symm.trans hcall'
    rcases hrest with ⟨-, hrecorded⟩ | ⟨hother, -⟩
    · exact hrecorded
    · exact absurd hsleep hother

/-- A world in which a script is loaded that asks to wait, and every hook is switched on. -/
def waitingWorld : World Unit :=
  let setUp : Program Unit Unit := do
    let i ← Program.perform (.newInstance 4)
    let _ ← Program.perform (.addFunction i "main" ⟨0⟩)
    let _ ← Program.perform (.installAll ⟨0⟩)
  (setUp.runIn (.scripted waitingScript) 9 (.single #[] .drop () .standard ⟨.host, .unsupported, .unsupported⟩)).world

/-- A suspended call is handed on, and a call of a function that there is not fails. -/
theorem failed_calls_waiting :
    (∃ r w' left, enter (.scripted waitingScript) 4 (.exec ⟨0⟩ (some 0) 0) .outside waitingWorld 9 = .done r w' left ∧
      r.failure? = none ∧ w'.recorded? ⟨0⟩ = some none) ∧
    ∃ r w' left, enter (.scripted waitingScript) 4 (.exec ⟨0⟩ none 1) .outside waitingWorld 9 = .done r w' left ∧
      r.failure? = some .index ∧ w'.recorded? ⟨0⟩ = some (some .index) := by
  have hentry : waitingWorld.entry .exec = .detour ⟨0⟩ .plain := by decide +kernel
  have hpassed : (Act.onSubsystem ⟨0⟩ (fun s => ((), { s with holds := s.holds + 1 })) waitingWorld).any (fun held =>
      (openFrame ⟨0⟩ ⟨0⟩ held.2).any fun opened => (handOn ⟨0⟩ ⟨0⟩ opened.2).any fun handed =>
        (enter (.scripted waitingScript) 3 (.exec ⟨0⟩ (some 0) 0) .machine handed.2 9).done?.any fun m =>
          m.1.isSuspended) = true := by
    decide +kernel
  have hwaiting : (enter (.scripted waitingScript) 4 (.exec ⟨0⟩ (some 0) 0) .outside waitingWorld 9).done?.any
      (fun m => decide (m.1.failure? = none)) = true := by
    decide +kernel
  have hmissing : (enter (.scripted waitingScript) 4 (.exec ⟨0⟩ none 1) .outside waitingWorld 9).done?.any
      (fun m => decide (m.1.failure? = some .index)) = true := by
    decide +kernel
  have hfirst : ExecIndex.IsPublic 0 := fun id h => nomatch h
  have hsecond : ExecIndex.IsPublic 1 := fun id h => nomatch h
  obtain ⟨⟨_, u⟩, hhold, hpassed⟩ := (Option.any_eq_true _ _).1 hpassed
  obtain ⟨⟨_, u₀⟩, hopen, hpassed⟩ := (Option.any_eq_true _ _).1 hpassed
  obtain ⟨⟨_, v⟩, hhand, hpassed⟩ := (Option.any_eq_true _ _).1 hpassed
  obtain ⟨r₁, w₁, left₁, hcall, hsuspended⟩ := Outcome.exists_done hpassed
  obtain ⟨r, w', left, hwaiting, hok⟩ := Outcome.exists_done hwaiting
  obtain ⟨r', w'', left', hmissing, hindex⟩ := Outcome.exists_done hmissing
  have hok : r.failure? = none := of_decide_eq_true hok
  have hindex : r'.failure? = some .index := of_decide_eq_true hindex
  have hpasses : Passes (.scripted waitingScript) 3 ⟨0⟩ ⟨0⟩ (some 0) 0 waitingWorld 9 (some 0) 0 v 9 :=
    ⟨.plain, u, u₀, hentry, .atOnce hfirst hhold, hopen, hhand⟩
  have hsettled := (failed_calls hwaiting).settled 3 ⟨0⟩ (some 0) 0 v 9 r₁ w₁ left₁ rfl hpasses hcall
    (ExecReply.isSuspended_iff.1 hsuspended)
  rw [hok] at hsettled
  exact ⟨⟨r, w', left, hwaiting, hok, hsettled⟩, r', w'', left', hmissing, hindex,
    (failed_calls hmissing).failed hsecond .index (ExecReply.failure?_eq_some.1 hindex)⟩

/-- A host whose handlers name a function that no instance has. -/
def forgetfulHost : Host Unit :=
  { Host.scripted (fun _ _ => .done (.ok 0)) with invoke := fun _ _ _ _ => .done ⟨none, some "nope"⟩ }

/-- Switches every hook on, with the failure of a division recorded on the instance. -/
def dividingProgram : Program Unit Unit := do
  let i ← Program.perform (.newInstance 4)
  let _ ← Program.perform (.installAll ⟨0⟩)
  let _ ← Program.perform (.raise i .divide)

/-- A call of a synthetic callback fails since its handler names a function that is not found, and that is not recorded: the
failure of the division still is. -/
theorem failed_calls_forgetful :
    ∃ r w' left, enter forgetfulHost 3 (.exec ⟨0⟩ none ⟨-8, by decide, by decide⟩) .outside
        (dividingProgram.runIn forgetfulHost 9 (.single #[] .drop () .standard ⟨.unsupported, .unsupported, .host⟩)).world 9 =
          .done r w' left ∧
      r.failure? = some .notFound ∧ w'.recorded? ⟨0⟩ = some (some .divide) := by
  have hruns : (enter forgetfulHost 3 (.exec ⟨0⟩ none ⟨-8, by decide, by decide⟩) .outside
      (dividingProgram.runIn forgetfulHost 9
        (.single #[] .drop () .standard ⟨.unsupported, .unsupported, .host⟩)).world 9).done?.any (fun m =>
          decide (m.1.failure? = some .notFound ∧ m.2.recorded? ⟨0⟩ = some (some .divide))) = true := by
    decide +kernel
  obtain ⟨r, w', left, hdone, hrecorded⟩ := Outcome.exists_done hruns
  exact ⟨r, w', left, hdone, of_decide_eq_true hrecorded⟩

end Machine

end Interpose

import Interpose.Host.Operation
import Interpose.Proofs.Worlds

/-!
# Operations beside execute calls

Operations on memory, on pooled strings, on tasks, and on the functions and registers of an instance do a few things
only: they change an instance but for its callback, or make one; they operate on a pool; they choose whether references
are followed; they change the tasks or the host's own state; they write entries into the journal that tell nothing of
execute calls; and they take the hook of another export out of its slot for a while. A relation between worlds that holds
across these few things is *mild*, and holds across all of these operations, the built-in natives included. Being quiet
is such a relation, and so is every relation that holds across all quiet changes.

Ending a string or a task by hand is told apart from the other operations on pools and tasks, since the journal tells of
it. Collecting strings is not among the few things: no native does it, and whether a relation holds across it is asked
for separately.

Main statements: `Act.Mild.string` and `Act.Mild.task` for the built-in natives, and `Act.Mild.perform` for what host
code asks for.
-/

namespace Interpose

variable {σ α β : Type}

open World Act

/-- What operations of a kind make of a pool, writing through the address of the null string included. -/
inductive Pool.Leads (kind : Pool.Action → Prop) (p : Pool) : Pool → Prop
  | refl : p.Leads kind p
  | perform {q : Pool} (h : p.Leads kind q) {a : Pool.Action} (ha : kind a) : p.Leads kind (q.perform a).2
  | write {q : Pool} (h : p.Leads kind q) (c : Cell) : p.Leads kind { q with nullCell := c }

/-- Whether an operation on a pool ends strings neither by hand nor by collecting them. -/
def Pool.Action.isGentle : Pool.Action → Bool
  | remove _ | collect => false
  | _ => true

/-- What operations make of a pool that end no string by hand and collect none. -/
abbrev Pool.LeadsGently (p : Pool) : Pool → Prop :=
  p.Leads fun a => a.isGentle = true

/-- Writing over a pooled string is an edit of it. -/
theorem Pool.leads_writeString? {p q : Pool} {id : StringId} {part : Part} {cells : List Cell}
    (h : Act.writeString? p id part cells = some q) : p.LeadsGently q := by
  obtain ⟨e, he, h⟩ := Option.bind_eq_some_iff.1 h
  obtain ⟨string, -, rfl⟩ := Option.map_eq_some_iff.1 h
  have hedit : (p.perform (.edit id (.replace string))).2 = p.setEntry id { e with string } := by
    simp only [Pool.perform, Pool.edit?, he, Option.map_some]
    rfl
  exact hedit ▸ .perform .refl rfl

/-- A native relates two worlds if what it does relates them, whether it fails or not. -/
def NativeAct.Keeps (R : World σ → World σ → Prop) (native : NativeAct σ α) : Prop :=
  Act.Keeps R native.run

theorem World.Quiet.newInstance (w : World σ) (a : Instance) (ha : a.callback = .standard) :
    w.Quiet { w with instances := w.instances.push a } where
  slot := rfl
  layers _ := rfl
  callbacks i := by
    unfold callback? instance?
    rw [Array.getElem?_push]
    split
    · rename_i hi
      refine .inr ⟨?_, congrArg some ha⟩
      rw [hi, Array.getElem?_eq_none (Nat.le_refl _)]
      rfl
    · exact .inl rfl
  journal := ⟨[], by simp [events]⟩

namespace Act

/-- A relation that holds across the operations on tasks. -/
structure KeepsTasks (R : World σ → World σ → Prop) : Prop where
  create : (createTask : Act σ TaskId).Keeps R
  register : ∀ task token, (registerWaiter task token : Act σ (Except TaskError Unit)).Keeps R
  complete : ∀ resume task value, (completeTask resume task value : Act σ (Except TaskError Nat)).Keeps R
  remove : ∀ task, (removeTask task : Act σ Bool).Keeps R

/-- A relation that holds across whatever has nothing to do with execute calls. -/
structure Mild (R : World σ → World σ → Prop) : Prop where
  track : Track R
  setInstance : ∀ {w : World σ} {i : InstanceId} {a b : Instance}, w.instance? i = some a → b.callback = a.callback →
    R w (w.setInstance i b)
  addInstance : ∀ (w : World σ) (a : Instance), a.callback = .standard → R w { w with instances := w.instances.push a }
  setPool : ∀ {w : World σ} {k : SubsystemId} {s : Subsystem} {q : Pool}, w.subsystem? k = some s →
    s.pool.LeadsGently q → R w (w.setSubsystem k { s with pool := q })
  removeString : ∀ k id, (removeString k id : Act σ (Except PoolError CellString)).Keeps R
  setRefArgs : ∀ {w : World σ} {k : SubsystemId} {s : Subsystem} (on : Bool), w.subsystem? k = some s →
    R w (w.setSubsystem k { s with refArgs := on })
  tasks : KeepsTasks R
  setHost : ∀ (w : World σ) (state : σ), R w { w with host := state }
  tell : ∀ (w : World σ) (e : Event), e.isRemark = true → R w (w.record e)
  past : ∀ {α : Type} {k : SubsystemId} {x : Export} {call : Act σ α}, x ≠ .exec → call.Keeps R →
    (pastHook k x call).Keeps R

/-! ## Quiet changes -/

/-- Wherever an operation has an answer, it has changed nothing that execute calls rely on. -/
abbrev IsQuiet (act : Act σ α) : Prop :=
  act.Keeps World.Quiet

theorem quiet_onPool (k : SubsystemId) (f : Pool → α × Pool) : (onPool k f : Act σ α).IsQuiet :=
  .onSubsystem fun _ _ hs => .setSubsystem hs rfl

theorem quiet_removeString (k : SubsystemId) (id : StringId) :
    (removeString k id : Act σ (Except PoolError CellString)).IsQuiet := by
  refine .bind track_quiet (quiet_onPool k _) fun r => ?_
  cases r with
  | ok s => exact .bind track_quiet (.record fun w => .record rfl) fun _ => .pure track_quiet _
  | error e => exact .pure track_quiet _

theorem quiet_raise (i : InstanceId) (s : Status) : (raise i s : Act σ Status).IsQuiet :=
  .onInstance fun _ _ ha => .setInstance ha rfl

/-- Working on a hook of another export leaves the execute hook and its slot alone. -/
theorem quiet_onMount {k : SubsystemId} {x : Export} (hx : x ≠ .exec) (f : Mount → α × Mount) :
    (onMount k x f : Act σ α).IsQuiet := by
  intro w a w' h
  obtain ⟨s, hs, e⟩ := Option.map_eq_some_iff.1 h
  cases e
  refine (Quiet.setSubsystem hs ?_).trans (v := w.setSubsystem k _) ⟨?_, fun _ => rfl, fun _ => .inl rfl, ⟨[], ?_⟩⟩
  · show Subsystem.execState { s with hooks := s.hooks.set _ x } = s.execState
    cases x <;> first | rfl | exact absurd rfl hx
  · cases x <;> first | rfl | exact absurd rfl hx
  · simp [events, World.setSubsystem]

variable {R : World σ → World σ → Prop}

/-! ## Tasks -/

/-- The operations on tasks change the tasks and the host's own state, and tell nothing of execute calls. -/
theorem KeepsTasks.of_parts (t : Track R) (htasks : ∀ (w : World σ) tasks, R w { w with tasks })
    (hhost : ∀ (w : World σ) state, R w { w with host := state })
    (htell : ∀ (w : World σ) (e : Event), e.aside = true → R w (w.record e)) : KeepsTasks R where
  create := by
    intro w a w' h
    obtain ⟨r, -, e⟩ := Option.map_eq_some_iff.1 h
    cases e
    exact htasks w _
  register task token := by
    refine .bind t (.get t) fun w => ?_
    split
    · exact .pure t _
    · refine .bind t ?_ fun _ => .pure t _
      intro v u v' h
      cases h
      exact htasks v _
  complete resume task value := by
    have hone : ∀ token, (resumeWaiter resume value token : Act σ Unit).Keeps R := by
      intro token
      refine .bind t (.get t) fun w => ?_
      cases w.resumer with
      | drop => exact .record fun w => htell w _ rfl
      | host =>
        refine .bind t (.record fun w => htell w _ rfl) fun _ => ?_
        intro v u v' h
        cases h
        exact hhost v _
    have hall : ∀ waiters, (resumeWaiters resume value waiters : Act σ Unit).Keeps R := by
      intro waiters
      induction waiters with
      | nil => exact .pure t _
      | cons token rest ih => exact .bind t (hone token) fun _ => ih
    refine .bind t (.get t) fun w => ?_
    split
    · exact .pure t _
    · refine .bind t ?_ fun _ => .bind t (hall _) fun _ => .pure t _
      intro v u v' h
      cases h
      exact htasks v _
  remove task := by
    refine .bind t (.get t) fun w => ?_
    refine .bind t (?_ : Keeps R (modify _)) fun _ => ?_
    · intro v u v' h
      cases h
      exact htasks v _
    · split
      · exact .bind t (.record fun w => htell w _ rfl) fun _ => .pure t _
      · exact .pure t _

/-- A relation that holds across quiet changes is mild. -/
theorem Mild.of_quiet (t : Track R) (h : ∀ {w w'}, Quiet w w' → R w w') : Mild R where
  track := t
  setInstance ha hc := h (.setInstance ha hc)
  addInstance w a ha := h (.newInstance w a ha)
  setPool hs _ := h (.setSubsystem hs rfl)
  removeString k id := (quiet_removeString k id).mono h
  setRefArgs _ hs := h (.setSubsystem hs rfl)
  tasks := .of_parts t (fun _ _ => h (.of_eq rfl rfl rfl rfl)) (fun w state => h (.withHost w state)) fun _ _ he =>
    h (.record he)
  setHost w state := h (.withHost w state)
  tell _ _ he := h (.record (Event.aside_of_isRemark he))
  past hx hcall := by
    refine .bind t ((quiet_onMount hx _).mono h) fun took => ?_
    refine .bind t hcall fun a => ?_
    exact .bind t ((quiet_onMount hx _).mono h) fun _ => .pure t a

theorem mild_quiet : Mild (Quiet : World σ → World σ → Prop) :=
  .of_quiet track_quiet fun h => h

namespace Mild

variable (M : Mild R)
include M

/-! ## Parts of a world -/

theorem pure (a : α) : Keeps R (Pure.pure a : Act σ α) :=
  .pure M.track a

theorem bind {act : Act σ α} {next : α → Act σ β} (h : act.Keeps R) (hn : ∀ a, (next a).Keeps R) :
    (act >>= next).Keeps R :=
  .bind M.track h hn

theorem get : Keeps R (MonadState.get : Act σ (World σ)) :=
  .get M.track

theorem getInstance (i : InstanceId) : (Act.getInstance i : Act σ Instance).Keeps R :=
  .getInstance M.track i

theorem getSubsystem (k : SubsystemId) : (Act.getSubsystem k : Act σ Subsystem).Keeps R :=
  .getSubsystem M.track k

theorem ofOption (o : Option α) : (Act.ofOption o : Act σ α).Keeps R :=
  .ofOption M.track o

theorem onInstance {i : InstanceId} {f : Instance → α × Instance} (h : ∀ a, (f a).2.callback = a.callback) :
    (Act.onInstance i f : Act σ α).Keeps R :=
  .onInstance fun _ a ha => M.setInstance ha (h a)

theorem onInstance? {i : InstanceId} {f : Instance → Option (α × Instance)}
    (h : ∀ a r, f a = some r → r.2.callback = a.callback) : (Act.onInstance? i f : Act σ α).Keeps R :=
  .onInstance? fun _ a r ha hr => M.setInstance ha (h a r hr)

theorem onPool {k : SubsystemId} {f : Pool → α × Pool} (h : ∀ p : Pool, p.LeadsGently (f p).2) :
    (Act.onPool k f : Act σ α).Keeps R :=
  .onSubsystem fun _ s hs => M.setPool hs (h s.pool)

/-- One gentle operation on a pool. -/
theorem pool (k : SubsystemId) {a : Pool.Action} (ha : a.isGentle = true) :
    (Act.onPool k fun p => p.perform a : Act σ a.Reply).Keeps R :=
  M.onPool fun _ => .perform .refl ha

/-- One operation on a pool; whether the relation holds across collecting strings is to be shown. -/
theorem operate (k : SubsystemId) (a : Pool.Action)
    (hcollect : a = .collect → (Act.onPool k fun p => p.perform .collect : Act σ Nat).Keeps R) :
    (Act.operate k a : Act σ a.Reply).Keeps R := by
  cases a with
  | remove id => exact M.removeString k id
  | collect => exact hcollect rfl
  | _ => exact M.pool k rfl

theorem notify {n : Notice} (h : (Event.notice n).isRemark = true) : (Act.notify n : Act σ Unit).Keeps R :=
  .record fun w => M.tell w _ h

theorem raise (i : InstanceId) (s : Status) : (Act.raise i s : Act σ Status).Keeps R :=
  M.onInstance fun _ => rfl

/-! ## Memory -/

theorem cellsAt (p : Place) : (Act.cellsAt p : Act σ (List Cell)).Keeps R := by
  intro w a w' h
  obtain ⟨cells, -, e⟩ := Option.map_eq_some_iff.1 h
  cases e
  exact M.track.refl w

theorem cellAt (p : Place) : (Act.cellAt p : Act σ Cell).Keeps R :=
  M.bind (M.cellsAt p) fun _ => M.ofOption _

theorem writeAt (p : Place) (cells : List Cell) : (Act.writeAt p cells : Act σ Unit).Keeps R := by
  cases p with
  | memory i index =>
    refine M.onInstance? fun a r h => ?_
    obtain ⟨memory, -, e⟩ := Option.map_eq_some_iff.1 h
    rw [← e]
  | null k =>
    intro w a w' h
    obtain ⟨s, hs, e⟩ := Option.bind_eq_some_iff.1 h
    rcases cells with _ | ⟨c, _ | ⟨d, rest⟩⟩
    · cases e
      exact M.track.refl w
    · cases e
      exact M.setPool hs (.write .refl c)
    · cases e
  | pooled k id part =>
    intro w a w' h
    obtain ⟨s, hs, e⟩ := Option.bind_eq_some_iff.1 h
    obtain ⟨pool, hpool, e⟩ := Option.map_eq_some_iff.1 e
    cases e
    exact M.setPool hs (Pool.leads_writeString? hpool)

theorem resolvePooled (k : SubsystemId) (i : InstanceId) (address : Cell) :
    (Act.resolvePooled k i address : Act σ (Option Place)).Keeps R := by
  unfold Act.resolvePooled
  split
  · exact M.onPool fun p => .perform (a := .resetNull) .refl rfl
  · refine M.onPool fun p => ?_
    split
    · exact .perform (a := .setCache _) .refl rfl
    · exact .refl

theorem virtualize (k : SubsystemId) (i : InstanceId) (address : Cell) (resolved : Except Status Place) :
    (Act.virtualize k i address resolved : Act σ (Except Status Place)).Keeps R := by
  unfold Act.virtualize
  split
  · refine M.bind (M.resolvePooled k i address) fun place => ?_
    cases place <;> exact M.pure _
  · refine M.bind (M.getSubsystem k) fun s => ?_
    split
    · refine M.bind (M.cellAt _) fun value => ?_
      refine M.bind (M.resolvePooled k i value) fun place => ?_
      cases place <;> exact M.pure _
    · exact M.pure _
  · exact M.pure _

theorem resolveWithin (i : InstanceId) (address : Cell) (bound : Nat) :
    (Act.resolveWithin i address bound : Act σ (Except Status Place)).Keeps R := by
  -- along the chain of detours that the address goes through
  induction bound with
  | zero => exact .undefined
  | succ bound ih =>
    unfold Act.resolveWithin
    refine M.bind M.get fun w => ?_
    split
    · refine M.bind (M.getInstance i) fun a => ?_
      split <;> exact M.pure _
    · refine M.bind (M.past (by decide) ih) fun resolved => ?_
      exact M.virtualize _ i address resolved

theorem resolve (i : InstanceId) (address : Cell) :
    (Act.resolve i address : Act σ (Except Status Place)).Keeps R :=
  M.bind M.get fun _ => M.resolveWithin i address _

theorem measureWithin (p : Place) (bound : Nat) : (Act.measureWithin p bound : Act σ Nat).Keeps R := by
  induction bound with
  | zero => exact .undefined
  | succ bound ih =>
    unfold Act.measureWithin
    refine M.bind M.get fun w => ?_
    split
    · exact M.bind (M.cellsAt p) fun _ => M.ofOption _
    · refine M.bind (M.getSubsystem _) fun s => ?_
      split
      · exact M.pure _
      · exact M.past (by decide) ih

theorem measure (p : Place) : (Act.measure p : Act σ Nat).Keeps R :=
  M.bind M.get fun _ => M.measureWithin p _

/-- What is kept at every place is kept at the place of an address. -/
theorem resolved (i : InstanceId) (address : Cell) {next : Except Status Place → Act σ β}
    (hfail : ∀ s, (next (.error s)).Keeps R) (hplace : ∀ p, (next (.ok p)).Keeps R) :
    (Act.resolve i address >>= next).Keeps R := by
  refine M.bind (M.resolve i address) fun resolved => ?_
  cases resolved with
  | error s => exact hfail s
  | ok p => exact hplace p

theorem readString (i : InstanceId) (address : Cell) :
    (Act.readString i address : Act σ (Except Status (List Cell))).Keeps R := by
  refine M.resolved i address (fun s => M.pure _) fun p => ?_
  refine M.bind (M.measure p) fun length => ?_
  refine M.bind (M.cellsAt p) fun cells => ?_
  exact M.bind (M.ofOption _) fun text => M.pure _

theorem readCells (i : InstanceId) (address : Cell) (count : Nat) :
    (Act.readCells i address count : Act σ (Except Status (List Cell))).Keeps R := by
  unfold Act.readCells
  split
  · exact M.pure _
  · refine M.resolved i address (fun s => M.pure _) fun p => ?_
    refine M.bind (M.cellsAt p) fun cells => ?_
    exact M.bind (M.ofOption _) fun first => M.pure _

theorem writeString (i : InstanceId) (address : Cell) (cells : List Cell) (capacity : Nat) :
    (Act.writeString i address cells capacity : Act σ (Except Status Nat)).Keeps R := by
  unfold Act.writeString
  split
  · exact M.pure _
  · refine M.resolved i address (fun s => M.pure _) fun p => ?_
    exact M.bind (M.writeAt p _) fun _ => M.pure _

theorem peek (i : InstanceId) (address : Cell) : (Act.peek i address : Act σ (Except Status Cell)).Keeps R :=
  M.resolved i address (fun _ => M.pure _) fun p => M.bind (M.cellAt p) fun _ => M.pure _

theorem poke (i : InstanceId) (address c : Cell) : (Act.poke i address c : Act σ (Except Status Unit)).Keeps R :=
  M.resolved i address (fun _ => M.pure _) fun p => M.bind (M.writeAt p [c]) fun _ => M.pure _

theorem stringLength (i : InstanceId) (address : Cell) :
    (Act.stringLength i address : Act σ (Except Status Nat)).Keeps R :=
  M.resolved i address (fun _ => M.pure _) fun p => M.bind (M.measure p) fun _ => M.pure _

/-! ## Looking functions up -/

theorem callbackId (ids : CallbackIds σ) (k : SubsystemId) (i : InstanceId) (name : String) :
    (Act.callbackId ids k i name).Keeps R := by
  have hrecord : ∀ id, (Act.record (.lookedUp k i name id) >>= fun _ => Pure.pure id : Act σ (Option Nat)).Keeps R :=
    fun id => M.bind (.record fun w => M.tell w _ rfl) fun _ => M.pure _
  refine M.bind (M.getSubsystem k) fun s => ?_
  cases s.collaborators.events with
  | unsupported => exact M.bind (M.pure none) hrecord
  | host => exact M.bind M.get fun w => M.bind (M.pure _) hrecord

theorem lookupWithin (ids : CallbackIds σ) (i : InstanceId) (name : String) (bound : Nat) :
    (Act.lookupWithin ids i name bound).Keeps R := by
  induction bound with
  | zero => exact .undefined
  | succ bound ih =>
    unfold Act.lookupWithin
    refine M.bind M.get fun w => ?_
    split
    · refine M.bind (M.getInstance i) fun a => ?_
      split <;> exact M.pure _
    · refine M.bind (M.callbackId ids _ i name) fun id => ?_
      cases id with
      | some id => exact M.pure _
      | none => exact M.past (by decide) ih

theorem lookup (ids : CallbackIds σ) (i : InstanceId) (name : String) : (Act.lookup ids i name).Keeps R :=
  M.bind M.get fun _ => M.lookupWithin ids i name _

theorem lookupPast (ids : CallbackIds σ) (k : SubsystemId) (i : InstanceId) (name : String) :
    (Act.lookupPast ids k i name).Keeps R :=
  M.past (by decide) (M.lookup ids i name)

end Mild

end Act

/-! ## Built-in natives -/

namespace NativeAct

variable {R : World σ → World σ → Prop}

theorem Keeps.pure (t : Track R) (a : α) : Keeps R (pure a : NativeAct σ α) :=
  Act.Keeps.pure t (Except.ok a : Except NativeError α)

theorem Keeps.bind (t : Track R) {native : NativeAct σ α} {next : α → NativeAct σ β} (h : native.Keeps R)
    (hn : ∀ a, (next a).Keeps R) : Keeps R (native >>= next) := by
  refine Act.Keeps.bind t h fun r => ?_
  cases r with
  | ok a => exact hn a
  | error e => exact Act.Keeps.pure t _

theorem Keeps.fail (t : Track R) (e : NativeError) : Keeps R (fail e : NativeAct σ α) :=
  Act.Keeps.pure t _

theorem Keeps.lift (t : Track R) {act : Act σ α} (h : act.Keeps R) : Keeps R (lift act) :=
  Act.Keeps.bind t h fun _ => Act.Keeps.pure t _

theorem Keeps.machine (t : Track R) {act : Act σ (Except Status α)} (h : act.Keeps R) : Keeps R (machine act) := by
  refine Act.Keeps.bind t h fun r => ?_
  cases r <;> exact Act.Keeps.pure t _

theorem Keeps.pool (t : Track R) (k : SubsystemId) : Keeps R (pool k : NativeAct σ Pool) :=
  .lift t (Act.Keeps.bind t (.getSubsystem t k) fun _ => Act.Keeps.pure t _)

/-- What is done once there are enough arguments. -/
theorem Keeps.required (t : Track R) {params : List Cell} {expected : Nat} {native : NativeAct σ α}
    (h : native.Keeps R) : Keeps R (require params expected >>= fun _ => native) := by
  refine .bind t ?_ fun _ => h
  unfold require
  split
  · exact .fail t _
  · exact .pure t _

/-- What is done with an argument that is a size or a position. -/
theorem Keeps.sized (t : Track R) {what : String} {c : Cell} {next : Nat → NativeAct σ α}
    (h : ∀ n, (next n).Keeps R) : Keeps R (size what c >>= next) := by
  refine .bind t ?_ h
  unfold size
  split
  · exact .pure t _
  · exact .fail t _

theorem Keeps.snapshot (t : Track R) (k : SubsystemId) (id : StringId) :
    Keeps R (StringNative.snapshot k id : NativeAct σ CellString) := by
  unfold StringNative.snapshot
  split
  · exact .pure t _
  · refine .bind t (.pool t k) fun p => ?_
    split
    · exact .pure t _
    · exact .fail t _

theorem Keeps.taskResult (t : Track R) (task : TaskId) : Keeps R (taskResult task : NativeAct σ (Option Cell)) := by
  refine .bind t (.lift t (.get t)) fun w => ?_
  split
  · exact .pure t _
  · exact .fail t _

end NativeAct

namespace Act.Mild

variable {R : World σ → World σ → Prop} (M : Mild R)
include M

open NativeAct

/-- What a native keeps is still kept when its failures are reported. -/
theorem settleNative {name : String} {i : InstanceId} {native : NativeAct σ Cell} (h : native.Keeps R) :
    (Act.settleNative name i native).Keeps R := by
  refine M.bind h fun r => ?_
  split
  · exact M.pure _
  · exact M.pure _
  · exact M.bind (M.notify rfl) fun _ => M.bind (M.raise i .native) fun _ => M.pure _

theorem poolNative (k : SubsystemId) {f : Pool → Except PoolError (α × Pool)}
    (h : ∀ p : Pool, p.LeadsGently (p.settle (f p)).2) : (NativeAct.onPool k f : NativeAct σ α).Keeps R := by
  refine M.bind (M.onPool h) fun r => ?_
  cases r <;> exact M.pure _

theorem addNative (k : SubsystemId) (s : CellString) : (StringNative.add k s : NativeAct σ Cell).Keeps R :=
  .bind M.track (.lift M.track (M.onPool fun _ => .perform (a := .add s) .refl rfl)) fun _ => .pure M.track _

theorem editNative (k : SubsystemId) (id : StringId) (change : CellString.Edit) :
    (StringNative.edit k id change : NativeAct σ Unit).Keeps R := by
  refine M.poolNative k fun p => ?_
  have hedit : p.LeadsGently (p.perform (.edit id change)).2 := .perform .refl rfl
  cases hp : p.edit? id change with
  | none => exact .refl
  | some r =>
    simp only [Pool.perform, hp] at hedit
    exact hedit

theorem string (k : SubsystemId) (i : InstanceId) (params : List Cell) (n : StringNative) :
    (n.run k i params : NativeAct σ Cell).Keeps R := by
  have t := M.track
  have hpure : ∀ c : Cell, (Pure.pure c : NativeAct σ Cell).Keeps R := .pure t
  -- each of them looks at its arguments and then works on the pool, and some on memory
  cases n with
  | new => exact .required t (.bind t (.machine t (M.readString i _)) fun cells => M.addNative k _)
  | newArray =>
    refine .required t (.sized t fun count => ?_)
    exact .bind t (.machine t (M.readCells i _ count)) fun cells => M.addNative k _
  | newBuffer =>
    refine .required t ?_
    dsimp only
    split
    · exact .fail t _
    · exact M.addNative k _
  | address => exact .required t (M.poolNative k fun p => .perform (a := .bind i _ .view) .refl rfl)
  | recordAddress => exact .required t (M.poolNative k fun p => .perform (a := .bind i _ .record) .refl rfl)
  | acquire =>
    exact .required t (.bind t (M.poolNative k fun p => .perform (a := .acquire _) .refl rfl) fun _ => hpure _)
  | release =>
    exact .required t (.bind t (M.poolNative k fun p => .perform (a := .release _) .refl rfl) fun _ => hpure _)
  | delete =>
    refine .required t (.bind t (.lift t (M.removeString k _)) fun r => ?_)
    cases r with
    | ok s => exact hpure _
    | error e => exact .fail t _
  | valid => exact .required t (.bind t (.pool t k) fun _ => hpure _)
  | clone =>
    refine .required t (.bind t (.pool t k) fun p => ?_)
    split
    · exact M.addNative k _
    · exact .fail t _
  | length => exact .required t (.bind t (.snapshot t k _) fun _ => hpure _)
  | get =>
    refine .required t (.sized t fun capacity => ?_)
    split
    · exact hpure _
    · refine .bind t (.snapshot t k _) fun s => ?_
      exact .bind t (.machine t (M.writeString i _ _ capacity)) fun _ => hpure _
  | getCell => exact .required t (.bind t (.pool t k) fun _ => hpure _)
  | setCell =>
    refine .required t (.bind t (.pool t k) fun p => ?_)
    dsimp only
    split
    · exact .bind t (M.editNative k _ _) fun _ => hpure _
    · exact hpure _
  | append =>
    refine .required t (.bind t (.snapshot t k _) fun added => ?_)
    exact .bind t (M.editNative k _ _) fun _ => hpure _
  | concat =>
    refine .required t (.bind t (.snapshot t k _) fun first => ?_)
    exact .bind t (.snapshot t k _) fun second => M.addNative k _
  | resize =>
    refine .required t (.sized t fun length => ?_)
    exact .bind t (M.editNative k _ _) fun _ => hpure _
  | clear => exact .required t (.bind t (M.editNative k _ _) fun _ => hpure _)
  | toUpper => exact .required t (.bind t (.snapshot t k _) fun _ => M.addNative k _)
  | toLower => exact .required t (.bind t (.snapshot t k _) fun _ => M.addNative k _)

/-- What requests to wait keep as well, every native on tasks keeps. -/
theorem task (resume : Resume σ) (k : SubsystemId) (i : InstanceId) (params : List Cell)
    (hawait : ∀ task, (requestAwait k i task 0 : Act σ Status).Keeps R) (n : TaskNative) :
    (n.run resume k i params : NativeAct σ Cell).Keeps R := by
  have t := M.track
  cases n with
  | new => exact .bind t (.lift t M.tasks.create) fun _ => .pure t _
  | setResult =>
    refine .required t (.bind t (.lift t (M.tasks.complete resume _ _)) fun r => ?_)
    cases r with
    | ok n => exact .pure t _
    | error e => exact .fail t _
  | getResult =>
    refine .required t (.bind t (.taskResult t _) fun r => ?_)
    cases r with
    | some value => exact .pure t _
    | none => exact .fail t _
  | valid => exact .required t (.bind t (.lift t M.get) fun w => .pure t _)
  | await =>
    -- a task that has its result is not waited for
    refine .required t (.bind t (.taskResult t _) fun r => ?_)
    cases r with
    | some value => exact .pure t _
    | none => exact .bind t (.lift t (hawait _)) fun _ => .fail t _

theorem stringNative (k : SubsystemId) (i : InstanceId) (params : List Cell) (n : StringNative) :
    (Act.settleNative n.name i (n.run k i params) : Act σ (Except Status Cell)).Keeps R :=
  M.settleNative (M.string k i params n)

theorem taskNative (resume : Resume σ) (k : SubsystemId) (i : InstanceId) (params : List Cell)
    (hawait : ∀ task, (requestAwait k i task 0 : Act σ Status).Keeps R) (n : TaskNative) :
    (Act.settleNative n.name i (n.run resume k i params)).Keeps R :=
  M.settleNative (M.task resume k i params hawait n)

theorem detachNative (k : SubsystemId) (i : InstanceId) (params : List Cell)
    (hdetach : ∀ marker, (requestDetach k i marker 0 : Act σ Status).Keeps R) :
    (Act.settleNative "thread_detach" i (NativeAct.runDetach k i params) : Act σ (Except Status Cell)).Keeps R :=
  M.settleNative (.bind M.track (.lift M.track (hdetach _)) fun _ => .fail M.track _)

end Act.Mild

/-! ## What host code asks for -/

/-- Whether an operation leaves everything alone that execute calls rely on. -/
def Operation.isQuiet : Operation → Bool
  | newSubsystem _ _ | drop _ | install _ | uninstall _ | installAll _ | toggle _ _ _ => false
  | requestAwait _ _ _ _ | requestDetach _ _ _ _ | unload _ _ => false
  | pushFrame _ _ | popFrame _ _ | setFrame _ _ _ | removeFrames _ _ => false
  | swapCallback _ _ _ | takeCallback _ _ | restoreCallback _ _ | forgetCallback _ _ => false
  | notify (.callbackLost _) => false
  | _ => true

theorem Instance.callback_allot? {a : Instance} {cells : Nat} {r : Except Status Cell × Instance}
    (h : a.allot? cells = some r) : r.2.callback = a.callback := by
  unfold allot? at h
  split at h
  · cases h; rfl
  split at h
  · cases h; rfl
  split at h
  · cases h; rfl
  · obtain ⟨start, -, h⟩ := Option.bind_eq_some_iff.1 h
    obtain ⟨memory, -, h⟩ := Option.bind_eq_some_iff.1 h
    cases h
    rfl

theorem Instance.callback_allocCells? {a : Instance} {cells : List Cell} {r : Except Status Cell × Instance}
    (h : a.allocCells? cells = some r) : r.2.callback = a.callback := by
  unfold allocCells? at h
  obtain ⟨⟨answer, b⟩, hb, h⟩ := Option.bind_eq_some_iff.1 h
  have hcallback := callback_allot? hb
  cases answer with
  | error s =>
    cases h
    exact hcallback
  | ok address =>
    obtain ⟨start, -, h⟩ := Option.bind_eq_some_iff.1 h
    obtain ⟨memory, -, h⟩ := Option.bind_eq_some_iff.1 h
    cases h
    exact hcallback

/-- Whatever has nothing to do with execute calls by its kind. -/
theorem Act.Mild.perform {R : World σ → World σ → Prop} (M : Mild R) (ids : CallbackIds σ) (resume : Resume σ)
    {o : Operation} (h : o.isQuiet = true)
    (hcollect : ∀ k, o = .pool k .collect → (Act.onPool k fun p => p.perform .collect : Act σ Nat).Keeps R) :
    (o.perform ids resume).Keeps R := by
  cases o with
  | newInstance cells =>
    intro w a w' e
    cases e
    exact M.addInstance w _ rfl
  | addFunction i name code => exact M.onInstance fun _ => rfl
  | addNative i name code => exact M.onInstance fun _ => rfl
  | registerModule k i module => exact M.onInstance fun _ => rfl
  | findNative i name => exact M.bind (M.getInstance i) fun a => M.pure _
  | lookup i name => exact M.lookup ids i name
  | readRegisters i => exact M.bind (M.getInstance i) fun a => M.pure _
  | setRegister i r c => exact M.onInstance fun _ => rfl
  | restore i token =>
    refine M.onInstance fun a => ?_
    unfold Instance.restore
    split <;> rfl
  | raise i s => exact M.raise i s
  | clearError i => exact M.onInstance fun _ => rfl
  | allot i cells => exact M.onInstance? fun a r => Instance.callback_allot?
  | allocCells i cells => exact M.onInstance? fun a r => Instance.callback_allocCells?
  | release i hea =>
    refine M.onInstance fun a => ?_
    show (a.release hea).callback = a.callback
    unfold Instance.release
    split <;> rfl
  | peek i address => exact M.peek i address
  | poke i address c => exact M.poke i address c
  | stringLength i address => exact M.stringLength i address
  | readString i address => exact M.readString i address
  | readCells i address count => exact M.readCells i address count
  | writeString i address cells capacity => exact M.writeString i address cells capacity
  | setRefArgs k on => exact .onSubsystem fun w s hs => M.setRefArgs on hs
  | pool k a => exact M.operate k a fun ha => hcollect k (ha ▸ rfl)
  | createTask => exact M.tasks.create
  | completeTask task value => exact M.tasks.complete resume task value
  | registerWaiter task token => exact M.tasks.register task token
  | removeTask task => exact M.tasks.remove task
  | mark number => exact .record fun w => M.tell w _ rfl
  | notify n => cases n <;> first | exact M.notify rfl | cases h
  | _ => cases h

/-- An operation that is quiet by its kind is quiet. -/
theorem Operation.quiet_perform (ids : CallbackIds σ) (resume : Resume σ) {o : Operation} (h : o.isQuiet = true) :
    (o.perform ids resume).IsQuiet :=
  Act.mild_quiet.perform ids resume h fun k _ => quiet_onPool k _

end Interpose

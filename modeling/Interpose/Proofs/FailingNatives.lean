import Interpose.Native.Strings
import Interpose.Native.Tasks
import Interpose.Proofs.NativeCalls
import Interpose.Proofs.Wiring

/-!
# Natives that fail

A built-in native comes to what it changes only after everything that can fail: it counts its arguments, reads the pool or
the tasks, and resolves an address, and only then adds, edits or writes. What is changed in the middle of that, such as a
hook that goes out of its slot for an address, is as it was when the native comes back with a failure. Only a request for a
suspension changes something and fails with what it was answered.

Main statement: `Machine.failing_natives`.
-/

namespace Interpose

variable {σ α β ε : Type}

namespace World

/-- Nothing is different but the innermost frame that a layer has for an instance. -/
def Marked (w : World σ) (k : SubsystemId) (i : InstanceId) (v : World σ) : Prop :=
  ∃ s f g rest, w.subsystem? k = some s ∧ s.contexts.frames i = f :: rest ∧
    (w.setSubsystem k { s with contexts := ⟨s.contexts.frameStacks.insert i (g :: rest)⟩ }).Untouched v

/-- A native that an instance called fails, and what has changed by then. -/
inductive Aborts (w : World σ) (k : SubsystemId) (i : InstanceId) : NativeError → World σ → Prop
  | refused {e : NativeError} {v : World σ} (he : ∀ s, e = .status s → s = .memoryAccess ∨ s = .invalidState)
      (hv : w.Untouched v) : Aborts w k i e v
  | suspended {v : World σ} (hv : w.Marked k i v) : Aborts w k i (.status .sleep) v

/-- A call of a native comes back with a status, and what has changed by then. -/
inductive Failed (w : World σ) (k : SubsystemId) (i : InstanceId) : Status → World σ → Prop
  /-- The status of natives is recorded on the instance, and nothing else is different. -/
  | native {a : Instance} {v : World σ} (ha : w.instance? i = some a) (hv : w.Untouched v) :
      Failed w k i .native (v.setInstance i { a with error := some .native })
  /-- A status of the machine is handed on, and nothing is different, nor is the error of the instance. -/
  | handedOn {s : Status} {v : World σ} (hs : s = .memoryAccess ∨ s = .invalidState) (hv : w.Untouched v) :
      Failed w k i s v
  /-- The call is suspended: its innermost frame may be another, and nothing else is different. -/
  | suspended {v : World σ} (hv : w.Marked k i v) : Failed w k i .sleep v

theorem untouched_self {w : World σ} {k : SubsystemId} {s : Subsystem} (hs : w.subsystem? k = some s) :
    w.Untouched (w.setSubsystem k s) := by
  rw [setSubsystem_self hs]
  exact .refl w

end World

/-! ## Operations that do not fail, and operations that only read -/

/-- An operation does not fail. -/
def Act.Succeeds (act : Act σ (Except ε α)) : Prop :=
  ∀ ⦃w e w'⦄, act w ≠ some (.error e, w')

/-- An operation changes nothing when it fails. -/
def Act.Refuses (act : Act σ (Except ε α)) : Prop :=
  ∀ ⦃w e w'⦄, act w = some (.error e, w') → w.Untouched w'

namespace Act.Succeeds

theorem ok (a : α) : (pure (.ok a) : Act σ (Except ε α)).Succeeds := by
  intro w e w' h
  cases h

theorem bind {x : Act σ β} {f : β → Act σ (Except ε α)} (h : ∀ b, (f b).Succeeds) : (x >>= f).Succeeds := by
  intro w e w' hx
  obtain ⟨⟨b, v⟩, -, hx⟩ := Option.bind_eq_some_iff.1 hx
  exact h b hx

end Act.Succeeds

namespace Act

/-- A pool that refuses an operation is put back as it was. -/
theorem refuses_onPool (k : SubsystemId) (f : Pool → Except PoolError (α × Pool)) :
    (onPool k (fun p => p.settle (f p)) : Act σ (Except PoolError α)).Refuses := by
  intro w e w' h
  obtain ⟨s, hs, h⟩ := Option.map_eq_some_iff.1 h
  cases hf : f s.pool with
  | ok answer =>
    simp only [hf, Pool.settle] at h
    cases h
  | error refusal =>
    simp only [hf, Pool.settle] at h
    cases h
    exact World.untouched_self hs

theorem refuses_removeString (k : SubsystemId) (id : StringId) :
    (removeString k id : Act σ (Except PoolError CellString)).Refuses := by
  intro w e w' h
  obtain ⟨⟨r, v⟩, hpool, h⟩ := Option.bind_eq_some_iff.1 h
  cases r with
  | ok s => cases h
  | error refusal =>
    cases h
    exact refuses_onPool k (fun p => p.remove id) hpool

theorem refuses_completeTask (resume : Resume σ) (task : TaskId) (value : Cell) :
    (completeTask resume task value).Refuses := by
  intro w e w' h
  unfold completeTask at h
  rw [bind_of_some (get_eq w)] at h
  cases hcomplete : w.tasks.complete task value with
  | error refusal =>
    simp only [hcomplete] at h
    cases h
    exact .refl w
  | ok answer =>
    simp only [hcomplete] at h
    exact ((Succeeds.bind fun _ => .bind fun _ => .ok _ : Succeeds _) h).elim

end Act

namespace NativeAct

variable {native : NativeAct σ α} {next : α → NativeAct σ β} {k : SubsystemId} {i : InstanceId} {w w' : World σ}

/-- A native does not fail. -/
def Succeeds (native : NativeAct σ α) : Prop :=
  Act.Succeeds native.run

/-- A native changes nothing, and does not fail with a status. -/
def Reads (native : NativeAct σ α) : Prop :=
  ∀ ⦃w r w'⦄, native.run w = some (r, w') → w' = w ∧ ∀ s, r ≠ .error (.status s)

/-- A native of a layer, called by an instance, changes nothing when it fails, unless it is suspended. -/
def Atomic (k : SubsystemId) (i : InstanceId) (native : NativeAct σ α) : Prop :=
  ∀ ⦃w e w'⦄, w.Wired → native.run w = some (.error e, w') → w.Aborts k i e w'

/-- A native that goes on has answered so far, and one that has failed is over. -/
theorem run_bind_cases {r : Except NativeError β} (h : (native >>= next).run w = some (r, w')) :
    (∃ a v, native.run w = some (.ok a, v) ∧ (next a).run v = some (r, w')) ∨
      ∃ e, native.run w = some (.error e, w') ∧ r = .error e := by
  cases hrun : native.run w with
  | none =>
    have hnone : (native >>= next).run w = none := congrArg (fun o => Option.bind o _) hrun
    rw [hnone] at h
    cases h
  | some found =>
    obtain ⟨answer, v⟩ := found
    cases answer with
    | ok a =>
      rw [run_bind_of_ok hrun] at h
      exact .inl ⟨a, v, rfl, h⟩
    | error e =>
      rw [run_bind_of_error hrun] at h
      cases h
      exact .inr ⟨e, rfl, rfl⟩

namespace Succeeds

theorem pure (a : α) : (Pure.pure a : NativeAct σ α).Succeeds :=
  Act.Succeeds.ok a

theorem lift (act : Act σ α) : (NativeAct.lift act).Succeeds :=
  Act.Succeeds.bind (x := act) fun a => .ok a

theorem bind (h : native.Succeeds) (hnext : ∀ a, (next a).Succeeds) : (native >>= next).Succeeds := by
  intro w e w' hrun
  rcases run_bind_cases hrun with ⟨a, v, -, hlater⟩ | ⟨e', hfirst, -⟩
  · exact hnext a hlater
  · exact h hfirst

end Succeeds

namespace Reads

theorem pure (a : α) : (Pure.pure a : NativeAct σ α).Reads := by
  intro w r w' h
  cases h
  exact ⟨rfl, nofun⟩

theorem fail {e : NativeError} (he : ∀ s, e ≠ .status s) : (fail e : NativeAct σ α).Reads := by
  intro w r w' h
  cases h
  exact ⟨rfl, fun s hs => he s (Except.error.inj hs)⟩

theorem bind (h : native.Reads) (hnext : ∀ a, (next a).Reads) : (native >>= next).Reads := by
  intro w r w' hrun
  rcases run_bind_cases hrun with ⟨a, v, hfirst, hlater⟩ | ⟨e, hfirst, rfl⟩
  · obtain ⟨rfl, -⟩ := h hfirst
    exact hnext a hlater
  · exact ⟨(h hfirst).1, fun s hs => (h hfirst).2 s (congrArg Except.error (Except.error.inj hs))⟩

/-- Looking at something. -/
theorem lift {act : Act σ α} (h : ∀ {w a w'}, act w = some (a, w') → w' = w) : (NativeAct.lift act).Reads := by
  intro w r w' hrun
  obtain ⟨⟨a, v⟩, hact, hrun⟩ := Option.bind_eq_some_iff.1 hrun
  cases hrun
  exact ⟨h hact, nofun⟩

theorem require (params : List Cell) (expected : Nat) : (require params expected : NativeAct σ Unit).Reads := by
  unfold NativeAct.require
  split
  · exact .fail nofun
  · exact .pure ()

theorem size (what : String) (c : Cell) : (size what c : NativeAct σ Nat).Reads := by
  unfold NativeAct.size
  split
  · exact .pure _
  · exact .fail nofun

theorem pool (k : SubsystemId) : (pool k : NativeAct σ Pool).Reads := by
  refine .lift fun {w p w'} h => ?_
  obtain ⟨⟨s, v⟩, hget, h⟩ := Option.bind_eq_some_iff.1 h
  obtain ⟨_, -, hsame⟩ := Option.map_eq_some_iff.1 hget
  cases hsame
  cases h
  rfl

theorem snapshot (k : SubsystemId) (id : StringId) : (StringNative.snapshot k id : NativeAct σ CellString).Reads := by
  unfold StringNative.snapshot
  split
  · exact .pure _
  · refine .bind (.pool k) fun p => ?_
    split
    · exact .pure _
    · exact .fail nofun

theorem tasks : (NativeAct.lift get : NativeAct σ (World σ)).Reads :=
  .lift fun h => by
    cases h
    rfl

theorem taskResult (task : TaskId) : (taskResult task : NativeAct σ (Option Cell)).Reads := by
  refine .bind .tasks fun w => ?_
  split
  · exact .pure _
  · exact .fail nofun

end Reads

/-! ## What changes nothing when it fails -/

namespace Atomic

theorem of_reads (h : native.Reads) : native.Atomic k i := by
  intro w e w' _ hrun
  obtain ⟨rfl, hstatus⟩ := h hrun
  exact .refused (fun s hs => absurd (congrArg Except.error hs) (hstatus s)) (.refl w')

theorem of_succeeds (h : native.Succeeds) : native.Atomic k i :=
  fun _ _ _ _ hrun => (h hrun).elim

/-- Reading before it is no change. -/
theorem after (h : native.Reads) (hnext : ∀ a, (next a).Atomic k i) : (native >>= next).Atomic k i := by
  intro w e w' hw hrun
  rcases run_bind_cases hrun with ⟨a, v, hfirst, hlater⟩ | ⟨e', hfirst, he⟩
  · obtain ⟨rfl, -⟩ := h hfirst
    exact hnext a hw hlater
  · cases he
    exact of_reads h hw hfirst

/-- What comes after it does not fail. -/
theorem before (h : native.Atomic k i) (hnext : ∀ a, (next a).Succeeds) : (native >>= next).Atomic k i := by
  intro w e w' hw hrun
  rcases run_bind_cases hrun with ⟨a, v, -, hlater⟩ | ⟨e', hfirst, he⟩
  · exact (hnext a hlater).elim
  · cases he
    exact h hw hfirst

/-- An operation that is refused, and what is made of that. -/
theorem refusing {act : Act σ (Except ε α)} {next : Except ε α → NativeAct σ β} (h : act.Refuses)
    (hok : ∀ a, (next (.ok a)).Succeeds) (herror : ∀ e, (next (.error e)).Reads) :
    (lift act >>= next).Atomic k i := by
  intro w e w' _ hrun
  rcases run_bind_cases hrun with ⟨r, v, hact, hlater⟩ | ⟨e', hfirst, -⟩
  · obtain ⟨⟨r', v'⟩, hact, hsame⟩ := Option.bind_eq_some_iff.1 hact
    cases hsame
    cases r with
    | ok a => exact (hok a hlater).elim
    | error refusal =>
      obtain ⟨rfl, hstatus⟩ := herror refusal hlater
      exact .refused (fun s hs => absurd (congrArg Except.error hs) (hstatus s)) (h hact)
  · exact (Succeeds.lift act hfirst).elim

theorem onPool (f : Pool → Except PoolError (α × Pool)) : (onPool k f : NativeAct σ α).Atomic k i := by
  intro w e w' _ hrun
  obtain ⟨⟨r, v⟩, hact, hrun⟩ := Option.bind_eq_some_iff.1 hrun
  cases r with
  | ok a => cases hrun
  | error refusal =>
    cases hrun
    exact .refused nofun (Act.refuses_onPool k f hact)

/-- An operation of the machine fails if an address leads nowhere. -/
theorem machine {act : Act σ (Except Status α)} {address : Cell}
    (h : ∀ {w e w'}, act w = some (.error e, w') → Act.resolve i address w = some (.error e, w')) :
    (machine act).Atomic k i := by
  intro w e w' hw hrun
  obtain ⟨⟨r, v⟩, hact, hrun⟩ := Option.bind_eq_some_iff.1 hrun
  cases r with
  | ok a => cases hrun
  | error s =>
    cases hrun
    obtain ⟨rfl, huntouched⟩ := Act.resolve_fails hw (h hact)
    exact .refused (fun s hs => .inl (NativeError.status.inj hs).symm) huntouched

/-- A request that is answered a status, with which the native fails. -/
theorem requesting {change : Frame → Frame} {event : Status → Event} :
    (lift (do
      let s ← Act.onContexts k fun c => c.settle (c.editTop? i change)
      Act.record (event s)
      Pure.pure s) >>= fun s => fail (.status s) : NativeAct σ α).Atomic k i := by
  intro w e w' _ hrun
  rcases run_bind_cases hrun with ⟨answer, v, hact, hlater⟩ | ⟨e', hfirst, -⟩
  · cases hlater
    obtain ⟨⟨answer', v'⟩, hact, hsame⟩ := Option.bind_eq_some_iff.1 hact
    cases hsame
    obtain ⟨⟨status, v''⟩, hedit, hact⟩ := Option.bind_eq_some_iff.1 hact
    obtain ⟨s, hs, hedit⟩ := Option.map_eq_some_iff.1 hedit
    cases hact
    cases hframes : s.contexts.frames i with
    | cons f rest =>
      simp only [Contexts.editTop?, hframes, Contexts.settle] at hedit
      cases hedit
      exact .suspended ⟨s, f, change f, rest, hs, hframes, World.untouched_record _ _⟩
    | nil =>
      -- there is no frame to write into
      simp only [Contexts.editTop?, hframes, Contexts.settle] at hedit
      cases hedit
      exact .refused (fun s hs => .inr (NativeError.status.inj hs).symm)
        ((World.untouched_self hs).trans (World.untouched_record _ _))
  · exact (Succeeds.lift _ hfirst).elim

end Atomic

end NativeAct

/-! ## Operations of the machine -/

namespace Act

/-- An operation that resolves an address and then does what cannot fail. -/
theorem resolve_of_error {i : InstanceId} {address : Cell} {f : Except Status Place → Act σ (Except Status α)} {w w' : World σ}
    {e : Status} (h : (resolve i address >>= f) w = some (.error e, w')) (herror : ∀ s, f (.error s) = pure (.error s))
    (hok : ∀ p, (f (.ok p)).Succeeds) : resolve i address w = some (.error e, w') := by
  obtain ⟨⟨r, v⟩, hresolve, h⟩ := Option.bind_eq_some_iff.1 h
  cases r with
  | ok p => exact (hok p h).elim
  | error s =>
    have hgiven := h.symm.trans (congrFun (herror s) v)
    cases hgiven
    exact hresolve

variable {i : InstanceId} {address : Cell} {w w' : World σ} {e : Status}

theorem resolve_of_readString (h : readString i address w = some (.error e, w')) :
    resolve i address w = some (.error e, w') :=
  resolve_of_error h (fun _ => rfl) fun _ => .bind fun _ => .bind fun _ => .bind fun _ => .ok _

theorem resolve_of_readCells {count : Nat} (h : readCells i address count w = some (.error e, w')) :
    resolve i address w = some (.error e, w') := by
  unfold readCells at h
  split at h
  · cases h
  · exact resolve_of_error h (fun _ => rfl) fun _ => .bind fun _ => .bind fun _ => .ok _

theorem resolve_of_writeString {cells : List Cell} {capacity : Nat}
    (h : writeString i address cells capacity w = some (.error e, w')) : resolve i address w = some (.error e, w') := by
  unfold writeString at h
  split at h
  · cases h
  · exact resolve_of_error h (fun _ => rfl) fun _ => .bind fun _ => .ok _

end Act

/-! ## The natives -/

open NativeAct

variable {k : SubsystemId} {i : InstanceId}

namespace StringNative

theorem succeeds_add (s : CellString) : (add k s : NativeAct σ Cell).Succeeds :=
  .bind (.lift _) fun _ => .pure _

/-- A native on strings changes nothing when it fails. -/
theorem atomic_run (k : SubsystemId) (i : InstanceId) (params : List Cell) (n : StringNative) :
    (n.run k i params : NativeAct σ Cell).Atomic k i := by
  cases n with
  | new => exact .after (.require ..) fun _ => .before (.machine Act.resolve_of_readString) fun _ => succeeds_add _
  | newArray =>
    exact .after (.require ..) fun _ => .after (.size ..) fun _ =>
      .before (.machine Act.resolve_of_readCells) fun _ => succeeds_add _
  | newBuffer =>
    refine .after (.require ..) fun _ => ?_
    dsimp only
    split
    · exact .of_reads (.fail nofun)
    · exact .of_succeeds (succeeds_add _)
  | address => exact .after (.require ..) fun _ => .onPool _
  | recordAddress => exact .after (.require ..) fun _ => .onPool _
  | acquire => exact .after (.require ..) fun _ => .before (.onPool _) fun _ => .pure _
  | release => exact .after (.require ..) fun _ => .before (.onPool _) fun _ => .pure _
  | delete =>
    exact .after (.require ..) fun _ =>
      .refusing (Act.refuses_removeString k _) (fun _ => .pure _) fun _ => .fail nofun
  | valid => exact .of_reads (.bind (.require ..) fun _ => .bind (.pool k) fun _ => .pure _)
  | clone =>
    refine .after (.require ..) fun _ => .after (.pool k) fun p => ?_
    split
    · exact .of_succeeds (succeeds_add _)
    · exact .of_reads (.fail nofun)
  | length => exact .of_reads (.bind (.require ..) fun _ => .bind (.snapshot ..) fun _ => .pure _)
  | get =>
    refine .after (.require ..) fun _ => .after (.size ..) fun capacity => ?_
    split
    · exact .of_reads (.pure _)
    · exact .after (.snapshot ..) fun _ => .before (.machine Act.resolve_of_writeString) fun _ => .pure _
  | getCell => exact .of_reads (.bind (.require ..) fun _ => .bind (.pool k) fun _ => .pure _)
  | setCell =>
    refine .after (.require ..) fun _ => .after (.pool k) fun p => ?_
    dsimp only
    split
    · exact .before (.onPool _) fun _ => .pure _
    · exact .of_reads (.pure _)
  | append => exact .after (.require ..) fun _ => .after (.snapshot ..) fun _ => .before (.onPool _) fun _ => .pure _
  | concat =>
    exact .after (.require ..) fun _ => .after (.snapshot ..) fun _ => .after (.snapshot ..) fun _ =>
      .of_succeeds (succeeds_add _)
  | resize => exact .after (.require ..) fun _ => .after (.size ..) fun _ => .before (.onPool _) fun _ => .pure _
  | clear => exact .after (.require ..) fun _ => .before (.onPool _) fun _ => .pure _
  | toUpper => exact .after (.require ..) fun _ => .after (.snapshot ..) fun _ => .of_succeeds (succeeds_add _)
  | toLower => exact .after (.require ..) fun _ => .after (.snapshot ..) fun _ => .of_succeeds (succeeds_add _)

end StringNative

namespace TaskNative

/-- A native on tasks changes nothing when it fails, unless it suspends the call. -/
theorem atomic_run (resume : Resume σ) (k : SubsystemId) (i : InstanceId) (params : List Cell) (n : TaskNative) :
    (n.run resume k i params).Atomic k i := by
  cases n with
  | new => exact .of_succeeds (.bind (.lift _) fun _ => .pure _)
  | setResult =>
    exact .after (.require ..) fun _ =>
      .refusing (Act.refuses_completeTask resume _ _) (fun _ => .pure _) fun _ => .fail nofun
  | getResult =>
    refine .after (.require ..) fun _ => .after (.taskResult _) fun result => ?_
    cases result with
    | some value => exact .of_reads (.pure _)
    | none => exact .of_reads (.fail nofun)
  | valid => exact .of_reads (.bind (.require ..) fun _ => .bind .tasks fun _ => .pure _)
  | await =>
    refine .after (.require ..) fun _ => .after (.taskResult _) fun result => ?_
    cases result with
    | some value => exact .of_reads (.pure _)
    | none => exact .requesting

end TaskNative

theorem NativeAct.atomic_runDetach (k : SubsystemId) (i : InstanceId) (params : List Cell) :
    (runDetach k i params : NativeAct σ Cell).Atomic k i :=
  .requesting

/-! ## Calls -/

/-- What the script sees of a native that fails. -/
theorem Act.failed_settleNative {name : String} {native : NativeAct σ Cell} {w w' : World σ} {s : Status}
    (hnative : native.Atomic k i) (hw : w.Wired) (h : settleNative name i native w = some (.error s, w')) :
    w.Failed k i s w' := by
  obtain ⟨⟨r, v⟩, hrun, h⟩ := Option.bind_eq_some_iff.1 h
  cases r with
  | ok c => cases h
  | error e =>
    have haborts := hnative hw hrun
    -- what is not handed on is reported, and the status of natives is raised
    have hraised : ∀ event, (∀ s, e ≠ .status s) →
        (do notify event; let s ← raise i .native; pure (.error s) : Act σ (Except Status Cell)) v =
          some (.error s, w') → w.Failed k i s w' := by
      intro event he hraise
      cases haborts with
      | suspended _ => exact absurd rfl (he .sleep)
      | refused _ huntouched =>
        obtain ⟨⟨status, v'⟩, hraise, hsame⟩ := Option.bind_eq_some_iff.1 hraise
        obtain ⟨a, ha, hraise⟩ := Option.map_eq_some_iff.1 hraise
        cases hraise
        cases hsame
        have hinstance : w.instance? i = some a := by
          rw [← ha]
          exact congrArg (·[i.index]?) huntouched.instances.symm
        exact .native hinstance (huntouched.trans (World.untouched_record v _))
    cases e with
    | status status =>
      cases h
      cases haborts with
      | refused hstatus huntouched => exact .handedOn (hstatus _ rfl) huntouched
      | suspended hmarked => exact .suspended hmarked
    | _ => exact hraised _ nofun h

namespace Machine

/-- A built-in native that fails when an instance calls it changes nothing more than its failure. -/
theorem failed_runNative {host : Host σ} {calls : Calls σ} {name : String} {n : Native} {params : List Cell} {d : Activity}
    {w w' : World σ} {left left' : Nat} {s : Status} (hn : (name, n) ∈ NativeModule.all.natives k) (hw : w.Wired)
    (h : runNative host calls i n params d w left = .done (.error s) w' left') : w.Failed k i s w' := by
  obtain ⟨m, h⟩ := Run.done_of_within h
  rcases List.mem_append.1 hn with hn | hn
  · rcases List.mem_append.1 hn with hn | hn
    · obtain ⟨native, -, heq⟩ := List.mem_map.1 hn
      cases heq
      exact Act.failed_settleNative (StringNative.atomic_run k i params native) hw (Run.done_of_act h).1
    · obtain ⟨native, -, heq⟩ := List.mem_map.1 hn
      cases heq
      exact Act.failed_settleNative (TaskNative.atomic_run host.resume k i params native) hw (Run.done_of_act h).1
  · cases List.mem_singleton.1 hn
    exact Act.failed_settleNative (NativeAct.atomic_runDetach k i params) hw (Run.done_of_act h).1

/-- **Failing natives.** Whatever the host does with any number of hook layers, at every moment of a run, if a built-in
native comes back with a status, then nothing has changed: no instance, no layer with its pool, frames and hooks, and no
task. Only the status of natives is recorded on the instance that called, and a native that suspends its call writes into the
innermost frame. -/
theorem failing_natives {host : Host σ} {p : Program σ α} {resumer : Resumer} {state : σ} {fuel : Nat} {w : World σ}
    (hmoment : (p.runIn host fuel (.initial resumer state)).world = w) {k : SubsystemId} {name : String} {n : Native}
    (hn : (name, n) ∈ NativeModule.all.natives k) (calls : Calls σ) (i : InstanceId) (params : List Cell) (d : Activity)
    (left : Nat) {s : Status} {w' : World σ} {left' : Nat}
    (h : runNative host calls i n params d w left = .done (.error s) w' left') : w.Failed k i s w' :=
  failed_runNative hn (hmoment ▸ wired_runIn host p resumer state fuel) h

/-- Makes two layers, and an instance that has nothing beyond its memory. -/
def twoLayers : Program Unit Unit := do
  let k ← Program.perform (.newSubsystem .standard ⟨.unsupported, .unsupported, .unsupported⟩)
  let _ ← Program.perform (.installAll k)
  let l ← Program.perform (.newSubsystem .standard ⟨.unsupported, .unsupported, .unsupported⟩)
  let _ ← Program.perform (.installAll l)
  let _ ← Program.perform (.newInstance 4)

/-- Text is read from where there is no memory, and the length is asked of a string that there is not. -/
theorem failing_natives_of_layers :
    ∃ w, (twoLayers.runIn (.scripted fun _ _ => .done (.ok 0)) 9 (.initial .drop ())).world = w ∧
      (∃ w' left, runNative (.scripted fun _ _ => .done (.ok 0)) (fun _ => Run.stop) ⟨0⟩ (.string ⟨1⟩ .new) [.greatest]
        .outside w 1 = .done (.error .memoryAccess) w' left ∧ w.Failed ⟨1⟩ ⟨0⟩ .memoryAccess w') ∧
      ∃ w' left, runNative (.scripted fun _ _ => .done (.ok 0)) (fun _ => Run.stop) ⟨0⟩ (.string ⟨0⟩ .length) [1]
        .outside w 1 = .done (.error .native) w' left ∧ w.Failed ⟨0⟩ ⟨0⟩ .native w' := by
  generalize hmoment : (twoLayers.runIn (.scripted fun _ _ => .done (.ok 0)) 9 (.initial .drop ())).world = w
  have hread : (runNative (.scripted fun _ _ => .done (.ok 0)) (fun _ => Run.stop) ⟨0⟩ (.string ⟨1⟩ .new) [.greatest]
      .outside w 1).done?.any (fun m => decide (m.1 = .error .memoryAccess)) = true := by
    rw [← hmoment]
    decide +kernel
  have hasked : (runNative (.scripted fun _ _ => .done (.ok 0)) (fun _ => Run.stop) ⟨0⟩ (.string ⟨0⟩ .length) [1]
      .outside w 1).done?.any (fun m => decide (m.1 = .error .native)) = true := by
    rw [← hmoment]
    decide +kernel
  obtain ⟨r, v, left, hread, hr⟩ := Outcome.exists_done hread
  obtain ⟨r', v', left', hasked, hr'⟩ := Outcome.exists_done hasked
  obtain rfl : r = .error .memoryAccess := of_decide_eq_true hr
  obtain rfl : r' = .error .native := of_decide_eq_true hr'
  have hnew : (StringNative.new.name, Native.string ⟨1⟩ .new) ∈ NativeModule.all.natives ⟨1⟩ := by decide
  have hlength : (StringNative.length.name, Native.string ⟨0⟩ .length) ∈ NativeModule.all.natives ⟨0⟩ := by decide
  exact ⟨w, rfl, ⟨v, left, hread, failing_natives hmoment hnew _ ⟨0⟩ [.greatest] .outside 1 hread⟩,
    v', left', hasked, failing_natives hmoment hlength _ ⟨0⟩ [1] .outside 1 hasked⟩

end Machine

end Interpose

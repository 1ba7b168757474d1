import Interpose.Proofs.Runs
import Interpose.Proofs.Upkeep

/-!
# Disciplines

Much of the machine is put together from mild operations, from entries in the journal, from code of the
host, and from calls. What such a part keeps depends on these pieces alone. A *discipline* is a property of runs that is
kept when runs are put together, and that the pieces have; then the parts have it as well. What remains to be looked at
for each property are the parts that open frames, move hooks and swap callbacks. Where these need no care of their own, the
discipline is a *regime*, and every call has the property.

Main statements: `Discipline.plainExec`, `Discipline.plainDispatch` and `Discipline.settle` for the parts, and `Regime.enter`
for calls.
-/

namespace Interpose

open World

variable {σ α β : Type}

namespace Machine

/-! ## Operations on suspended calls -/

section

variable {R : World σ → World σ → Prop} (M : Act.Mild R)
include M

theorem keeps_reject (i : InstanceId) {why : Notice} (h : (Event.notice why).isRemark = true) (slot : Option Cell) :
    (reject i why slot : Act σ ExecReply).Keeps R :=
  M.bind (M.notify h) fun _ => M.bind (M.raise i _) fun _ => M.pure _

theorem keeps_register (host : Host σ) (k : SubsystemId) (task : TaskId) (token : Token)
    (htold : ∀ w, R w (w.record (.registered k task token))) : (register host k task token).Keeps R := by
  refine M.bind (M.getSubsystem k) fun s => M.bind (.record htold) fun _ => ?_
  cases s.collaborators.tasks with
  | unsupported => exact M.pure _
  | tasks =>
    refine M.bind (M.tasks.register task token) fun r => ?_
    cases r <;> exact M.pure _
  | host =>
    -- the task system changes the host's own state only
    intro w a w' h
    cases h
    exact M.setHost w _

end

/-! ## Opening and closing frames -/

section

variable {R : World σ → World σ → Prop} (F : Act.Framing R)
include F

theorem keeps_openFrame (k : SubsystemId) (i : InstanceId) : (openFrame k i : Act σ Unit).Keeps R := by
  refine .bind F.track (F.onContexts k _) fun _ => ?_
  refine .bind F.track (.onSubsystem fun _ _ hs => F.setDepth _ hs) fun _ => ?_
  exact .record fun w => F.entered w k i

theorem keeps_closeFrame (k : SubsystemId) (i : InstanceId) : (closeFrame k i : Act σ Unit).Keeps R := by
  refine .bind F.track (F.popFrame k i) fun _ => ?_
  refine .bind F.track (.onSubsystem fun _ _ hs => F.setDepth _ hs) fun before => ?_
  refine .bind F.track (.record fun w => F.left w k i) fun _ => ?_
  split
  · exact .bind F.track (F.collect k) fun _ => .pure F.track _
  · exact .pure F.track _

end

/-! ## Disciplines -/

/-- A property `P` of runs that is kept when runs are put together, and that code of the host has, and all operations
that relate the worlds before and after by `R`. -/
structure Discipline (host : Host σ) (calls : Calls σ) (R : World σ → World σ → Prop)
    (P : ∀ ⦃α : Type⦄, Run σ α → Prop) : Prop where
  mild : Act.Mild R
  handsOver : ∀ w e, e.handsOver = true → R w (w.record e)
  await : ∀ k i task result, (Act.requestAwait k i task result : Act σ Status).Keeps R
  detachRequest : ∀ k i marker result, (Act.requestDetach k i marker result : Act σ Status).Keeps R
  pure : ∀ {α : Type} (a : α), P (pure a : Run σ α)
  bind : ∀ {α β : Type} {r : Run σ α} {next : α → Run σ β}, P r → (∀ a, P (next a)) → P (r >>= next)
  act : ∀ {α : Type} {x : Act σ α}, x.Keeps R → P (Run.act x)
  within : ∀ {α : Type} {activity : Activity} {r : Run σ α}, P r → P (Run.within activity r)
  script : ∀ code i, P ((host.script code i).run host calls)
  native : ∀ code i params, P ((host.native code i params).run host calls)
  callback : ∀ code i index params, P ((host.callback code i index params).run host calls)
  handler : ∀ k id i slot, P ((host.invoke k id i slot).run host calls)
  detach : ∀ k i marker, P ((host.detach k i marker).run host calls)

namespace Discipline

variable {host : Host σ} {calls : Calls σ} {R : World σ → World σ → Prop} {P : ∀ ⦃α : Type⦄, Run σ α → Prop}
  (D : Discipline host calls R P)
include D

/-! ## Single pieces -/

theorem getInstance (i : InstanceId) : P (Run.act (Act.getInstance i) : Run σ Instance) :=
  D.act (D.mild.getInstance i)

theorem getSubsystem (k : SubsystemId) : P (Run.act (Act.getSubsystem k) : Run σ Subsystem) :=
  D.act (D.mild.getSubsystem k)

theorem record {e : Event} (h : e.handsOver = true) : P (Run.act (Act.record e) : Run σ Unit) :=
  D.act (.record fun w => D.handsOver w e h)

/-- A status is recorded, and answered. -/
theorem raise (i : InstanceId) (s : Status) (answer : Status → α) :
    P (Run.act (Act.raise i s) >>= fun s => (Pure.pure (answer s) : Run σ α)) :=
  D.bind (D.act (D.mild.raise i s)) fun _ => D.pure _

theorem reject (i : InstanceId) {why : Notice} (h : (Event.notice why).isRemark = true) (slot : Option Cell) :
    P (Run.act (Machine.reject i why slot) : Run σ ExecReply) :=
  D.act (keeps_reject D.mild i h slot)

theorem clearError (i : InstanceId) : P (Run.act (Machine.clearError i) : Run σ Unit) :=
  D.act (D.mild.onInstance fun _ => rfl)

/-! ## The machine's own entries -/

theorem plainExec (i : InstanceId) (slot : Option Cell) (index : Cell) : P (plainExec host calls i slot index) := by
  refine D.bind (D.getInstance i) fun a => ?_
  cases scriptOf a index with
  | none => exact D.raise i _ _
  | some code =>
    refine D.bind (D.within (D.script code i)) fun r => ?_
    cases r with
    | ok value => exact D.pure _
    | error s => exact D.raise i s _

theorem runNative (i : InstanceId) (n : Native) (params : List Cell) : P (runNative host calls i n params) := by
  refine D.within ?_
  cases n with
  | string k n => exact D.act (D.mild.stringNative k i params n)
  | task k n => exact D.act (D.mild.taskNative _ k i params (fun task => D.await k i task 0) n)
  | detach k => exact D.act (D.mild.detachNative k i params fun marker => D.detachRequest k i marker 0)
  | host code => exact D.native code i params

theorem plainDispatch (i : InstanceId) (index : Cell) (params : List Cell) :
    P (plainDispatch host calls i index params) := by
  refine D.bind (D.getInstance i) fun a => ?_
  cases a.native? index with
  | none => exact D.raise i _ _
  | some n => exact D.runNative i n params

/-! ## Suspended calls -/

theorem register (k : SubsystemId) (task : TaskId) (token : Token) :
    P (Run.act (Machine.register host k task token)) :=
  D.act (keeps_register D.mild host k task token fun w => D.handsOver w _ rfl)

theorem handOver (k : SubsystemId) (i : InstanceId) (marker : ReclaimMarker) (slot : Option Cell) :
    P (Machine.detach host calls k i marker slot) := by
  refine D.bind (D.getSubsystem k) fun s => D.bind (D.record rfl) fun _ => ?_
  cases s.collaborators.threads with
  | unsupported => exact D.act (D.mild.notify rfl)
  | host => exact D.within (D.detach k i marker)

theorem route (k : SubsystemId) (i : InstanceId) (f : Frame) (slot : Option Cell) : P (route host calls k i f slot) := by
  unfold Machine.route
  split
  · exact D.reject i rfl slot
  · exact D.reject i rfl slot
  · refine D.bind (D.getInstance i) fun a => D.bind (D.register k _ _) fun r => ?_
    cases r with
    | error why => exact D.reject i rfl slot
    | ok u => exact D.bind (D.clearError i) fun _ => D.pure _
  · exact D.bind (D.handOver k i _ _) fun _ => D.bind (D.clearError i) fun _ => D.pure _

theorem settle (k : SubsystemId) (i : InstanceId) (r : ExecReply) : P (settle host calls k i r) := by
  unfold Machine.settle
  split
  · refine D.bind (D.getSubsystem k) fun s => ?_
    cases s.contexts.top? i with
    | some f => exact D.route k i f r.slot
    | none => exact D.reject i rfl r.slot
  · exact D.pure r

/-! ## Synthetic callbacks -/

theorem invoke (k : SubsystemId) (i : InstanceId) (id : Nat) (slot : Option Cell) :
    P (invoke host calls k i id slot) := by
  refine D.bind (D.getSubsystem k) fun s => D.bind (D.record rfl) fun _ => ?_
  cases s.collaborators.events with
  | unsupported => exact D.pure _
  | host => exact D.within (D.handler k id i slot)

/-- What passing a call on keeps, the call with its frame keeps, if opening and closing the frame keeps it. -/
theorem framed {k : SubsystemId} {i : InstanceId} {slot : Option Cell} {index : Cell}
    (hopen : (openFrame k i : Act σ Unit).Keeps R) (hclose : (closeFrame k i : Act σ Unit).Keeps R)
    (h : P (passOn calls k i slot index)) : P (Machine.framed host calls k i slot index) := by
  refine D.bind (D.act hopen) fun _ => ?_
  refine D.bind h fun r => D.bind (D.settle k i r) fun r => ?_
  exact D.bind (D.act hclose) fun _ => D.pure r

/-- An intercepted call keeps its layer going while its handler runs, if there is one, and then goes on with a frame of
its own. -/
theorem intercepted {Q : Run σ ExecReply → Prop} (k : SubsystemId) (i : InstanceId) (slot : Option Cell) (index : Cell)
    (hholding : ∀ {r : Run σ ExecReply}, P r → Q (holding k r))
    (hframed : ∀ slot index, P (Machine.framed host calls k i slot index)) : Q (intercepted host calls k i slot index) := by
  refine hholding ?_
  split
  · refine D.bind (D.invoke k i _ slot) fun handled => ?_
    split
    · exact D.pure _
    · refine D.bind (D.act (D.mild.lookupPast _ k i _)) fun r => ?_
      cases r with
      | error s => exact D.pure _
      | ok index => exact hframed _ index
  · exact hframed slot index

end Discipline

/-! ## Putting runs together -/

/-- A property of runs that is kept when runs are put together, and that operations have which relate the worlds before
and after by `R`. -/
structure Composes (R : World σ → World σ → Prop) (P : ∀ ⦃α : Type⦄, Run σ α → Prop) : Prop where
  pure : ∀ {α : Type} (a : α), P (pure a : Run σ α)
  bind : ∀ {α β : Type} {r : Run σ α} {next : α → Run σ β}, P r → (∀ a, P (next a)) → P (r >>= next)
  act : ∀ {α : Type} {x : Act σ α}, x.Keeps R → P (Run.act x)
  tick : P (Run.tick : Run σ Unit)
  world : P (Run.world : Run σ (World σ))
  stop : ∀ {α : Type}, P (Run.stop : Run σ α)
  under : ∀ {α : Type} {activity : Activity} {r : Run σ α}, P r → P (Run.under activity r)

section

variable {host : Host σ} {calls : Calls σ} {R : World σ → World σ → Prop} {P : ∀ ⦃α : Type⦄, Run σ α → Prop}
  (C : Composes R P)
include C

/-- Code has what the operations it asks for and the calls it makes have. -/
theorem Composes.program (M : Act.Mild R) {allowed : Operation → Prop}
    (hperform : ∀ o, allowed o → (o.perform host.callbackIds host.resume).Keeps R) (hcalls : ∀ c, P (calls c))
    {p : Program σ α} (hp : p.Uses (.operations allowed)) : P (p.run host calls) := by
  -- every step begins with a tick
  induction p with
  | done a => exact C.pure a
  | look next ih => exact C.bind C.tick fun _ => C.bind C.world fun w => ih w (hp.2 w)
  | remember change next ih =>
    refine C.bind C.tick fun _ => C.bind (C.act ?_) fun _ => ih hp.2
    intro w a w' h
    cases h
    exact M.setHost w _
  | act o next ih => exact C.bind C.tick fun _ => C.bind (C.act (hperform o hp.1)) fun r => ih r (hp.2 r)
  | exec i slot index next ih => exact C.bind C.tick fun _ => C.bind (hcalls _) fun r => ih r (hp.2 r)
  | call i index params next ih =>
    refine C.bind C.tick fun _ => C.bind (C.act (M.getInstance i)) fun a => ?_
    exact C.bind (hcalls _) fun r => ih r (hp.2 r)

end

/-! ## Whole calls -/

/-- A call with a frame that is over opened its frame, was passed on and settled, and closed it. -/
theorem done_of_framed {host : Host σ} {calls : Calls σ} {k : SubsystemId} {i : InstanceId} {slot : Option Cell}
    {index : Cell} {d : Activity} {w w' : World σ} {fuel left : Nat} {r : ExecReply}
    (h : framed host calls k i slot index d w fuel = .done r w' left) :
    ∃ w₀ w₁, openFrame k i w = some ((), w₀) ∧
      (passOn calls k i slot index >>= settle host calls k i) d w₀ fuel = .done r w₁ left ∧
      closeFrame k i w₁ = some ((), w') := by
  obtain ⟨u, w₀, hopened, hrest⟩ := Run.done_of_act_bind h
  obtain ⟨r₀, w₁, left₁, hpassed, hrest⟩ := Run.done_of_bind hrest
  obtain ⟨r₁, w₂, left₂, hsettled, hrest⟩ := Run.done_of_bind hrest
  obtain ⟨u', w₃, hclosed, hrest⟩ := Run.done_of_act_bind hrest
  cases hrest
  exact ⟨w₀, w₂, hopened, (Run.bind_of_done hpassed).trans hsettled, hclosed⟩

/-- A discipline whatever answers the calls, which does not look at the execute hooks or at callbacks, and which the run
between the opening and the closing of a frame hands on to both of them with it. -/
structure Regime (host : Host σ) (R : World σ → World σ → Prop) (P : ∀ ⦃α : Type⦄, Run σ α → Prop) : Prop
    extends Composes R P where
  aloof : Act.Aloof R
  discipline : ∀ {calls : Calls σ}, (∀ c, P (calls c)) → Discipline host calls R P
  between : ∀ {r : Run σ ExecReply} k i, P r → P (do
    Run.act (openFrame k i)
    let a ← r
    Run.act (closeFrame k i)
    Pure.pure a)

/-- What is kept when runs are put together, and by all operations that the host may ask for, is a regime. -/
theorem Composes.regime {host : Host σ} {R : World σ → World σ → Prop} {P : ∀ ⦃α : Type⦄, Run σ α → Prop}
    (C : Composes R P) (A : Act.Aloof R) {allowed : Operation → Prop}
    (hperform : ∀ o, allowed o → (o.perform host.callbackIds host.resume).Keeps R)
    (hhost : host.UsesOnly (.operations allowed)) (handsOver : ∀ w e, e.handsOver = true → R w (w.record e))
    (await : ∀ k i task result, (Act.requestAwait k i task result : Act σ Status).Keeps R)
    (detachRequest : ∀ k i marker result, (Act.requestDetach k i marker result : Act σ Status).Keeps R)
    (between : ∀ {r : Run σ ExecReply} k i, P r → P (do
      Run.act (openFrame k i)
      let a ← r
      Run.act (closeFrame k i)
      Pure.pure a)) : Regime host R P where
  toComposes := C
  aloof := A
  discipline hcalls := {
    mild := A.toMild
    handsOver := handsOver
    await := await
    detachRequest := detachRequest
    pure := C.pure
    bind := C.bind
    act := C.act
    within := fun h => C.under (C.bind C.tick fun _ => h)
    script := fun code i => C.program A.toMild hperform hcalls (hhost.script code i)
    native := fun code i params => C.program A.toMild hperform hcalls (hhost.native code i params)
    callback := fun code i index params => C.program A.toMild hperform hcalls (hhost.callback code i index params)
    handler := fun k id i slot => C.program A.toMild hperform hcalls (hhost.invoke k id i slot)
    detach := fun k i marker => C.program A.toMild hperform hcalls (hhost.detach k i marker) }
  between := between

namespace Regime

variable {host : Host σ} {calls : Calls σ} {R : World σ → World σ → Prop} {P : ∀ ⦃α : Type⦄, Run σ α → Prop}
  (G : Regime host R P) (hcalls : ∀ c, P (calls c))
include G hcalls

theorem holding (k : SubsystemId) {r : Run σ α} (h : P r) : P (holding k r) := by
  have D := G.discipline hcalls
  refine D.bind (D.act (G.aloof.hold k (· + 1))) fun _ => ?_
  exact D.bind h fun a => D.bind (D.act (G.aloof.hold k (· - 1))) fun _ => D.pure a

theorem passOn (k : SubsystemId) (i : InstanceId) (slot : Option Cell) (index : Cell) :
    P (passOn calls k i slot index) := by
  have D := G.discipline hcalls
  refine D.bind (D.getSubsystem k) fun s => ?_
  split
  · refine D.bind (D.act (G.aloof.swapCallback k i _)) fun _ => ?_
    refine D.bind (D.act (G.aloof.execHook k _)) fun took => ?_
    refine D.bind (hcalls (.exec i slot index)) fun r => ?_
    refine D.bind (D.act (G.aloof.execHook k _)) fun _ => ?_
    exact D.bind (D.act (G.aloof.restoreCallback k i)) fun _ => D.pure _
  · exact hcalls (.exec i slot index)

/-- What happens in a call while its frame is open. -/
theorem inside (k : SubsystemId) (i : InstanceId) (slot : Option Cell) (index : Cell) :
    P (Machine.passOn calls k i slot index >>= settle host calls k i) :=
  G.bind (G.passOn hcalls k i slot index) fun r => (G.discipline hcalls).settle k i r

/-- Passing the call on and settling its answer happens between opening and closing its frame. -/
theorem framed (k : SubsystemId) (i : InstanceId) (slot : Option Cell) (index : Cell) :
    P (framed host calls k i slot index) := by
  have := G.between k i (G.inside hcalls k i slot index)
  -- `framed` nests its steps the other way
  simp only [bind_assoc] at this
  exact this

theorem intercepted (k : SubsystemId) (i : InstanceId) (slot : Option Cell) (index : Cell) :
    P (intercepted host calls k i slot index) :=
  (G.discipline hcalls).intercepted k i slot index (G.holding hcalls k) fun slot index => G.framed hcalls k i slot index

theorem forwardNative (k : SubsystemId) (i : InstanceId) (index : Cell) (params : List Cell) :
    P (forwardNative calls k i index params) := by
  have D := G.discipline hcalls
  refine G.holding hcalls k (D.bind (D.act (G.aloof.takeCallback k i)) fun kept => ?_)
  cases kept with
  | some callback =>
    refine D.bind (D.act (G.aloof.execHook k _)) fun _ => ?_
    exact D.bind (D.act (G.aloof.putOnInstance i _)) fun _ => hcalls (.dispatch callback i index params)
  | none =>
    refine D.bind (D.act (.record fun w => G.aloof.callbackLost w i)) fun _ => ?_
    exact D.raise i _ _

theorem exec (i : InstanceId) (slot : Option Cell) (index : Cell) : P (exec host calls i slot index) := by
  have D := G.discipline hcalls
  refine D.bind G.world fun w => ?_
  cases w.entry .exec with
  | plain => exact D.plainExec i slot index
  | detour k replaced => exact G.intercepted hcalls k i slot index

theorem dispatch (callback : Callback) (i : InstanceId) (index : Cell) (params : List Cell) :
    P (dispatch host calls callback i index params) := by
  have D := G.discipline hcalls
  cases callback with
  | standard => exact D.plainDispatch i index params
  | host code => exact D.within (D.callback code i index params)
  | intercept k =>
    refine D.bind G.world fun w => ?_
    split
    · exact G.forwardNative hcalls k i index params
    · exact D.raise i _ _

omit hcalls in
/-- However deep calls nest, they have what the pieces have. -/
theorem enter (depth : Nat) (c : Call) : P (enter host depth c) := by
  -- the calls that a call makes are one level deeper
  induction depth generalizing c with
  | zero => exact G.under G.stop
  | succ depth ih =>
    cases c with
    | exec i slot index => exact G.under (G.exec ih i slot index)
    | dispatch callback i index params => exact G.under (G.dispatch ih callback i index params)

end Regime

end Machine

end Interpose

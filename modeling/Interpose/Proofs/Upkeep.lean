import Interpose.Proofs.QuietOperations

/-!
# What most operations keep

Operations that are not quiet still have little to do with each other: those on frames and suspensions change no hook
and no callback, and switching hooks changes nothing else. A mild relation between worlds that holds across these few
changes holds across nearly every operation of the host (`Act.Upkeep`). The others work on callbacks, or on the execute
hook, or on what keeps a layer going (`Act.Aloof`). What opens and closes a frame does even less (`Act.Framing`).

Main statements: `Act.Upkeep.perform`, and `Act.Steady.perform` for relations that are both.
-/

namespace Interpose

variable {σ α : Type}

open World

/-- Whether an operation neither makes a hook layer nor works on callbacks that are kept, nor reports that one is
lost. -/
def Operation.isCommon : Operation → Bool
  | newSubsystem _ _ | unload _ _ => false
  | swapCallback _ _ _ | takeCallback _ _ | restoreCallback _ _ | forgetCallback _ _ => false
  | notify (.callbackLost _) => false
  | _ => true

/-- Whether an operation makes no hook layer. -/
def Operation.keepsLayers : Operation → Prop
  | newSubsystem _ _ => False
  | _ => True

/-- An entry of the journal that tells whom a layer called. -/
def Event.handsOver : Event → Bool
  | .registered _ _ _ | .detached _ _ _ _ | .invoked _ _ _ _ => true
  | _ => false

/-- An entry of the journal that tells of a request to suspend. -/
def Event.asks : Event → Bool
  | .awaitRequested _ _ _ _ _ | .detachRequested _ _ _ _ _ => true
  | _ => false

namespace Act

/-! ## Frames -/

section

variable {R : World σ → World σ → Prop} {l : SubsystemId} {i : InstanceId}

/-- A frame is closed, or it is reported that there is none. -/
theorem keeps_popFrame (t : Track R) (hpop : (onContexts l fun c => c.pop i : Act σ (Option Frame)).Keeps R)
    (hnone : ∀ w, R w (w.record (.notice (.popWithoutFrame i)))) : (popFrame l i : Act σ (Option Frame)).Keeps R := by
  refine .bind t hpop fun f => ?_
  cases f with
  | some f => exact .pure t _
  | none => exact .bind t (.record hnone) fun _ => .pure t _

/-- A request to suspend is put to the frames of a layer, and the journal tells what came of it. -/
theorem keeps_request (t : Track R) {f : Contexts → Status × Contexts} {e : Status → Event}
    (hon : (onContexts l f : Act σ Status).Keeps R) (htold : ∀ w s, R w (w.record (e s))) : Keeps R (do
      let s ← onContexts l f
      record (e s)
      pure s : Act σ Status) :=
  .bind t hon fun s => .bind t (.record fun w => htold w s) fun _ => .pure t _

end

/-- A relation that holds across what opening and closing a frame does: to the frames of a layer, to its count of calls, to
its strings, and to the journal. -/
structure Framing (R : World σ → World σ → Prop) : Prop where
  track : Track R
  setContexts : ∀ {w : World σ} {l : SubsystemId} {s : Subsystem} (contexts : Contexts), w.subsystem? l = some s →
    R w (w.setSubsystem l { s with contexts })
  setDepth : ∀ {w : World σ} {l : SubsystemId} {s : Subsystem} (execDepth : Nat), w.subsystem? l = some s →
    R w (w.setSubsystem l { s with execDepth })
  collect : ∀ l, (onPool l fun p => p.perform .collect : Act σ Nat).Keeps R
  entered : ∀ (w : World σ) l i, R w (w.record (.entered l i))
  left : ∀ (w : World σ) l i, R w (w.record (.left l i))
  popWithoutFrame : ∀ (w : World σ) i, R w (w.record (.notice (.popWithoutFrame i)))

theorem Framing.onContexts {R : World σ → World σ → Prop} (F : Framing R) (l : SubsystemId)
    (f : Contexts → α × Contexts) : (Act.onContexts l f : Act σ α).Keeps R :=
  .onSubsystem fun _ _ hs => F.setContexts _ hs

theorem Framing.popFrame {R : World σ → World σ → Prop} (F : Framing R) (l : SubsystemId) (i : InstanceId) :
    (Act.popFrame l i : Act σ (Option Frame)).Keeps R :=
  keeps_popFrame F.track (F.onContexts l _) fun w => F.popWithoutFrame w i

/-! ## Relations with upkeep -/

/-- A mild relation that holds across changes of the frames of a layer, across dropping it, across switching a hook, and
across entries of the journal that tell of requests to suspend. -/
structure Upkeep (R : World σ → World σ → Prop) : Prop extends Mild R where
  setContexts : ∀ {w : World σ} {l : SubsystemId} {s : Subsystem} (contexts : Contexts), w.subsystem? l = some s →
    R w (w.setSubsystem l { s with contexts })
  disown : ∀ {w : World σ} {l : SubsystemId} {s : Subsystem}, w.subsystem? l = some s →
    R w (w.setSubsystem l { s with owned := false })
  toggle : ∀ l x on, (toggle l x on : Act σ Bool).Keeps R
  asked : ∀ (w : World σ) (e : Event), e.asks = true → R w (w.record e)

/-- A relation that holds across counting calls and collecting strings as well. -/
structure Counting (R : World σ → World σ → Prop) : Prop extends Upkeep R where
  setDepth : ∀ {w : World σ} {l : SubsystemId} {s : Subsystem} (execDepth : Nat), w.subsystem? l = some s →
    R w (w.setSubsystem l { s with execDepth })
  entered : ∀ (w : World σ) l i, R w (w.record (.entered l i))
  left : ∀ (w : World σ) l i, R w (w.record (.left l i))
  collect : ∀ l, (onPool l fun p => p.perform .collect : Act σ Nat).Keeps R

theorem Counting.framing {R : World σ → World σ → Prop} (C : Counting R) : Framing R :=
  { C with popWithoutFrame := fun w _ => C.tell w _ rfl }

namespace Upkeep

variable {R : World σ → World σ → Prop} (U : Upkeep R)
include U

theorem onContexts (l : SubsystemId) (f : Contexts → α × Contexts) : (Act.onContexts l f : Act σ α).Keeps R :=
  .onSubsystem fun _ _ hs => U.setContexts _ hs

theorem toggleAll (l : SubsystemId) (on : Bool) (xs : List Export) : (Act.toggleAll l on xs : Act σ Nat).Keeps R := by
  induction xs with
  | nil => exact .pure U.track _
  | cons x rest ih =>
    refine .bind U.track (U.toggle l x on) fun changed => ?_
    exact .bind U.track ih fun n => .pure U.track _

theorem requestAwait (l : SubsystemId) (i : InstanceId) (task : TaskId) (result : Cell) :
    (Act.requestAwait l i task result : Act σ Status).Keeps R :=
  keeps_request U.track (U.onContexts l _) fun w _ => U.asked w _ rfl

theorem requestDetach (l : SubsystemId) (i : InstanceId) (marker : ReclaimMarker) (result : Cell) :
    (Act.requestDetach l i marker result : Act σ Status).Keeps R :=
  keeps_request U.track (U.onContexts l _) fun w _ => U.asked w _ rfl

theorem popFrame (l : SubsystemId) (i : InstanceId) : (Act.popFrame l i : Act σ (Option Frame)).Keeps R :=
  keeps_popFrame U.track (U.onContexts l _) fun w => U.tell w _ rfl

theorem drop (l : SubsystemId) : (Act.drop l : Act σ Unit).Keeps R := by
  refine .bind U.track (U.toggleAll l false _) fun _ => ?_
  exact .onSubsystem fun _ _ hs => U.disown hs

theorem perform (ids : CallbackIds σ) (resume : Resume σ) {o : Operation} (h : o.isCommon = true)
    (hcollect : ∀ k, o = .pool k .collect → (Act.onPool k fun p => p.perform .collect : Act σ Nat).Keeps R) :
    (o.perform ids resume).Keeps R := by
  by_cases hquiet : o.isQuiet = true
  · exact U.toMild.perform ids resume hquiet hcollect
  cases o with
  | drop l => exact U.drop l
  | install l => exact .bind U.track (.getSubsystem U.track l) fun s => U.toggleAll l true _
  | uninstall l => exact U.toggleAll l false _
  | installAll l => exact U.toggleAll l true _
  | toggle l x on => exact U.toggle l x on
  | requestAwait l i task result => exact U.requestAwait l i task result
  | requestDetach l i marker result => exact U.requestDetach l i marker result
  | pushFrame l i => exact U.onContexts l fun c => c.push i
  | popFrame l i => exact U.popFrame l i
  | setFrame l i f =>
    unfold Operation.perform
    exact U.onContexts l _
  | removeFrames l i => exact U.onContexts l fun c => c.remove i
  | notify n =>
    cases n with
    | callbackLost i => cases h
    | _ => exact absurd rfl hquiet
  | newSubsystem | unload | swapCallback | takeCallback | restoreCallback | forgetCallback => cases h
  | _ => exact absurd rfl hquiet

end Upkeep

/-! ## Callbacks -/

/-- A mild relation that looks neither at callbacks, nor at execute hooks, nor at what keeps a layer going. -/
structure Aloof (R : World σ → World σ → Prop) : Prop extends Mild R where
  putInstance : ∀ {w : World σ} {i : InstanceId} {a : Instance} (b : Instance), w.instance? i = some a →
    R w (w.setInstance i b)
  setCallbacks : ∀ {w : World σ} {l : SubsystemId} {s : Subsystem} (callbacks : Keyed InstanceId Callback),
    w.subsystem? l = some s → R w (w.setSubsystem l { s with callbacks })
  setHolds : ∀ {w : World σ} {l : SubsystemId} {s : Subsystem} (holds : Nat), w.subsystem? l = some s →
    R w (w.setSubsystem l { s with holds })
  execHook : ∀ {α : Type} (l : SubsystemId) (f : Mount → α × Mount), (onMount l .exec f).Keeps R
  callbackLost : ∀ (w : World σ) i, R w (w.record (.notice (.callbackLost i)))

namespace Aloof

variable {R : World σ → World σ → Prop} (A : Aloof R)
include A

theorem putOnInstance (i : InstanceId) (f : Instance → α × Instance) : (Act.onInstance i f : Act σ α).Keeps R :=
  .onInstance fun _ _ ha => A.putInstance _ ha

theorem swapCallback (l : SubsystemId) (i : InstanceId) (callback : Callback) :
    (Act.swapCallback l i callback : Act σ Unit).Keeps R := by
  refine .bind A.track (A.putOnInstance i _) fun current => .onSubsystem fun w s hs => ?_
  dsimp only
  split
  · exact A.setCallbacks s.callbacks hs
  · exact A.setCallbacks _ hs

theorem takeCallback (l : SubsystemId) (i : InstanceId) : (Act.takeCallback l i : Act σ (Option Callback)).Keeps R :=
  .onSubsystem fun _ _ hs => A.setCallbacks _ hs

theorem forgetCallback (l : SubsystemId) (i : InstanceId) : (Act.forgetCallback l i : Act σ Bool).Keeps R :=
  .onSubsystem fun _ _ hs => A.setCallbacks _ hs

theorem restoreCallback (l : SubsystemId) (i : InstanceId) : (Act.restoreCallback l i : Act σ Bool).Keeps R := by
  refine .bind A.track (A.takeCallback l i) fun kept => ?_
  cases kept with
  | some callback => exact A.putOnInstance i _
  | none => exact .pure A.track _

theorem hold (l : SubsystemId) (f : Nat → Nat) :
    (Act.onSubsystem l fun s => ((), { s with holds := f s.holds }) : Act σ Unit).Keeps R :=
  .onSubsystem fun _ _ hs => A.setHolds _ hs

end Aloof

/-- Whatever the host asks for, other than another layer, if unloading is among what the relation holds across. -/
theorem Aloof.perform {R : World σ → World σ → Prop} (A : Aloof R) (U : Upkeep R)
    (hunload : ∀ l i, (Act.unload l i : Act σ Unit).Keeps R) (ids : CallbackIds σ) (resume : Resume σ) {o : Operation}
    (h : o.keepsLayers)
    (hcollect : ∀ k, o = .pool k .collect → (Act.onPool k fun p => p.perform .collect : Act σ Nat).Keeps R) :
    (o.perform ids resume).Keeps R := by
  by_cases hcommon : o.isCommon = true
  · exact U.perform ids resume hcommon hcollect
  cases o with
  | newSubsystem config collaborators => exact h.elim
  | unload l i => exact hunload l i
  | swapCallback l i code => exact A.swapCallback l i _
  | takeCallback l i => exact A.takeCallback l i
  | restoreCallback l i => exact A.restoreCallback l i
  | forgetCallback l i => exact A.forgetCallback l i
  | notify n =>
    cases n with
    | callbackLost i => exact .record fun w => A.callbackLost w i
    | _ => exact absurd rfl hcommon
  | _ => exact absurd rfl hcommon

/-- A relation that looks at no part of a layer that execute calls work with, other than the count of these. -/
structure Steady (R : World σ → World σ → Prop) : Prop extends Upkeep R, Aloof R where
  unloaded : ∀ (w : World σ) l i kept, R w (w.record (.unloaded l i kept))
  handsOver : ∀ (w : World σ) (e : Event), e.handsOver = true → R w (w.record e)

namespace Steady

variable {R : World σ → World σ → Prop} (S : Steady R)
include S

theorem unload (l : SubsystemId) (i : InstanceId) : (Act.unload l i : Act σ Unit).Keeps R := by
  refine .bind S.track (S.onContexts l _) fun _ => ?_
  refine .bind S.track (S.forgetCallback l i) fun kept => ?_
  -- forgetting the addresses of an instance is an operation on the pool
  exact .bind S.track (S.onPool fun _ => .perform (a := .forget i) .refl rfl) fun _ => .record fun w => S.unloaded w l i _

/-- Whatever the host asks for, other than another layer. -/
theorem perform (ids : CallbackIds σ) (resume : Resume σ) {o : Operation} (h : o.keepsLayers)
    (hcollect : ∀ k, o = .pool k .collect → (Act.onPool k fun p => p.perform .collect : Act σ Nat).Keeps R) :
    (o.perform ids resume).Keeps R :=
  S.toAloof.perform S.toUpkeep S.unload ids resume h hcollect

end Steady

end Act

end Interpose

import Interpose.Proofs.FrameHistory
import Interpose.Proofs.QuietOperations
import Interpose.Proofs.Runs

/-!
# Operations on frames

In a run whose code leaves the frames of a hook layer to that layer, the journal tells the whole history of the frames:
`World.Tells`. It is *balanced* for whatever is over, which closed as many frames as it opened, and for whatever is cut
it is the beginning of a balanced one.

What is left to the layer is told by `Operation.leavesFrames`: code may execute, ask for suspensions and have instances
forgotten as it likes, but it does not push, pop, overwrite or remove frames by hand.

Main statement: `Operation.balanced_perform`.
-/

namespace Interpose

open FrameChange

variable {σ α β : Type} {k : SubsystemId}

namespace World

/-! ## What the journal tells -/

/-- The entries that the second journal has more tell what became of the frames of a layer. -/
structure Tells (k : SubsystemId) (w w' : World σ) (es : List Event) : Prop where
  journal : w'.events = w.events ++ es
  frames : ∀ i, w'.frames k i = replay (frameChanges k i es) (w.frames k i)
  persists : Persists w w'

theorem Tells.trans {u v w : World σ} {es es' : List Event} (h : Tells k u v es) (h' : Tells k v w es') :
    Tells k u w (es ++ es') where
  journal := by rw [h'.journal, h.journal, List.append_assoc]
  frames i := by rw [h'.frames, h.frames, frameChanges_append, replay_append]
  persists := h.persists.trans h'.persists

theorem Tells.of_silent {w w' : World σ} {es : List Event} (hj : w'.events = w.events ++ es) (hs : Silent k es)
    (hf : ∀ i, w'.frames k i = w.frames k i) (hp : Persists w w') : Tells k w w' es where
  journal := hj
  frames i := by rw [hf, hs.frameChanges, replay_silent]
  persists := hp

/-- Instances that were not involved have the frames they had. -/
theorem Tells.untouched {w w' : World σ} {es : List Event} {i : InstanceId} {m : Nat} (h : Tells k w w' es)
    (hn : nested? 0 (frameChanges k i es) = some m) (hi : ¬ Involved k i es) : w'.frames k i = w.frames k i := by
  rw [h.frames]
  exact replay_untouched hn (frameChange_of_not_involved hi) _

/-- As long as an instance is not forgotten, its innermost frame and those below it are there, under the frames of the
calls that are open; and those below stay as they are. -/
theorem Tells.kept {w w' : World σ} {es : List Event} {i : InstanceId} {m : Nat} {f : Frame} {fs : List Frame}
    (h : Tells k w w' es) (hn : nested? 0 (frameChanges k i es) = some m) (hf : w.frames k i = f :: fs)
    (hi : ¬ Unloaded k i es) : ∃ above f', w'.frames k i = above ++ f' :: fs := by
  have hdropped : .dropped ∉ frameChanges k i es := fun hd => hi (dropped_mem_frameChanges.1 hd)
  obtain ⟨above, f', -, -, hreplay⟩ := replay_kept hdropped hn [] rfl f fs
  refine ⟨above, f', ?_⟩
  rw [h.frames, hf]
  exact hreplay

/-- As long as an instance is not forgotten, the frames below the innermost one stay as they are. -/
theorem Tells.below {w w' : World σ} {es : List Event} {i : InstanceId} {m : Nat} {f : Frame} {fs : List Frame}
    (h : Tells k w w' es) (hn : nested? 0 (frameChanges k i es) = some m) (hf : w.frames k i = f :: fs)
    (hi : ¬ Unloaded k i es) : fs <:+ w'.frames k i := by
  obtain ⟨above, f', hframes⟩ := h.kept hn hf hi
  exact ⟨above ++ [f'], by rw [hframes, List.append_assoc]; rfl⟩

/-- When all calls that were begun are over, an instance that was forgotten has no frames. -/
theorem Tells.forgotten {w w' : World σ} {es : List Event} {i : InstanceId} (h : Tells k w w' es)
    (hn : nested? 0 (frameChanges k i es) = some 0) (hi : Unloaded k i es) : w'.frames k i = [] := by
  -- no call is open any more, so there is no frame above nothing
  have hlength := length_replay_of_dropped (dropped_mem_frameChanges.2 hi) hn (w.frames k i)
  rw [h.frames]
  exact List.length_eq_zero_iff.1 (Nat.le_zero.1 hlength)

/-- When all calls that were begun are over, the innermost frame is again the one that was innermost before, with what
was asked for in its own call; but if the instance was forgotten, it has no frames. -/
theorem Tells.own {w w' : World σ} {es : List Event} {i : InstanceId} {f : Frame} {fs : List Frame}
    (h : Tells k w w' es) (hn : nested? 0 (frameChanges k i es) = some 0) (hf : w.frames k i = f :: fs) :
    (ownFrame 0 f (frameChanges k i es) = Option.none ∧ Unloaded k i es ∧ w'.frames k i = []) ∨
      ∃ f', ownFrame 0 f (frameChanges k i es) = some f' ∧ ¬ Unloaded k i es ∧ w'.frames k i = f' :: fs := by
  by_cases hi : Unloaded k i es
  · exact .inl ⟨ownFrame_of_dropped (dropped_mem_frameChanges.2 hi) f, hi, h.forgotten hn hi⟩
  · have hdropped : .dropped ∉ frameChanges k i es := fun hd => hi (dropped_mem_frameChanges.1 hd)
    obtain ⟨ys, f', hys, hown, hreplay⟩ := replay_kept hdropped hn [] rfl f fs
    obtain rfl := List.length_eq_zero_iff.1 hys
    refine .inr ⟨f', hown, hi, ?_⟩
    rw [h.frames, hf]
    exact hreplay

/-- So what was below it is below it, unless the instance was forgotten. -/
theorem Tells.innermost {w w' : World σ} {es : List Event} {i : InstanceId} {f : Frame} {fs : List Frame}
    (h : Tells k w w' es) (hn : nested? 0 (frameChanges k i es) = some 0) (hf : w.frames k i = f :: fs) :
    (¬ Unloaded k i es → ∃ f', w'.frames k i = f' :: fs) ∧ (Unloaded k i es → w'.frames k i = []) := by
  rcases h.own hn hf with ⟨-, hi, hframes⟩ | ⟨f', -, hi, hframes⟩
  · exact ⟨fun h => absurd hi h, fun _ => hframes⟩
  · exact ⟨fun _ => ⟨f', hframes⟩, fun h => absurd h hi⟩

/-- Whatever calls were begun are over, and as many are under way as before. -/
def Balanced (k : SubsystemId) (w w' : World σ) : Prop :=
  ∃ es, Tells k w w' es ∧ (∀ i, nested? 0 (frameChanges k i es) = some 0) ∧ w'.execDepth k = w.execDepth k

/-- Calls were begun, and some of them may be over. -/
def Begun (k : SubsystemId) (w w' : World σ) : Prop :=
  ∃ es, Tells k w w' es ∧ ∀ i, ∃ m, nested? 0 (frameChanges k i es) = some m

theorem Balanced.begun {w w' : World σ} (h : Balanced k w w') : Begun k w w' := by
  obtain ⟨es, ht, hn, -⟩ := h
  exact ⟨es, ht, fun i => ⟨0, hn i⟩⟩

theorem Balanced.trans {u v w : World σ} (h : Balanced k u v) (h' : Balanced k v w) : Balanced k u w := by
  obtain ⟨es, ht, hn, hd⟩ := h
  obtain ⟨es', ht', hn', hd'⟩ := h'
  exact ⟨es ++ es', ht.trans ht', fun i => (nested?_frameChanges_append (hn i) es').trans (hn' i), hd'.trans hd⟩

theorem Balanced.trans_begun {u v w : World σ} (h : Balanced k u v) (h' : Begun k v w) : Begun k u w := by
  obtain ⟨es, ht, hn, -⟩ := h
  obtain ⟨es', ht', hn'⟩ := h'
  refine ⟨es ++ es', ht.trans ht', fun i => ?_⟩
  obtain ⟨m, hm⟩ := hn' i
  exact ⟨m, (nested?_frameChanges_append (hn i) es').trans hm⟩

/-! ## Changes that frames have no part in -/

/-- Neither the frames of a layer nor its count of calls differ, and the journal tells nothing of them. -/
structure FramesStill (k : SubsystemId) (w w' : World σ) : Prop where
  frames : ∀ i, w'.frames k i = w.frames k i
  execDepth : w'.execDepth k = w.execDepth k
  journal : ∃ es, w'.events = w.events ++ es ∧ Silent k es
  persists : Persists w w'

theorem FramesStill.refl (w : World σ) : FramesStill k w w where
  frames _ := rfl
  execDepth := rfl
  journal := ⟨[], by simp, by simp [Silent]⟩
  persists := .refl w

theorem FramesStill.trans {u v w : World σ} (h : FramesStill k u v) (h' : FramesStill k v w) : FramesStill k u w where
  frames i := (h'.frames i).trans (h.frames i)
  execDepth := h'.execDepth.trans h.execDepth
  journal := by
    obtain ⟨es, he, hs⟩ := h.journal
    obtain ⟨es', he', hs'⟩ := h'.journal
    exact ⟨es ++ es', by rw [he', he, List.append_assoc], hs.append hs'⟩
  persists := h.persists.trans h'.persists

theorem FramesStill.balanced {w w' : World σ} (h : FramesStill k w w') : Balanced k w w' := by
  obtain ⟨es, he, hs⟩ := h.journal
  refine ⟨es, .of_silent he hs h.frames h.persists, fun i => ?_, h.execDepth⟩
  rw [hs.frameChanges, nested?_silent]

theorem FramesStill.of_subsystem? {w w' : World σ} (hs : w'.subsystem? k = w.subsystem? k)
    (hj : w'.events = w.events) (hp : Persists w w') : FramesStill k w w' where
  frames i := by unfold World.frames; rw [hs]
  execDepth := by unfold World.execDepth; rw [hs]
  journal := ⟨[], by rw [hj]; simp, by simp [Silent]⟩
  persists := hp

theorem Quiet.framesStill {w w' : World σ} (h : Quiet w w') : FramesStill k w w' where
  frames i := by
    have := congrArg (Option.map fun s => s.contexts.frames i) (h.layers k)
    rw [Option.map_map, Option.map_map] at this
    exact congrArg (Option.getD · []) this
  execDepth := by
    have := congrArg (Option.map ExecState.execDepth) (h.layers k)
    rw [Option.map_map, Option.map_map] at this
    exact congrArg (Option.getD · 0) this
  journal := by
    obtain ⟨es, he, ha⟩ := h.journal
    exact ⟨es, he, fun e hm i => Event.frameChange_of_aside (ha e hm) k i⟩
  persists := h.persists

theorem frames_setSubsystem {w : World σ} {l : SubsystemId} {s : Subsystem} (h : w.subsystem? l = some s)
    (t : Subsystem) (i : InstanceId) :
    (w.setSubsystem l t).frames k i = if k = l then t.contexts.frames i else w.frames k i := by
  unfold World.frames
  rw [subsystem?_setSubsystem h]
  split <;> rfl

theorem execDepth_setSubsystem {w : World σ} {l : SubsystemId} {s : Subsystem} (h : w.subsystem? l = some s)
    (t : Subsystem) : (w.setSubsystem l t).execDepth k = if k = l then t.execDepth else w.execDepth k := by
  unfold World.execDepth
  rw [subsystem?_setSubsystem h]
  split <;> rfl

theorem frames_of_subsystem? {w : World σ} {s : Subsystem} (h : w.subsystem? k = some s) (i : InstanceId) :
    w.frames k i = s.contexts.frames i := by
  unfold World.frames
  rw [h]
  rfl

theorem execDepth_of_subsystem? {w : World σ} {s : Subsystem} (h : w.subsystem? k = some s) :
    w.execDepth k = s.execDepth := by
  unfold World.execDepth
  rw [h]
  rfl

@[simp] theorem frames_record (w : World σ) (e : Event) (i : InstanceId) : (w.record e).frames k i = w.frames k i := rfl

@[simp] theorem execDepth_record (w : World σ) (e : Event) : (w.record e).execDepth k = w.execDepth k := rfl

/-- A change of a layer that leaves its frames and its count of calls alone. -/
theorem FramesStill.setSubsystem {w : World σ} {l : SubsystemId} {s t : Subsystem} (h : w.subsystem? l = some s)
    (hc : t.contexts = s.contexts) (hd : t.execDepth = s.execDepth) : FramesStill k w (w.setSubsystem l t) where
  frames i := by
    rw [frames_setSubsystem h]
    split
    · rename_i hk
      subst hk
      rw [frames_of_subsystem? h, hc]
    · rfl
  execDepth := by
    rw [execDepth_setSubsystem h]
    split
    · rename_i hk
      subst hk
      rw [execDepth_of_subsystem? h, hd]
    · rfl
  journal := ⟨[], by simp, by simp [Silent]⟩
  persists := .setSubsystem h t

end World

open World

namespace Act

theorem track_still : Track (FramesStill k : World σ → World σ → Prop) :=
  ⟨.refl, .trans⟩

theorem track_balanced : Track (Balanced k : World σ → World σ → Prop) :=
  ⟨fun w => (FramesStill.refl w).balanced, .trans⟩

theorem Keeps.balanced {act : Act σ α} (h : act.Keeps (FramesStill k)) : act.Keeps (Balanced k) :=
  h.mono FramesStill.balanced

theorem IsQuiet.still {act : Act σ α} (h : act.IsQuiet) : act.Keeps (FramesStill k) :=
  h.mono World.Quiet.framesStill

/-! ## Operations of the layers -/

theorem still_onInstance (i : InstanceId) (f : Instance → α × Instance) :
    (onInstance i f : Act σ α).Keeps (FramesStill k) :=
  .onInstance fun _ _ ha => .of_subsystem? rfl rfl (.setInstance ha _)

theorem still_onSubsystem {l : SubsystemId} {f : Subsystem → α × Subsystem}
    (hc : ∀ s, (f s).2.contexts = s.contexts) (hd : ∀ s, (f s).2.execDepth = s.execDepth) :
    (onSubsystem l f : Act σ α).Keeps (FramesStill k) :=
  .onSubsystem fun _ s hs => .setSubsystem hs (hc s) (hd s)

theorem still_record {e : Event} (h : ∀ i, e.frameChange k i = .none) :
    (record e : Act σ Unit).Keeps (FramesStill k) :=
  .record fun w => ⟨fun _ => rfl, rfl, ⟨[e], by simp, by simpa [Silent] using h⟩, ⟨fun _ hk => hk, fun _ hi => hi⟩⟩

theorem still_onMount (l : SubsystemId) (x : Export) (f : Mount → α × Mount) :
    (onMount l x f : Act σ α).Keeps (FramesStill k) := by
  intro w a w' h
  obtain ⟨s, hs, e⟩ := Option.map_eq_some_iff.1 h
  cases e
  have hset : FramesStill k w
      (w.setSubsystem l { s with hooks := s.hooks.set (f ⟨s.hooks.get x, w.exports.get x⟩).2.hook x }) :=
    .setSubsystem hs rfl rfl
  exact hset.trans (.of_subsystem? rfl rfl ⟨fun _ hk => hk, fun _ hi => hi⟩)

theorem still_toggleAll (l : SubsystemId) (on : Bool) (xs : List Export) :
    (toggleAll l on xs : Act σ Nat).Keeps (FramesStill k) := by
  induction xs with
  | nil => exact .pure track_still _
  | cons x rest ih =>
    refine .bind track_still (still_onMount l x _) fun changed => ?_
    exact .bind track_still ih fun n => .pure track_still _

theorem still_swapCallback (l : SubsystemId) (i : InstanceId) (callback : Callback) :
    (swapCallback l i callback : Act σ Unit).Keeps (FramesStill k) := by
  refine .bind track_still (still_onInstance i _) fun current => ?_
  refine still_onSubsystem (fun s => ?_) fun s => ?_ <;> dsimp only <;> split <;> rfl

theorem still_takeCallback (l : SubsystemId) (i : InstanceId) :
    (takeCallback l i : Act σ (Option Callback)).Keeps (FramesStill k) :=
  still_onSubsystem (fun _ => rfl) fun _ => rfl

theorem still_forgetCallback (l : SubsystemId) (i : InstanceId) :
    (forgetCallback l i : Act σ Bool).Keeps (FramesStill k) :=
  still_onSubsystem (fun _ => rfl) fun _ => rfl

theorem still_restoreCallback (l : SubsystemId) (i : InstanceId) :
    (restoreCallback l i : Act σ Bool).Keeps (FramesStill k) := by
  refine .bind track_still (still_takeCallback l i) fun callback => ?_
  cases callback with
  | some callback => exact still_onInstance i _
  | none => exact .pure track_still _

theorem still_newSubsystem (config : Config) (collaborators : Collaborators) :
    (newSubsystem config collaborators : Act σ SubsystemId).Keeps (FramesStill k) := by
  intro w a w' h
  cases h
  have hpush : ∀ s : Subsystem, ({ w with subsystems := w.subsystems.push s } : World σ).subsystem? k =
      if k.index = w.subsystems.size then some s else w.subsystem? k := fun s => Array.getElem?_push
  refine ⟨fun i => ?_, ?_, ⟨[], by simp [events], by simp [Silent]⟩, fun l hl => ?_, fun i hi => hi⟩
  -- a layer that was just made has no frames, like one that does not exist
  · unfold World.frames
    rw [hpush]
    split
    · rename_i hk
      rw [show w.subsystem? k = Option.none from Array.getElem?_eq_none (Nat.le_of_eq hk.symm)]
      rfl
    · rfl
  · unfold World.execDepth
    rw [hpush]
    split
    · rename_i hk
      rw [show w.subsystem? k = Option.none from Array.getElem?_eq_none (Nat.le_of_eq hk.symm)]
      rfl
    · rfl
  · show (w.subsystems.push _)[l.index]?.isSome
    rw [Array.getElem?_push]
    split
    · rfl
    · exact hl

/-- Working on the frames of another layer. -/
theorem still_onContexts {l : SubsystemId} (hl : l ≠ k) (f : Contexts → α × Contexts) :
    (onContexts l f : Act σ α).Keeps (FramesStill k) := by
  refine .onSubsystem fun w s hs => ⟨fun i => ?_, ?_, ⟨[], by simp, by simp [Silent]⟩, .setSubsystem hs _⟩
  · rw [frames_setSubsystem hs, if_neg hl.symm]
  · rw [execDepth_setSubsystem hs, if_neg hl.symm]

/-- Working on a layer without its frames leaves them alone. -/
theorem frames_onSubsystem {l : SubsystemId} {f : Subsystem → α × Subsystem} {w w' : World σ} {a : α}
    (h : onSubsystem l f w = some (a, w')) (hf : ∀ s, (f s).2.contexts = s.contexts) (i : InstanceId) :
    w'.frames k i = w.frames k i := by
  obtain ⟨s, hs, eq⟩ := Option.map_eq_some_iff.1 h
  cases eq
  rw [frames_setSubsystem hs]
  split
  · rename_i hk
    rw [hk, frames_of_subsystem? hs, hf]
  · rfl

/-- How working on a layer changes its count of calls. -/
theorem execDepth_onSubsystem {l : SubsystemId} {f : Subsystem → α × Subsystem} {g : Nat → Nat} {w w' : World σ}
    {a : α} (h : onSubsystem l f w = some (a, w')) (hf : ∀ s, (f s).2.execDepth = g s.execDepth) :
    w'.execDepth k = if k = l then g (w.execDepth k) else w.execDepth k := by
  obtain ⟨s, hs, eq⟩ := Option.map_eq_some_iff.1 h
  cases eq
  rw [execDepth_setSubsystem hs]
  split
  · rename_i hk
    rw [hk, execDepth_of_subsystem? hs, hf]
  · rfl

/-- Working on the frames of a layer does not count calls. -/
theorem execDepth_onContexts {l : SubsystemId} {f : Contexts → α × Contexts} {w w' : World σ} {a : α}
    (h : onContexts l f w = some (a, w')) : w'.execDepth k = w.execDepth k := by
  have := execDepth_onSubsystem h (g := fun n => n) (k := k) fun _ => rfl
  rwa [ite_self] at this

theorem persists_onSubsystem {l : SubsystemId} {f : Subsystem → α × Subsystem} {w w' : World σ} {a : α}
    (h : onSubsystem l f w = some (a, w')) : Persists w w' := by
  obtain ⟨s, hs, eq⟩ := Option.map_eq_some_iff.1 h
  cases eq
  exact .setSubsystem hs _

/-- Working on frames, and later writing into the journal what was done; in between nothing is done to frames, and
nothing is written that tells of them. -/
theorem tells_onContexts {l : SubsystemId} {f : Contexts → α × Contexts} {w w₁ w₂ : World σ} {a : α} {e : Event}
    {es : List Event} (h : onContexts l f w = some (a, w₁))
    (hf : ∀ (c : Contexts) i, (f c).2.frames i = (e.frameChange l i).apply (c.frames i))
    (he : ∀ i, l ≠ k → e.frameChange k i = .none) (hs : ∀ i, w₂.frames k i = w₁.frames k i) (hes : Silent k es)
    (hj : w₂.events = w.events ++ (es ++ [e])) (hp : Persists w₁ w₂) : Tells k w w₂ (es ++ [e]) := by
  obtain ⟨s, hw, eq⟩ := Option.map_eq_some_iff.1 h
  cases eq
  refine ⟨hj, fun i => ?_, (Persists.setSubsystem hw _).trans hp⟩
  -- the entries before the last tell nothing, and the last one tells what was done
  rw [hs, frames_setSubsystem hw, frameChanges_append, replay_append, hes.frameChanges, replay_silent]
  show _ = (e.frameChange k i).apply _
  split
  · rename_i hk
    rw [hk, frames_of_subsystem? hw]
    exact hf s.contexts i
  · rename_i hk
    rw [he i fun eq => hk eq.symm]
    rfl

/-- A request and what is written of it. -/
theorem balanced_request {l : SubsystemId} {i : InstanceId} {change : Frame → Frame} {e : Status → Event}
    (he : ∀ s m j, (e s).frameChange m j = if l = m ∧ i = j then .asked change else .none) :
    Keeps (Balanced k) (do
      let s ← onContexts l fun c => c.settle (c.editTop? i change)
      record (e s)
      pure s : Act σ Status) := by
  intro w s w' h
  obtain ⟨⟨a, w₁⟩, h₁, h⟩ := Option.bind_eq_some_iff.1 h
  cases h
  have happly : ∀ (c : Contexts) j,
      (c.settle (c.editTop? i change)).2.frames j = ((e s).frameChange l j).apply (c.frames j) := by
    intro c j
    rw [Contexts.frames_settle_editTop?, he]
    exact (apply_own (.asked change) l i j c.frames).symm
  have hother : ∀ j, l ≠ k → (e s).frameChange k j = .none := fun j hl => by
    rw [he, if_neg fun h => hl h.1]
  have hevents : (w₁.record (e s)).events = w.events ++ ([] ++ [e s]) := by
    rw [events_record, events_onSubsystem h₁]
    rfl
  have htells := tells_onContexts h₁ happly hother (fun j => frames_record w₁ (e s) j) (by simp [Silent]) hevents
    ⟨fun _ hl => hl, fun _ hi => hi⟩
  refine ⟨[e s], htells, fun j => ?_, (execDepth_record w₁ (e s)).trans (execDepth_onContexts h₁)⟩
  show nested? 0 [(e s).frameChange k j] = some 0
  rw [he]
  split <;> rfl

theorem balanced_requestAwait (l : SubsystemId) (i : InstanceId) (task : TaskId) (result : Cell) :
    (requestAwait l i task result : Act σ Status).Keeps (Balanced k) :=
  balanced_request fun _ _ _ => rfl

theorem balanced_requestDetach (l : SubsystemId) (i : InstanceId) (marker : ReclaimMarker) (result : Cell) :
    (requestDetach l i marker result : Act σ Status).Keeps (Balanced k) :=
  balanced_request fun _ _ _ => rfl

theorem balanced_unload (l : SubsystemId) (i : InstanceId) : (unload l i : Act σ Unit).Keeps (Balanced k) := by
  intro w a w' h
  obtain ⟨⟨listed, w₁⟩, h₁, h⟩ := Option.bind_eq_some_iff.1 h
  obtain ⟨⟨kept, w₂⟩, h₂, h⟩ := Option.bind_eq_some_iff.1 h
  obtain ⟨⟨bound, w₃⟩, h₃, h⟩ := Option.bind_eq_some_iff.1 h
  cases h
  have happly : ∀ (c : Contexts) j,
      (c.remove i).2.frames j = ((Event.unloaded l i kept).frameChange l j).apply (c.frames j) := by
    intro c j
    rw [Contexts.frames_remove]
    exact (apply_own .dropped l i j c.frames).symm
  have hother : ∀ j, l ≠ k → (Event.unloaded l i kept).frameChange k j = .none := fun j hl =>
    if_neg fun h => hl h.1
  -- the callback and the addresses are forgotten after the frames
  have hstill : FramesStill k w₁ w₃ := (still_forgetCallback l i h₂).trans ((quiet_onPool l _).still h₃)
  have hevents : (w₃.record (.unloaded l i kept)).events = w.events ++ ([] ++ [.unloaded l i kept]) := by
    rw [events_record, events_onSubsystem h₃, events_onSubsystem h₂, events_onSubsystem h₁]
    rfl
  have hframes : ∀ j, (w₃.record (.unloaded l i kept)).frames k j = w₁.frames k j := hstill.frames
  have htells := tells_onContexts h₁ happly hother hframes (by simp [Silent]) hevents
    ⟨hstill.persists.layers, hstill.persists.instances⟩
  refine ⟨[.unloaded l i kept], htells, fun j => ?_, ?_⟩
  · show nested? 0 [(Event.unloaded l i kept).frameChange k j] = some 0
    rw [Event.frameChange]
    split <;> rfl
  · rw [execDepth_record, hstill.execDepth, execDepth_onContexts h₁]

end Act

/-! ## What host code asks for -/

/-- Whether an operation leaves the frames of a layer to that layer: it may ask for suspensions and have instances
forgotten, but it does not work on the frames itself. -/
def Operation.leavesFrames (k : SubsystemId) : Operation → Prop
  | pushFrame l _ | popFrame l _ | setFrame l _ _ | removeFrames l _ => l ≠ k
  | _ => True

open Act in
theorem Operation.balanced_perform (ids : CallbackIds σ) (resume : Resume σ) {o : Operation} (h : o.leavesFrames k) :
    (o.perform ids resume).Keeps (Balanced k) := by
  by_cases hquiet : o.isQuiet = true
  · exact (quiet_perform ids resume hquiet).still.balanced
  cases o with
  | newSubsystem config collaborators => exact (still_newSubsystem config collaborators).balanced
  | drop l =>
    refine .balanced (.bind track_still (still_toggleAll l false _) fun _ => ?_)
    exact still_onSubsystem (fun _ => rfl) fun _ => rfl
  | install l => exact .balanced (.bind track_still (.getSubsystem track_still l) fun s => still_toggleAll l true _)
  | uninstall l => exact (still_toggleAll l false _).balanced
  | installAll l => exact (still_toggleAll l true _).balanced
  | toggle l x on => exact Keeps.balanced (still_onMount l x fun m => m.toggle on)
  | requestAwait l i task result => exact balanced_requestAwait l i task result
  | requestDetach l i marker result => exact balanced_requestDetach l i marker result
  | unload l i => exact balanced_unload l i
  | pushFrame l i => exact Keeps.balanced (still_onContexts h fun c => c.push i)
  | popFrame l i =>
    refine .balanced (.bind track_still (still_onContexts h _) fun f => ?_)
    cases f with
    | some f => exact .pure track_still _
    | none => exact .bind track_still (still_record fun _ => rfl) fun _ => .pure track_still _
  | setFrame l i f =>
    unfold perform
    exact Keeps.balanced (still_onContexts h _)
  | removeFrames l i => exact Keeps.balanced (still_onContexts h fun c => c.remove i)
  | swapCallback l i code => exact (still_swapCallback l i _).balanced
  | takeCallback l i => exact (still_takeCallback l i).balanced
  | restoreCallback l i => exact (still_restoreCallback l i).balanced
  | forgetCallback l i => exact (still_forgetCallback l i).balanced
  | notify n => exact (still_record fun _ => rfl).balanced
  | _ => exact absurd rfl hquiet

end Interpose

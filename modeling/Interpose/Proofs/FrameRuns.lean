import Interpose.Proofs.Discipline
import Interpose.Proofs.FrameOperations

/-!
# The frames throughout a run

Every run of a machine whose code leaves the frames of a hook layer to that layer is balanced when it is over, and the
beginning of something balanced at every moment before. This holds of each part of the machine if it holds of the calls
it makes, and so of all calls by induction on how deep they nest. The one place at which frames are opened and closed is
`Machine.framed`, which closes after its calls what it opened before them.

Main statement: `Machine.keepsFrames_enter`.
-/

namespace Interpose

open FrameChange World

variable {σ α β : Type} {k : SubsystemId}

/-- Whatever the fuel, a run is balanced when it is over, and has begun to be at every moment. -/
def Run.KeepsFrames (k : SubsystemId) (r : Run σ α) : Prop :=
  ∀ d w, r.Ensures d w (fun _ => Begun k w) fun _ => Balanced k w

namespace Run.KeepsFrames

theorem pure (a : α) : KeepsFrames k (pure a : Run σ α) :=
  fun _ w => .pure (FramesStill.refl w).balanced

theorem bind {r : Run σ α} {next : α → Run σ β} (h : r.KeepsFrames k) (hn : ∀ a, (next a).KeepsFrames k) :
    KeepsFrames k (r >>= next) := by
  refine fun d w => .bind ((h d w).mono_post fun a v hv => ?_)
  exact (hn a d v).mono (fun _ _ hb => hv.trans_begun hb) fun _ _ hb => hv.trans hb

theorem act {x : Act σ α} (h : x.Keeps (Balanced k)) : (Run.act x).KeepsFrames k :=
  fun _ w => .act (fun _ _ hx => h hx) fun _ => (FramesStill.refl w).balanced.begun

theorem still {x : Act σ α} (h : x.Keeps (FramesStill k)) : (Run.act x).KeepsFrames k :=
  act h.balanced

theorem world : (Run.world : Run σ (World σ)).KeepsFrames k :=
  fun _ w => .world (FramesStill.refl w).balanced

theorem under {activity : Activity} {r : Run σ α} (h : r.KeepsFrames k) : (Run.under activity r).KeepsFrames k :=
  fun _ w => .under (h activity w)

theorem stop : (Run.stop : Run σ α).KeepsFrames k :=
  fun _ w => .stop (FramesStill.refl w).balanced.begun

theorem within {activity : Activity} {r : Run σ α} (h : r.KeepsFrames k) : (Run.within activity r).KeepsFrames k :=
  fun _ w => .within (FramesStill.refl w).balanced.begun (h activity w)

/-- At every moment of a run, calls were begun, and some of them may be over. -/
theorem begun {r : Run σ α} (h : r.KeepsFrames k) (d : Activity) (w : World σ) (fuel : Nat) :
    Begun k w (r d w fuel).world := by
  cases hr : r d w fuel with
  | done a w' left => exact ((h d w).of_done hr).begun
  | cut d' w' => exact (h d w).of_cut hr

/-- What a run has written so far comes after what was written before. -/
theorem journal {r : Run σ α} (h : r.KeepsFrames k) (d : Activity) (w : World σ) (fuel : Nat) :
    ∃ es, (r d w fuel).world.events = w.events ++ es := by
  obtain ⟨es, ht, -⟩ := h.begun d w fuel
  exact ⟨es, ht.journal⟩

end Run.KeepsFrames

/-! ## Opening and closing -/

theorem nested?_entered {l : SubsystemId} {i j : InstanceId} {es : List Event} {m : Nat}
    (h : nested? 0 (frameChanges k j es) = some m) : ∃ n, nested? 0 (frameChanges k j (.entered l i :: es)) = some n := by
  show ∃ n, nested? 0 (Event.frameChange k j (.entered l i) :: frameChanges k j es) = some n
  rw [Event.frameChange]
  split
  · exact ⟨m + 1, nested?_add h 1⟩
  · exact ⟨m, h⟩

theorem nested?_entered_left {l : SubsystemId} {i j : InstanceId} {es es' : List Event}
    (h : nested? 0 (frameChanges k j es) = some 0) (hes' : Silent k es') :
    nested? 0 (frameChanges k j (.entered l i :: es ++ (es' ++ [.left l i]))) = some 0 := by
  have hleft : frameChanges k j [.left l i] = [if l = k ∧ i = j then .closed else .none] := rfl
  have hentered : frameChanges k j (.entered l i :: es) =
      (if l = k ∧ i = j then .opened else .none) :: frameChanges k j es := rfl
  rw [frameChanges_append, frameChanges_append, hes'.frameChanges, hleft, hentered, nested?_append]
  split
  · -- the count is raised by the first entry, and lowered again by the last
    have hopen : nested? 0 (opened :: frameChanges k j es) = some 1 := nested?_add h 1
    rw [hopen]
    show nested? 1 _ = _
    rw [nested?_append, nested?_silent]
    rfl
  · have hnone : nested? 0 (FrameChange.none :: frameChanges k j es) = some 0 := h
    rw [hnone]
    show nested? 0 _ = _
    rw [nested?_append, nested?_silent]
    rfl

namespace Machine

/-- Opening a frame is told by the journal, and counted. -/
theorem tells_openFrame {l : SubsystemId} {i : InstanceId} {w w' : World σ} (h : openFrame l i w = some ((), w')) :
    Tells k w w' [.entered l i] ∧ w'.execDepth k = if k = l then w.execDepth k + 1 else w.execDepth k := by
  obtain ⟨⟨n, w₁⟩, h₁, h⟩ := Option.bind_eq_some_iff.1 h
  obtain ⟨⟨u, w₂⟩, h₂, h⟩ := Option.bind_eq_some_iff.1 h
  cases h
  -- the frame is pushed first, and told of last; counting in between does nothing to frames
  have hevents : (w₂.record (.entered l i)).events = w.events ++ ([] ++ [.entered l i]) := by
    rw [events_record, Act.events_onSubsystem h₂, Act.events_onSubsystem h₁]
    rfl
  have happly : ∀ (c : Contexts) j,
      (c.push i).2.frames j = ((Event.entered l i).frameChange l j).apply (c.frames j) := by
    intro c j
    rw [Contexts.frames_push]
    exact (apply_own .opened l i j c.frames).symm
  have hframes : ∀ j, (w₂.record (.entered l i)).frames k j = w₁.frames k j := fun j =>
    (frames_record ..).trans (Act.frames_onSubsystem h₂ (fun _ => rfl) j)
  have hp : Persists w₁ w₂ := Act.persists_onSubsystem h₂
  refine ⟨Act.tells_onContexts h₁ happly (fun j hl => if_neg fun h => hl h.1) hframes (by simp [Silent]) hevents
    ⟨hp.layers, hp.instances⟩, ?_⟩
  rw [execDepth_record, Act.execDepth_onSubsystem h₂ fun _ => rfl, Act.execDepth_onContexts h₁]

/-- A frame that is opened is the innermost one, and nothing was asked for in it yet. -/
theorem frames_openFrame {l : SubsystemId} {i : InstanceId} {w w' : World σ} (h : openFrame l i w = some ((), w'))
    (k : SubsystemId) (j : InstanceId) :
    w'.frames k j = if l = k ∧ i = j then .fresh :: w.frames k j else w.frames k j := by
  rw [(tells_openFrame h).1.frames]
  show FrameChange.replay [Event.frameChange k j (.entered l i)] _ = _
  rw [Event.frameChange]
  split <;> rfl

/-- So the frames that the instance had are below it. -/
theorem frames_of_openFrame {i : InstanceId} {w w' : World σ} (h : openFrame k i w = some ((), w')) :
    w'.frames k i = .fresh :: w.frames k i :=
  (frames_openFrame h k i).trans (if_pos ⟨rfl, rfl⟩)

/-- What is written when a frame is closed: that there is none is reported. -/
def closing (l : SubsystemId) (i : InstanceId) (fs : List Frame) : List Event :=
  (if fs = [] then [.notice (.popWithoutFrame i)] else []) ++ [.left l i]

theorem silent_closing (l : SubsystemId) (i : InstanceId) (fs : List Frame) :
    ∃ es, Silent k es ∧ closing l i fs = es ++ [.left l i] := by
  refine ⟨_, ?_, rfl⟩
  split <;> simp [Silent, Event.frameChange]

/-- Collecting the temporary strings, or not, has nothing to do with frames. -/
theorem still_collect {l : SubsystemId} {before : Nat} {w w' : World σ}
    (h : (if before = 1 then do
        let _ ← Act.onPool l Pool.collect
        pure ()
      else pure () : Act σ Unit) w = some ((), w')) : FramesStill k w w' ∧ w'.events = w.events := by
  split at h
  · obtain ⟨⟨n, w₁⟩, h₁, h⟩ := Option.bind_eq_some_iff.1 h
    cases h
    exact ⟨(Act.quiet_onPool l _).still h₁, Act.events_onSubsystem h₁⟩
  · cases h
    exact ⟨.refl w, rfl⟩

/-- Popping a frame takes the innermost one, and reports that there is none. -/
theorem popFrame_spec {l : SubsystemId} {i : InstanceId} {f : Option Frame} {w w₂ : World σ}
    (h : Act.popFrame l i w = some (f, w₂)) : ∃ f' w₁, Act.onContexts l (fun c => c.pop i) w = some (f', w₁) ∧
      FramesStill k w₁ w₂ ∧
      w₂.events = w₁.events ++ if w.frames l i = [] then [.notice (.popWithoutFrame i)] else [] := by
  obtain ⟨⟨f', w₁⟩, h₁, h₂⟩ := Option.bind_eq_some_iff.1 h
  refine ⟨f', w₁, h₁, ?_⟩
  -- what was popped is the frame that was innermost
  have hpop : f' = (w.frames l i).head? := by
    obtain ⟨s, hs, eq⟩ := Option.map_eq_some_iff.1 h₁
    cases eq
    rw [frames_of_subsystem? hs]
    show (s.contexts.pop i).1 = _
    unfold Contexts.pop
    split <;> simp [*]
  cases hf : w.frames l i with
  | nil =>
    rw [hpop, hf] at h₂
    cases h₂
    exact ⟨Act.still_record (e := .notice (.popWithoutFrame i)) (fun _ => rfl) rfl, by simp⟩
  | cons g rest =>
    rw [hpop, hf] at h₂
    cases h₂
    exact ⟨.refl _, by simp⟩

/-- Closing a frame is told by the journal, and counted. -/
theorem tells_closeFrame {l : SubsystemId} {i : InstanceId} {w w' : World σ} (h : closeFrame l i w = some ((), w')) :
    Tells k w w' (closing l i (w.frames l i)) ∧
      w'.execDepth k = if k = l then w.execDepth k - 1 else w.execDepth k := by
  obtain ⟨⟨f, w₂⟩, h₂, h⟩ := Option.bind_eq_some_iff.1 h
  obtain ⟨⟨before, w₃⟩, h₃, h⟩ := Option.bind_eq_some_iff.1 h
  obtain ⟨f', w₁, h₁, hstill₂, hevents₂⟩ := popFrame_spec (k := k) h₂
  -- nothing happens to frames once this one is closed
  obtain ⟨hstill', hevents'⟩ : FramesStill k (w₃.record (.left l i)) w' ∧
      w'.events = (w₃.record (.left l i)).events := still_collect h
  obtain ⟨es, hes, hclosing⟩ := silent_closing l i (w.frames l i)
  have happly : ∀ (c : Contexts) j, (c.pop i).2.frames j = ((Event.left l i).frameChange l j).apply (c.frames j) := by
    intro c j
    rw [Contexts.frames_pop]
    exact (apply_own .closed l i j c.frames).symm
  have hframes : ∀ j, w'.frames k j = w₁.frames k j := by
    intro j
    rw [hstill'.frames, frames_record, Act.frames_onSubsystem h₃ (fun _ => rfl), hstill₂.frames]
  have hevents : w'.events = w.events ++ (es ++ [.left l i]) := by
    rw [← hclosing, hevents', events_record, Act.events_onSubsystem h₃, hevents₂, Act.events_onSubsystem h₁, closing,
      List.append_assoc]
  have hp₃ : Persists w₂ w₃ := Act.persists_onSubsystem h₃
  have hpersists : Persists w₁ w' := (hstill₂.persists.trans hp₃).trans
    ⟨hstill'.persists.layers, hstill'.persists.instances⟩
  rw [hclosing]
  refine ⟨Act.tells_onContexts h₁ happly (fun j hl => if_neg fun h => hl h.1) hframes hes hevents hpersists, ?_⟩
  rw [hstill'.execDepth, execDepth_record, Act.execDepth_onSubsystem (g := fun n => n - 1) h₃ fun _ => rfl,
    hstill₂.execDepth, Act.execDepth_onContexts h₁]

/-- The frame that is closed is the innermost one, if there is one. -/
theorem frames_closeFrame {l : SubsystemId} {i : InstanceId} {w w' : World σ} (h : closeFrame l i w = some ((), w'))
    (k : SubsystemId) (j : InstanceId) :
    w'.frames k j = if l = k ∧ i = j then (w.frames k j).tail else w.frames k j := by
  obtain ⟨es, hes, hclosing⟩ := silent_closing (k := k) l i (w.frames l i)
  rw [(tells_closeFrame h).1.frames, hclosing, frameChanges_append, FrameChange.replay_append, hes.frameChanges,
    FrameChange.replay_silent]
  show FrameChange.replay [Event.frameChange k j (.left l i)] _ = _
  rw [Event.frameChange]
  split <;> rfl

end Machine

open Machine

/-- What has begun since a frame was opened has begun since before that. -/
theorem World.Begun.entered {l : SubsystemId} {i : InstanceId} {w w₀ w₁ : World σ}
    (h₀ : Tells k w w₀ [.entered l i]) (h₁ : Begun k w₀ w₁) : Begun k w w₁ := by
  obtain ⟨es, ht, hn⟩ := h₁
  refine ⟨.entered l i :: es, h₀.trans ht, fun j => ?_⟩
  obtain ⟨m, hm⟩ := hn j
  exact nested?_entered hm

/-- A run that is balanced, between the opening and the closing of a frame. -/
theorem Run.keepsFrames_between {r : Run σ α} (h : r.KeepsFrames k) (l : SubsystemId) (i : InstanceId) :
    KeepsFrames k (do
      Run.act (openFrame l i)
      let a ← r
      Run.act (closeFrame l i)
      pure a) := by
  intro d w
  refine .bind (.act (fun u w₀ hopen => ?_) fun _ => (FramesStill.refl w).balanced.begun)
  obtain ⟨htells, hdepth⟩ := tells_openFrame (k := k) hopen
  -- every moment within is one after the frame was opened
  refine .bind ((h d w₀).mono (fun _ _ hb => Begun.entered htells hb) fun a w₁ h₁ => ?_)
  refine .bind (.act (fun u w₂ hclose => .pure ?_) fun _ => Begun.entered htells h₁.begun)
  obtain ⟨htells', hdepth'⟩ := tells_closeFrame (k := k) hclose
  obtain ⟨es, hes, hclosing⟩ := silent_closing l i (w₁.frames l i)
  rw [hclosing] at htells'
  obtain ⟨es₁, htells₁, hnested, hdepth₁⟩ := h₁
  refine ⟨.entered l i :: es₁ ++ (es ++ [.left l i]), (htells.trans htells₁).trans htells', fun j => ?_, ?_⟩
  · exact nested?_entered_left (hnested j) hes
  · rw [hdepth', hdepth₁, hdepth]
    split <;> rfl

/-! ## The machine -/

namespace Machine

theorem aloof_balanced : Act.Aloof (Balanced k : World σ → World σ → Prop) where
  toMild := .of_quiet Act.track_balanced fun hq => hq.framesStill.balanced
  putInstance _ ha := FramesStill.balanced (.of_subsystem? rfl rfl (.setInstance ha _))
  setCallbacks _ hs := FramesStill.balanced (.setSubsystem hs rfl rfl)
  setHolds _ hs := FramesStill.balanced (.setSubsystem hs rfl rfl)
  execHook l f := (Act.still_onMount l .exec f).balanced
  callbackLost _ i := (Act.still_record (e := .notice (.callbackLost i)) (fun _ => rfl) rfl).balanced

theorem composes_frames : Composes (Balanced k) (fun _ r => Run.KeepsFrames (σ := σ) k r) where
  pure := .pure
  bind := .bind
  act := .act
  tick _ w := .tick (FramesStill.refl w).balanced.begun (FramesStill.refl w).balanced
  world := .world
  stop := .stop
  under := .under

section

variable {host : Host σ} (hhost : host.UsesOnly (.operations (Operation.leavesFrames k)))
include hhost

/-- Keeping the frames is a discipline for the whole machine. -/
theorem regimeOfFrames : Regime host (Balanced k) fun _ r => Run.KeepsFrames k r := by
  refine composes_frames.regime aloof_balanced (fun o ho => Operation.balanced_perform _ _ ho) hhost (fun w e he => ?_)
    Act.balanced_requestAwait Act.balanced_requestDetach fun l i h => Run.keepsFrames_between h l i
  have htold : ∀ i, e.frameChange k i = .none := fun i => by cases e <;> first | rfl | cases he
  exact (Act.still_record htold rfl).balanced

/-- However deep calls nest, the journal tells what becomes of the frames of a layer, if all code leaves them to it. -/
theorem keepsFrames_enter (depth : Nat) (c : Call) : (enter host depth c).KeepsFrames k :=
  (regimeOfFrames hhost).enter depth c

end

end Machine

end Interpose

import Interpose.Proofs.OwnRequests
import Interpose.Proofs.Stages

/-!
# Requests made by handlers

The handler of a synthetic callback runs before the call that it may name is made, and it has no frame of its own. What it
asks for itself is therefore written into the frame of the call in which the callback was executed, and that call is
suspended as the handler said. Whatever else happens until the callback is over happens in calls with frames of their own:
no frame below the innermost is touched, and the innermost one only by the handler's own requests.

Main statement: `Machine.touchesInnermost_callback`.
-/

namespace Interpose

open FrameChange World

variable {σ : Type} {k : SubsystemId} {i : InstanceId}

/-- Whatever calls were begun are over, and nothing was asked for outside of them. -/
def World.Encloses (k : SubsystemId) (i : InstanceId) (w w' : World σ) : Prop :=
  ∃ es, Tells k w w' es ∧ (∀ j, nested? 0 (frameChanges k j es) = some 0) ∧ ownRequests k i 0 es = []

namespace World

theorem Encloses.trans {u v w : World σ} (h : Encloses k i u v) (h' : Encloses k i v w) : Encloses k i u w := by
  obtain ⟨es, htells, hnested, hown⟩ := h
  obtain ⟨es', htells', hnested', hown'⟩ := h'
  refine ⟨es ++ es', htells.trans htells', fun j => ?_, ?_⟩
  · exact (nested?_frameChanges_append (hnested j) es').trans (hnested' j)
  · rw [ownRequests_append (hnested i), hown, hown']
    rfl

theorem FramesStill.encloses {w w' : World σ} (h : FramesStill k w w') : Encloses k i w w' := by
  obtain ⟨es, hes, hsilent⟩ := h.journal
  refine ⟨es, .of_silent hes hsilent h.frames h.persists, fun j => ?_, ownRequests_silent hsilent⟩
  rw [hsilent.frameChanges, nested?_silent]

/-- What is asked for while a frame is open is asked for in its call. -/
theorem Encloses.of_frame {w w₀ w₁ w' : World σ} (hopen : Machine.openFrame k i w = some ((), w₀))
    (h : Balanced k w₀ w₁) (hclose : Machine.closeFrame k i w₁ = some ((), w')) : Encloses k i w w' := by
  obtain ⟨es, htells, hnested, -⟩ := h
  have htells₀ := (Machine.tells_openFrame (k := k) hopen).1
  have htells₁ := (Machine.tells_closeFrame (k := k) hclose).1
  obtain ⟨es', hsilent, hclosing⟩ := Machine.silent_closing (k := k) k i (w₁.frames k i)
  rw [hclosing] at htells₁
  refine ⟨_, (htells₀.trans htells).trans htells₁, fun j => nested?_entered_left (hnested j) hsilent, ?_⟩
  -- the first entry opens a call, and the last one closes it
  have hopened : Event.frameChange k i (.entered k i) = .opened := if_pos ⟨rfl, rfl⟩
  have hclosed : Event.frameChange k i (.left k i) = .closed := if_pos ⟨rfl, rfl⟩
  have hinside : nested? 1 (frameChanges k i es) = some 1 := nested?_add (hnested i) 1
  show ownRequests k i 0 (.entered k i :: (es ++ (es' ++ [.left k i]))) = []
  rw [ownRequests, hopened]
  dsimp only
  rw [ownRequests_append hinside, ownRequests_enclosed (hnested i), ownRequests_append (by
    rw [hsilent.frameChanges, nested?_silent]), ownRequests_silent hsilent, ownRequests, hclosed]
  rfl

/-- When all calls that were begun are over, the innermost frame is what the requests outside of them made of it, unless the
instance was forgotten. -/
theorem Tells.requested {w w' : World σ} {es : List Event} (h : Tells k w w' es)
    (hnested : nested? 0 (frameChanges k i es) = some 0) (hi : ¬ Unloaded k i es) :
    w'.frames k i = (w.frames k i).modifyHead fun f => (ownRequests k i 0 es).foldl Event.requested f := by
  cases hframes : w.frames k i with
  | nil =>
    have hlength := length_replay_le hnested (w.frames k i) (by rw [hframes]; exact Nat.le_refl 0)
    rw [h.frames]
    exact List.length_eq_zero_iff.1 (Nat.le_zero.1 hlength)
  | cons f fs =>
    rcases h.own hnested hframes with ⟨-, hunloaded, -⟩ | ⟨f', hown, -, hframes'⟩
    · exact absurd hunloaded hi
    · rw [hframes', ownFrame_eq_some hown]
      rfl

end World

namespace Machine

/-- What a callback left of the frames of its instance. The journal told `es` until the handler was over, and then `es'`
until the callback was. -/
structure TouchesInnermost (k : SubsystemId) (i : InstanceId) (w w' : World σ) (es es' : List Event) : Prop where
  journal : w'.events = w.events ++ (es ++ es')
  /-- Unless the instance was forgotten, the frames are those that were there before; but into the innermost one the
  handler's own requests were written. -/
  kept : ¬ Unloaded k i (es ++ es') →
    w'.frames k i = (w.frames k i).modifyHead fun f => (ownRequests k i 0 es).foldl Event.requested f
  /-- If the handler itself asked for nothing, not even the innermost frame was changed. -/
  undisturbed : ownRequests k i 0 es = [] → ¬ Unloaded k i (es ++ es') → w'.frames k i = w.frames k i
  /-- An instance that was forgotten has no frames. -/
  forgotten : Unloaded k i (es ++ es') → w'.frames k i = []
  /-- Of the requests that an outer call goes by, those of the handler are the only ones that the callback adds; and it adds
  them only if the callback was executed in that call itself. -/
  around : ∀ {before n}, nested? 0 (frameChanges k i before) = some n → ∀ after,
    ownRequests k i 0 (before ++ (es ++ es') ++ after) =
      ownRequests k i 0 before ++ (if n = 0 then ownRequests k i 0 es else []) ++ ownRequests k i n after

/-- What happened while a handler ran, and then in calls with frames of their own. -/
theorem TouchesInnermost.of_encloses {w w₁ w' : World σ} {es : List Event} (h : Tells k w w₁ es)
    (hnested : ∀ j, nested? 0 (frameChanges k j es) = some 0) (h' : Encloses k i w₁ w') :
    ∃ es', TouchesInnermost k i w w' es es' := by
  obtain ⟨es', htells, hnested', hown⟩ := h'
  have hall := h.trans htells
  have hover := (nested?_frameChanges_append (hnested i) es').trans (hnested' i)
  have hrequests : ownRequests k i 0 (es ++ es') = ownRequests k i 0 es := by
    rw [ownRequests_append (hnested i), hown, List.append_nil]
  have hkept : ¬ Unloaded k i (es ++ es') →
      w'.frames k i = (w.frames k i).modifyHead fun f => (ownRequests k i 0 es).foldl Event.requested f := by
    intro hi
    rw [hall.requested hover hi, hrequests]
  refine ⟨es', hall.journal, hkept, fun hnothing hi => ?_, hall.forgotten hover, fun {before n} hbefore after => ?_⟩
  · rw [hkept hi, hnothing]
    cases w.frames k i <;> rfl
  · -- the callback leaves as many calls open as there were, so what comes after it is counted as before
    have hopen : ∀ n, nested? n (frameChanges k i (es ++ es')) = some n := by
      intro n
      have := nested?_add hover n
      rwa [Nat.zero_add] at this
    have hjoined := (nested?_frameChanges_append hbefore (es ++ es')).trans (hopen n)
    rw [ownRequests_append hjoined, ownRequests_append hbefore]
    cases n with
    | zero => rw [hrequests, if_pos rfl]
    | succ n => rw [ownRequests_enclosed (hopen n), if_neg (Nat.succ_ne_zero n)]

section

variable {host : Host σ} (hhost : host.UsesOnly (.operations (Operation.leavesFrames k)))
include hhost

/-- A call with a frame encloses what is asked for in it. -/
theorem encloses_framed {depth : Nat} {slot : Option Cell} {index : Cell} {d : Activity} {w w' : World σ}
    {fuel left : Nat} {r : ExecReply} (hdone : framed host (enter host depth) k i slot index d w fuel = .done r w' left) :
    Encloses k i w w' := by
  obtain ⟨w₀, w₁, hopen, hinside, hclose⟩ := done_of_framed hdone
  have hkeeps := (regimeOfFrames hhost).inside (keepsFrames_enter hhost depth) k i slot index
  exact .of_frame hopen ((hkeeps d w₀).of_done hinside) hclose

/-- Whatever the handler of a callback does, runs or names, when the callback is over the frames of its instance are those
that were there before, with the handler's own requests in the innermost one. -/
theorem touchesInnermost_callback {index : Cell} {id : Nat} (hindex : ExecIndex.decode index = .synthetic id) {depth : Nat}
    {slot : Option Cell} {d : Activity} {w w' : World σ} {fuel left : Nat} {r : ExecReply}
    (hdone : intercepted host (enter host depth) k i slot index d w fuel = .done r w' left) :
    ∃ w₀ handled w₁ left₁ es es', w₀ = w.hold k (· + 1) ∧ w₀.events = w.events ∧
      (∀ j, w₀.frames k j = w.frames k j) ∧
      invoke host (enter host depth) k i id slot d w₀ fuel = .done handled w₁ left₁ ∧ w₁.events = w₀.events ++ es ∧
      TouchesInnermost k i w w' es es' := by
  have hcalls := keepsFrames_enter hhost depth
  have D := (regimeOfFrames hhost).discipline hcalls
  unfold intercepted at hdone
  rw [hindex] at hdone
  obtain ⟨w₂, hstill₀, hevents₀, hanswer, hstill₂⟩ := done_of_holding hdone
  obtain ⟨handled, w₁, left₁, hhandled, hanswer⟩ := Run.done_of_bind hanswer
  obtain ⟨es, htells, hnested, -⟩ := (D.invoke k i id slot d (w.hold k (· + 1))).of_done hhandled
  -- what comes after the handler is a call with a frame of its own, if it comes to one
  have hforward : Encloses k i w₁ w₂ := by
    dsimp only at hanswer
    cases hname : handled.forward with
    | none =>
      rw [hname] at hanswer
      cases hanswer
      exact (FramesStill.refl _).encloses
    | some name =>
      rw [hname] at hanswer
      obtain ⟨found, v, hfound, hanswer⟩ := Run.done_of_act_bind hanswer
      have M : Act.Mild (FramesStill k : World σ → World σ → Prop) := .of_quiet Act.track_still fun hq => hq.framesStill
      have hstill : FramesStill k w₁ v := M.lookupPast host.callbackIds k i _ hfound
      cases found with
      | error s =>
        cases hanswer
        exact hstill.encloses
      | ok index => exact hstill.encloses.trans (encloses_framed hhost hanswer)
  have hhold : Tells k w (w.hold k (· + 1)) [] :=
    .of_silent (by rw [hevents₀, List.append_nil]) (by simp [Silent]) hstill₀.frames hstill₀.persists
  obtain ⟨es', htouches⟩ := TouchesInnermost.of_encloses (hhold.trans htells) hnested (hforward.trans hstill₂.encloses)
  exact ⟨_, handled, w₁, left₁, es, es', rfl, hevents₀, hstill₀.frames, hhandled, htells.journal, htouches⟩

end

/-- A script whose first function asks to wait for a task, has a callback executed and then suspends its call, and a handler
that asks for its instance to be handed to the thread system and then names the second function. -/
def handlingHost : Host Unit :=
  { Host.scripted fun code i =>
      if code = ⟨0⟩ then do
        let _ ← Program.callIndex i 0 []
        let s ← Program.perform (.requestAwait ⟨0⟩ i ⟨1⟩ (.ofNat 5))
        let _ ← Program.executeInto i none ⟨-8, by decide, by decide⟩
        .done (.error s)
      else .done (.ok 1) with
    invoke := fun k _ i _ => do
      let _ ← Program.perform (.requestDetach k i ⟨.ofNat 9⟩ (.ofNat 7))
      .done ⟨none, some "other"⟩ }

/-- A world in which that script is loaded with a native, and every hook is switched on. -/
def handlingWorld : World Unit :=
  let setUp : Program Unit Unit := do
    let i ← Program.perform (.newInstance 4)
    let _ ← Program.perform (.addFunction i "main" ⟨0⟩)
    let _ ← Program.perform (.addFunction i "other" ⟨1⟩)
    let _ ← Program.perform (.addNative i "native" ⟨0⟩)
    let _ ← Program.perform (.installAll ⟨0⟩)
  (setUp.runIn handlingHost 9 (.single #[] .drop () .standard ⟨.host, .host, .host⟩)).world

/-- The execute call of the first function, cut when the callback is about to be executed. -/
def handlingMoment : Outcome Unit ExecReply :=
  intercepted handlingHost (enter handlingHost 4) ⟨0⟩ ⟨0⟩ (some 1) 0 .outside handlingWorld 4

theorem touchesInnermost_handling :
    ∃ d w r w' left es es', handlingMoment = .cut d w ∧
      intercepted handlingHost (enter handlingHost 4) ⟨0⟩ ⟨0⟩ none ⟨-8, by decide, by decide⟩ d w 9 = .done r w' left ∧
      w.frames ⟨0⟩ ⟨0⟩ = [⟨.await, .ofNat 5, some ⟨1⟩, ⟨0⟩⟩] ∧ TouchesInnermost ⟨0⟩ ⟨0⟩ w w' es es' := by
  have hhost : handlingHost.UsesOnly (.operations (Operation.leavesFrames ⟨0⟩)) := by
    refine ⟨fun code i => ?_, fun _ _ _ => trivial, fun _ _ _ _ => trivial, fun _ _ _ _ => ?_, fun _ _ _ => trivial⟩
    · show Program.Uses _ (ite _ _ _)
      split
      · exact ⟨trivial, fun _ => ⟨trivial, fun _ => ⟨trivial, fun _ => trivial⟩⟩⟩
      · trivial
    · exact ⟨trivial, fun _ => trivial⟩
  have hindex : ExecIndex.decode ⟨-8, by decide, by decide⟩ = .synthetic 5 := rfl
  have hruns : handlingMoment.cut?.any (fun m =>
      decide (m.2.frames ⟨0⟩ ⟨0⟩ = [⟨.await, .ofNat 5, some ⟨1⟩, ⟨0⟩⟩]) &&
        (intercepted handlingHost (enter handlingHost 4) ⟨0⟩ ⟨0⟩ none ⟨-8, by decide, by decide⟩ m.1 m.2 9).done?.any
          fun _ => true) = true := by
    decide +kernel
  obtain ⟨d, w, hmoment, hruns⟩ := Outcome.exists_cut hruns
  obtain ⟨hframes, hover⟩ := Bool.and_eq_true_iff.1 hruns
  obtain ⟨r, w', left, hdone, -⟩ := Outcome.exists_done hover
  obtain ⟨w₀, handled, w₁, left₁, es, es', -, -, -, -, -, htouches⟩ := touchesInnermost_callback hhost hindex hdone
  exact ⟨d, w, r, w', left, es, es', hmoment, hdone, of_decide_eq_true hframes, htouches⟩

/-- The callback makes a call that waits for a task one that is handed to the thread system: the frame of the call changes,
though its instance was not forgotten, and the call ends as the handler said. -/
theorem touchesInnermost_overwrites :
    ∃ d w r w' left reply w'' left', handlingMoment = .cut d w ∧
      intercepted handlingHost (enter handlingHost 4) ⟨0⟩ ⟨0⟩ none ⟨-8, by decide, by decide⟩ d w 9 = .done r w' left ∧
      w.frames ⟨0⟩ ⟨0⟩ = [⟨.await, .ofNat 5, some ⟨1⟩, ⟨0⟩⟩] ∧
      (∀ kept, Event.unloaded ⟨0⟩ ⟨0⟩ kept ∉ w'.events) ∧
      w'.frames ⟨0⟩ ⟨0⟩ = [⟨.detach, .ofNat 7, some ⟨1⟩, ⟨.ofNat 9⟩⟩] ∧
      intercepted handlingHost (enter handlingHost 4) ⟨0⟩ ⟨0⟩ (some 1) 0 .outside handlingWorld 9 =
        .done reply w'' left' ∧
      reply.slot = some (.ofNat 7) ∧ Event.detached ⟨0⟩ ⟨0⟩ ⟨.ofNat 9⟩ (some (.ofNat 7)) ∈ w''.events := by
  have hruns : handlingMoment.cut?.any (fun m =>
      (intercepted handlingHost (enter handlingHost 4) ⟨0⟩ ⟨0⟩ none ⟨-8, by decide, by decide⟩ m.1 m.2 9).done?.any
        fun m' => decide (m.2.frames ⟨0⟩ ⟨0⟩ = [⟨.await, .ofNat 5, some ⟨1⟩, ⟨0⟩⟩]) &&
          decide (m'.2.frames ⟨0⟩ ⟨0⟩ = [⟨.detach, .ofNat 7, some ⟨1⟩, ⟨.ofNat 9⟩⟩]) &&
          decide (∀ kept, Event.unloaded ⟨0⟩ ⟨0⟩ kept ∉ m'.2.events)) = true := by
    decide +kernel
  have hends : (intercepted handlingHost (enter handlingHost 4) ⟨0⟩ ⟨0⟩ (some 1) 0 .outside handlingWorld
      9).done?.any (fun m' => decide (m'.1.slot = some (.ofNat 7)) &&
        decide (Event.detached ⟨0⟩ ⟨0⟩ ⟨.ofNat 9⟩ (some (.ofNat 7)) ∈ m'.2.events)) = true := by
    decide +kernel
  obtain ⟨d, w, hmoment, hruns⟩ := Outcome.exists_cut hruns
  obtain ⟨r, w', left, hdone, hruns⟩ := Outcome.exists_done hruns
  obtain ⟨reply, w'', left', hover, hends⟩ := Outcome.exists_done hends
  simp only [Bool.and_eq_true, decide_eq_true_eq] at hruns hends
  obtain ⟨⟨hbefore, hafter⟩, hkept⟩ := hruns
  exact ⟨d, w, r, w', left, reply, w'', left', hmoment, hdone, hbefore, hkept, hafter, hover, hends.1, hends.2⟩

end Machine

end Interpose

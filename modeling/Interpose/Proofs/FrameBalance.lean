import Interpose.Proofs.Stages

/-!
# Balance and isolation of frames

An intercepted call has a frame of its own for as long as it is under way, and nothing it does reaches the frames below:
neither the calls that are made in it, nor the suspensions that are asked for. When it is over, the instance has the
frames it had before the call. The one thing that reaches below is that the instance is forgotten; then it has no frames
left, and the end of the call finds none to close.

Main statement: `Machine.isolatesFrames_intercepted`.
-/

namespace Interpose.Machine

open World

variable {σ : Type}

/-- What an intercepted call of instance `i` through layer `k`, of which the journal tells `es`, makes of the frames of
the layer. -/
structure IsolatesFrames (k : SubsystemId) (i : InstanceId) (w : World σ) (o : Outcome σ ExecReply)
    (es : List Event) : Prop where
  journal : o.world.events = w.events ++ es
  /-- At every moment, the frames below the call's own are those that were there before. -/
  below : ¬ Unloaded k i es → w.frames k i <:+ o.world.frames k i
  /-- At every moment, an instance that did not execute, ask or get forgotten has the frames it had before. -/
  others : ∀ j, ¬ Involved k j es → o.world.frames k j = w.frames k j
  /-- The call closes its own frame, or none if the instance was forgotten in the meantime. -/
  closes : ∀ {r w' left}, o = .done r w' left → ∃ w₁, closeCall k i w₁ = some ((), w') ∧
    (¬ Unloaded k i es → ∃ f, w₁.frames k i = f :: w.frames k i) ∧ (Unloaded k i es → w₁.frames k i = [])
  /-- When the call is over, the frames are as they were before, or gone if the instance was forgotten. -/
  returns : ∀ {r w' left}, o = .done r w' left →
    (¬ Unloaded k i es → w'.frames k i = w.frames k i) ∧ (Unloaded k i es → w'.frames k i = [])
  /-- When the call is over, as many calls are counted as before. -/
  counts : ∀ {r w' left}, o = .done r w' left → w'.execDepth k = w.execDepth k

section

variable {k : SubsystemId} {i : InstanceId} {w w₀ w₁ : World σ}

/-- A call in which others were begun, and some of them may not be over. -/
theorem IsolatesFrames.of_begun (d : Activity) (hopen : openCall k i w = some ((), w₀)) (h : Begun k w₀ w₁) :
    ∃ es, IsolatesFrames k i w (.cut d w₁) es := by
  obtain ⟨es, ht, hn⟩ := h
  have htells := (tells_openCall hopen).1.trans ht
  refine ⟨.entered k i :: es, htells.journal, fun hi => ?_, fun j hj => ?_, nofun, nofun, nofun⟩
  · -- the call's own frame is above those that were there
    obtain ⟨m, hm⟩ := hn i
    exact ht.below hm (frames_openCall hopen) fun ⟨kept, hkept⟩ => hi ⟨kept, List.mem_cons_of_mem _ hkept⟩
  · obtain ⟨m, hm⟩ := hn j
    obtain ⟨n, hn⟩ := nested?_entered (i := i) (l := k) hm
    exact htells.untouched hn hj

/-- Opening and closing a frame has no instance forgotten. -/
theorem unloaded_entered_closing {es : List Event} {fs : List Frame} :
    Unloaded k i (.entered k i :: es ++ closing k i fs) ↔ Unloaded k i es := by
  have hclosing : ∀ kept, .unloaded k i kept ∉ closing k i fs := by
    intro kept
    unfold closing
    split <;> simp
  simp [Unloaded, hclosing]

/-- A call that is over, and so are all that were made in it. -/
theorem IsolatesFrames.of_balanced {w₂ : World σ} (r : ExecReply) (left : Nat)
    (hopen : openCall k i w = some ((), w₀)) (h : Balanced k w₀ w₁) (hclose : closeCall k i w₁ = some ((), w₂)) :
    ∃ es, IsolatesFrames k i w (.done r w₂ left) es := by
  obtain ⟨es, ht, hn, hd⟩ := h
  obtain ⟨htells₀, hdepth₀⟩ := tells_openCall hopen
  obtain ⟨htells₂, hdepth₂⟩ := tells_closeCall hclose
  have htells := (htells₀.trans ht).trans htells₂
  -- with its own opening and closing, the call is balanced for every instance
  have hnested : ∀ j, FrameChange.nested? 0
      (frameChanges k j (.entered k i :: es ++ closing k i (w₁.frames k i))) = some 0 := by
    intro j
    obtain ⟨es', hes', hclosing⟩ := silent_closing k i (w₁.frames k i)
    rw [hclosing]
    exact nested?_entered_left (hn j) hes'
  -- before it is closed, the frame of the call is the innermost one again, or was dropped with all others
  have hown : (¬ Unloaded k i es → ∃ f, w₁.frames k i = f :: w.frames k i) ∧ (Unloaded k i es → w₁.frames k i = []) :=
    ht.innermost (hn i) (frames_openCall hopen)
  have hreturns : (¬ Unloaded k i es → w₂.frames k i = w.frames k i) ∧ (Unloaded k i es → w₂.frames k i = []) := by
    refine ⟨fun hi => ?_, fun hi => ?_⟩
    · obtain ⟨f, hf⟩ := hown.1 hi
      rw [frames_closeCall hclose, if_pos rfl, hf, List.tail_cons]
    · rw [frames_closeCall hclose, if_pos rfl, hown.2 hi, List.tail_nil]
  refine ⟨.entered k i :: es ++ closing k i (w₁.frames k i), htells.journal, fun hi => ?_, fun j hj => ?_, ?_, ?_, ?_⟩
  · rw [unloaded_entered_closing] at hi
    have hsame : w.frames k i = w₂.frames k i := (hreturns.1 hi).symm
    exact hsame ▸ List.suffix_rfl
  · exact htells.untouched (hnested j) hj
  · rintro _ _ _ ⟨⟩
    rw [unloaded_entered_closing]
    exact ⟨w₁, hclose, hown⟩
  · rintro _ _ _ ⟨⟩
    rw [unloaded_entered_closing]
    exact hreturns
  · rintro _ _ _ ⟨⟩
    rw [hdepth₂, hd, hdepth₀]
    rfl

end

/-- Whatever code runs in an intercepted call, as long as it leaves the frames to their layer, the call isolates the
frames of its instance, and of all others: when it is over, and at every moment before. -/
theorem isolatesFrames_intercepted {host : Host σ} {k : SubsystemId}
    (hhost : host.UsesOnly (.operations (Operation.leavesFrames k))) {index : Cell} (hindex : ExecIndex.IsPublic index)
    (depth : Nat) (i : InstanceId) (slot : Option Cell) (d : Activity) (w : World σ) (fuel : Nat) :
    ∃ es, IsolatesFrames k i w (intercepted host (enter host depth) k i slot index d w fuel) es := by
  rw [intercepted_public hindex]
  cases hopen : openCall k i w with
  | none =>
    -- there is no such layer, and the call gets nowhere
    rw [Run.bind_of_cut (Run.act_of_none hopen d fuel)]
    exact ⟨[], by simp [Outcome.world], fun _ => List.suffix_rfl, fun _ _ => rfl, nofun, nofun, nofun⟩
  | some opened =>
    obtain ⟨u, w₀⟩ := opened
    rw [Run.bind_of_done (Run.act_of_some hopen d fuel)]
    -- passing the call on and settling its answer are balanced, and everything happens in them
    have hcalls := keepsFrames_enter hhost depth
    have hinner := (regimeOfFrames hhost).inside hcalls k i slot index
    have hsplit : inFrame host (enter host depth) k i slot index =
        (passOn (enter host depth) k i slot index >>= settle host (enter host depth) k i) >>= fun r =>
          Run.act (closeCall k i) >>= fun _ => pure r := by
      rw [bind_assoc]
      rfl
    rw [hsplit]
    cases hr : (passOn (enter host depth) k i slot index >>= settle host (enter host depth) k i) d w₀ fuel with
    | cut d' w₁ =>
      rw [Run.bind_of_cut hr]
      exact IsolatesFrames.of_begun d' hopen ((hinner d w₀).of_cut hr)
    | done r w₁ left =>
      rw [Run.bind_of_done hr]
      have hbalanced := (hinner d w₀).of_done hr
      cases hclose : closeCall k i w₁ with
      | none =>
        rw [Run.bind_of_cut (Run.act_of_none hclose d left)]
        exact IsolatesFrames.of_begun d hopen hbalanced.begun
      | some closed =>
        obtain ⟨u', w₂⟩ := closed
        rw [Run.bind_of_done (Run.act_of_some hclose d left)]
        exact IsolatesFrames.of_balanced r left hopen hbalanced hclose

/-- A script with two functions: the first calls a native, which asks to wait for a task and then executes the second
function; that one asks to wait for another task and suspends its call. -/
def nestedHost : Host Unit :=
  { Host.scripted fun code i =>
      if code = ⟨0⟩ then Program.callIndex i 0 []
      else .act (.requestAwait ⟨0⟩ i ⟨2⟩ 1) fun s => .done (.error s) with
    native := fun _ i _ => do
      let s ← Program.perform (.requestAwait ⟨0⟩ i ⟨1⟩ 1)
      let _ ← Program.executeInto i none 1
      .done (.error s) }

/-- A world in which that script is loaded with the native, and every hook is switched on. -/
def nestedWorld : World Unit :=
  let setUp : Program Unit Unit := do
    let i ← Program.perform (.newInstance 4)
    let _ ← Program.perform (.addFunction i "outer" ⟨0⟩)
    let _ ← Program.perform (.addFunction i "inner" ⟨1⟩)
    let _ ← Program.perform (.addNative i "native" ⟨0⟩)
    let _ ← Program.perform (.installAll ⟨0⟩)
  (setUp.runIn nestedHost 9 (.single #[] .drop () .standard ⟨.host, .unsupported, .unsupported⟩)).world

/-- The native executes the second function through the hook, which is back in its slot by then. The frame of the outer
call, with its request, lies below that of the inner call and stays as it is. -/
theorem isolatesFrames_nested :
    ∃ d w es r w' left es', intercepted nestedHost (enter nestedHost 9) ⟨0⟩ ⟨0⟩ (some 0) 0 .outside nestedWorld 4 =
        .cut d w ∧
      IsolatesFrames ⟨0⟩ ⟨0⟩ nestedWorld (.cut d w) es ∧
      w.entry .exec = .detour ⟨0⟩ .plain ∧ w.frames ⟨0⟩ ⟨0⟩ = [⟨.await, 1, some ⟨1⟩, ⟨0⟩⟩] ∧
      intercepted nestedHost (enter nestedHost 9) ⟨0⟩ ⟨0⟩ none 1 .machine w 9 = .done r w' left ∧
      IsolatesFrames ⟨0⟩ ⟨0⟩ w (.done r w' left) es' ∧ .awaitRequested ⟨0⟩ ⟨0⟩ ⟨2⟩ 1 .sleep ∈ es' ∧
      w'.frames ⟨0⟩ ⟨0⟩ = [⟨.await, 1, some ⟨1⟩, ⟨0⟩⟩] := by
  have hhost : nestedHost.UsesOnly (.operations (Operation.leavesFrames ⟨0⟩)) := by
    refine ⟨fun code i => ?_, fun _ _ _ => ⟨trivial, fun _ => ⟨trivial, fun _ => trivial⟩⟩, fun _ _ _ _ => trivial,
      fun _ _ _ _ => trivial, fun _ _ _ => trivial⟩
    show Program.Uses _ (ite _ _ _)
    split
    · exact ⟨trivial, fun _ => trivial⟩
    · exact ⟨trivial, fun _ => trivial⟩
  have houter : ExecIndex.IsPublic 0 := fun id h => nomatch h
  have hinner : ExecIndex.IsPublic 1 := fun id h => nomatch h
  have hruns : (intercepted nestedHost (enter nestedHost 9) ⟨0⟩ ⟨0⟩ (some 0) 0 .outside nestedWorld 4).cut?.any (fun m =>
      decide (m.2.entry .exec = .detour ⟨0⟩ .plain ∧ m.2.frames ⟨0⟩ ⟨0⟩ = [⟨.await, 1, some ⟨1⟩, ⟨0⟩⟩]) &&
        (intercepted nestedHost (enter nestedHost 9) ⟨0⟩ ⟨0⟩ none 1 .machine m.2 9).done?.any fun m' =>
          decide (Event.awaitRequested ⟨0⟩ ⟨0⟩ ⟨2⟩ 1 .sleep ∈ m'.2.events.drop m.2.events.length) &&
            decide (∀ kept, Event.unloaded ⟨0⟩ ⟨0⟩ kept ∉ m'.2.events.drop m.2.events.length)) = true := by
    decide +kernel
  obtain ⟨d, w, hmoment, hruns⟩ := Outcome.exists_cut hruns
  obtain ⟨hbefore, hruns⟩ := Bool.and_eq_true_iff.1 hruns
  obtain ⟨hentry, hframes⟩ := of_decide_eq_true hbefore
  obtain ⟨r, w', left, hdone, hover⟩ := Outcome.exists_done hruns
  simp only [Bool.and_eq_true, decide_eq_true_eq] at hover
  obtain ⟨es, hcut⟩ := isolatesFrames_intercepted hhost houter 9 ⟨0⟩ (some 0) .outside nestedWorld 4
  obtain ⟨es', hwhole⟩ := isolatesFrames_intercepted hhost hinner 9 ⟨0⟩ none .machine w 9
  rw [hmoment] at hcut
  rw [hdone] at hwhole
  have hjournal : w'.events = w.events ++ es' := hwhole.journal
  rw [hjournal, List.drop_left] at hover
  have hkept : ¬ Unloaded ⟨0⟩ ⟨0⟩ es' := fun ⟨kept, hkept⟩ => hover.2 kept hkept
  exact ⟨d, w, es, r, w', left, es', hmoment, hcut, hentry, hframes, hdone, hwhole, hover.1,
    ((hwhole.returns rfl).1 hkept).trans hframes⟩

end Interpose.Machine

import Interpose.Proofs.Callbacks
import Interpose.Proofs.HookRuns

/-!
# Callbacks after intercepted calls

An intercepted call gives its instance the callback of the layer, and when it is over the instance has its own callback
again: either a native call put it back, or the layer did afterwards. Calls may nest in the meantime, on this instance or
on others, and each of them may take callbacks and give them back; none of them loses a callback, since whatever happens
the callbacks stay paired with those that are kept.

A run is followed by what it keeps up while it goes on (`Midway`) and when it is over (`Over`). Of a native call this
can be said if the instance has the callback that the call goes through.

Main statement: `Machine.restores_callbacks`.
-/

namespace Interpose

open World

variable {σ α β : Type} {k : SubsystemId} {told : InstanceId → Prop} {n : Nat}

namespace World

/-- What a run keeps up while it goes on; of callbacks, if they `fit`. -/
structure Midway (k : SubsystemId) (told : InstanceId → Prop) (fits : Prop) (w w' : World σ) : Prop where
  sound : Sound k w'
  grows : w.events <+: w'.events
  pairing : fits → Meanwhile k told w w'

/-- What a run has kept up when it is over; of callbacks, if they `fit`. -/
structure Over (k : SubsystemId) (told : InstanceId → Prop) (fits : Prop) (w w' : World σ) : Prop where
  kept : HookKept k w w'
  grows : w.events <+: w'.events
  pairing : fits → Afterwards k told w w'

variable {fits fits' : Prop}

theorem Midway.refl {w : World σ} (h : Sound k w) : Midway k told fits w w :=
  ⟨h, List.prefix_rfl, fun _ => .refl w⟩

theorem Midway.of {w w' : World σ} (hs : Sound k w') (h : Meanwhile k told w w') : Midway k told fits w w' :=
  ⟨hs, h.grows, fun _ => h⟩

theorem Over.of {w w' : World σ} (hk : HookKept k w w') (h : Afterwards k told w w') : Over k told fits w w' :=
  ⟨hk, h.grows, fun _ => h⟩

/-- What is asked of all callbacks is asked of those that fit. -/
theorem Midway.weaken {w w' : World σ} (h : Midway k told True w w') : Midway k told fits w w' :=
  ⟨h.sound, h.grows, fun _ => h.pairing trivial⟩

theorem Over.weaken {w w' : World σ} (h : Over k told True w w') : Over k told fits w w' :=
  ⟨h.kept, h.grows, fun _ => h.pairing trivial⟩

/-- After a change that keeps up callbacks, a run goes on. -/
theorem Midway.after {u v w : World σ} (h : Meanwhile k told u v) (h' : Midway k told fits' v w)
    (hfits : fits → fits') : Midway k told fits u w :=
  ⟨h'.sound, h.grows.trans h'.grows, fun hf => h.trans (h'.pairing (hfits hf))⟩

theorem Over.refl (w : World σ) : Over k told fits w w :=
  .of (.refl k w) (.refl w)

theorem Over.trans {u v w : World σ} (h : Over k told True u v) (h' : Over k told True v w) : Over k told True u w :=
  .of (h.kept.trans h'.kept) ((h.pairing trivial).trans (h'.pairing trivial))

theorem Over.midway {w w' : World σ} (h : Over k told fits w w') (hs : Sound k w) : Midway k told fits w w' :=
  ⟨h.kept.sound hs, h.grows, fun hf => (h.pairing hf).toMeanwhile⟩

end World

/-! ## Runs -/

/-- A run keeps hooks and callbacks up, at every moment and when it is over. -/
def Run.Restores (k : SubsystemId) (told : InstanceId → Prop) (n : Nat) (r : Run σ α) : Prop :=
  ∀ d w, Sound k w → w.holds k = n → r.Ensures d w (fun _ => Midway k told True w) fun _ => Over k told True w

namespace Run.Restores

theorem pure (a : α) : Restores k told n (pure a : Run σ α) :=
  fun _ w _ _ => .pure (.refl w)

theorem bind {r : Run σ α} {next : α → Run σ β} (h : r.Restores k told n) (hn : ∀ a, (next a).Restores k told n) :
    Restores k told n (r >>= next) := by
  intro d w hs hw
  refine .bind ((h d w hs hw).mono_post fun a v hv => ?_)
  have hnext := hn a d v (hv.kept.sound hs) (hv.kept.holds.trans hw)
  exact hnext.mono (fun _ u hm => hm.after (hv.pairing trivial).toMeanwhile fun h => h) fun b u hu => hv.trans hu

theorem act {x : Act σ α} (h : x.Keeps (Over k told True)) : (Run.act x).Restores k told n :=
  fun _ _ hs _ => .act (fun _ _ hx => h hx) fun _ => .refl hs

theorem under {activity : Activity} {r : Run σ α} (h : r.Restores k told n) : (Run.under activity r).Restores k told n :=
  fun _ w hs hw => .under (h activity w hs hw)

theorem within {activity : Activity} {r : Run σ α} (h : r.Restores k told n) :
    (Run.within activity r).Restores k told n :=
  fun _ w hs hw => .within (.refl hs) (h activity w hs hw)

theorem stop : (Run.stop : Run σ α).Restores k told n :=
  fun _ _ hs _ => .stop (.refl hs)

end Run.Restores

namespace Act

theorem counting_over (k : SubsystemId) (told : InstanceId → Prop) :
    Counting (Over k told True : World σ → World σ → Prop) :=
  have H := counting_hookKept (σ := σ) k
  have A := counting_afterwards (σ := σ) k told
  { toMild := .of_quiet ⟨.refl, .trans⟩ fun h => .of h.hookKept h.afterwards
    setContexts := fun c hs => .of (H.setContexts c hs) (A.setContexts c hs)
    disown := fun hs => .of (H.disown hs) (A.disown hs)
    toggle := fun l x on _ _ _ h => .of (H.toggle l x on h) (A.toggle l x on h)
    asked := fun w e he => .of (H.asked w e he) (A.asked w e he)
    setDepth := fun n hs => .of (H.setDepth n hs) (A.setDepth n hs)
    entered := fun w l i => .of (H.entered w l i) (A.entered w l i)
    left := fun w l i => .of (H.left w l i) (A.left w l i)
    collect := fun l _ _ _ h => .of (H.collect l h) (A.collect l h) }

end Act

namespace Machine

/-- What is known of calls: they keep hooks and callbacks up; of a native call this is known if the instance has the
callback that the call goes through. -/
structure Restoring (k : SubsystemId) (told : InstanceId → Prop) (calls : Calls σ) : Prop where
  exec : ∀ i slot index n, (calls (.exec i slot index)).Restores k told n
  dispatch : ∀ callback i index params n d w, Sound k w → w.holds k = n →
    (calls (.dispatch callback i index params)).Ensures d w (fun _ => Midway k told (w.callback? i = some callback) w)
      fun _ => Over k told (w.callback? i = some callback) w

end Machine

/-- Code that leaves callbacks alone keeps them up. -/
theorem Program.restores_run {host : Host σ} {calls : Calls σ} (hcalls : Machine.Restoring k told calls)
    {p : Program σ α} (hp : p.Uses (.operations (Operation.leavesCallbacks told))) :
    (p.run host calls).Restores k told n := by
  intro d w hs hw
  -- a call begins in a world that is like the first one, so what it keeps up is kept up since then
  have hstep : ∀ v, Over k told True w v → Sound k v ∧ v.holds k = n :=
    fun v hv => ⟨hv.kept.sound hs, hv.kept.holds.trans hw⟩
  refine Program.ensures_run (fun _ => Midway k told True w) (Over k told True w) ?_ ?_ ?_ ?_ ?_ hp (.refl w)
  · exact fun v hv => hv.midway hs
  · intro v change hv
    exact hv.trans ((Act.counting_over k told).setHost _ _)
  · intro o ho v r v' he hv
    refine hv.trans (.of ?_ (Operation.afterwards_perform _ _ ho he))
    exact Operation.hookKept_perform _ _ (Operation.keepsLayers_of_leavesCallbacks ho) he
  · intro i slot index _ v hv
    obtain ⟨hsv, hnv⟩ := hstep v hv
    have hcall := hcalls.exec i slot index n d v hsv hnv
    exact hcall.mono (fun _ u hm => hm.after (hv.pairing trivial).toMeanwhile fun h => h) fun _ u hu => hv.trans hu
  · intro i index params _ v a ha hv
    obtain ⟨hsv, hnv⟩ := hstep v hv
    have hfits : v.callback? i = some a.callback := by
      unfold World.callback?
      rw [ha]
      rfl
    have hcall := hcalls.dispatch a.callback i index params n d v hsv hnv
    refine hcall.mono (fun _ u hm => hm.after (hv.pairing trivial).toMeanwhile fun _ => hfits) fun _ u hu => ?_
    exact hv.trans (.of hu.kept (hu.pairing hfits))

namespace Machine

section

variable {host : Host σ} {calls : Calls σ}
  (hhost : host.UsesOnly (.operations (Operation.leavesCallbacks told))) (hcalls : Restoring k told calls)
include hhost hcalls

/-- Keeping callbacks up is a discipline. -/
theorem disciplineOfRestoring (n : Nat) :
    Discipline host calls (Over k told True) fun _ r => Run.Restores k told n r where
  mild := (Act.counting_over k told).toMild
  handsOver w e he := .of (Act.hookKept_record e rfl) (Act.afterwards_record (fun i hi => by rw [hi] at he; cases he) rfl)
  await := (Act.counting_over k told).requestAwait
  detachRequest := (Act.counting_over k told).requestDetach
  pure := .pure
  bind := .bind
  act := .act
  within := .within
  script code i := Program.restores_run hcalls (hhost.script code i)
  native code i params := Program.restores_run hcalls (hhost.native code i params)
  callback code i index params := Program.restores_run hcalls (hhost.callback code i index params)
  handler l id i slot := Program.restores_run hcalls (hhost.invoke l id i slot)
  detach l i marker := Program.restores_run hcalls (hhost.detach l i marker)

/-! ## Execute calls -/

omit hhost hcalls in
/-- What a run keeps up while one call more is counted. -/
theorem restores_holding {r : Run σ α} {fits : Prop} {d : Activity} {w : World σ} (hs : Sound k w)
    (h : ∀ w₁, Counted k (· + 1) w w₁ →
      r.Ensures d w₁ (fun _ => Midway k told fits w₁) fun _ => Over k told fits w₁) :
    (holding k r).Ensures d w (fun _ => Midway k told fits w) fun _ => Over k told fits w := by
  refine ensures_holding (.refl hs) fun w₁ h₁ => ?_
  have hs₁ : Sound k w₁ := hs.of_same h₁.slot h₁.hooks
  have hbegun : Afterwards k told w w₁ := h₁.afterwards
  refine (h w₁ h₁).mono (fun _ u hm => hm.after hbegun.toMeanwhile fun h => h) fun a w₂ hw₂ => ⟨?_, fun w₃ h₃ => ?_⟩
  · exact (hw₂.midway hs₁).after hbegun.toMeanwhile fun h => h
  · have hkept : HookKept k w w₃ := .counted h₁ hw₂.kept h₃
    refine ⟨hkept, ?_, fun hf => (hbegun.trans (hw₂.pairing hf)).counted h₃ hkept.holds⟩
    rw [h₃.events]
    exact hbegun.grows.trans hw₂.grows

omit hhost in
/-- Passing a call on takes the callback of its instance and gives it back. -/
theorem restores_passOn (hn : 0 < n) (i : InstanceId) (slot : Option Cell) (index : Cell) :
    (passOn calls k i slot index).Restores k told n := by
  intro d w hs hw
  have hswapped : ∀ w₁, Act.swapCallback k i (.intercept k) w = some ((), w₁) → Meanwhile k told w w₁ :=
    fun w₁ h₁ => Act.meanwhile_swapCallback h₁ (hw.symm ▸ hn)
  refine ensures_passOn hs (.refl hs) (hcalls.exec i slot index n d w hs hw) (fun w₁ w₂ h₁ h₂ hs₂ _ => ?_)
    fun w₁ h₁ => .of ((Act.hookKept_swapCallback k i _ h₁).sound hs) (hswapped w₁ h₁)
  have hholds₁ : w₁.holds k = n := (Act.hookKept_swapCallback k i _ h₁).holds.trans hw
  have hholds₂ : w₂.holds k = n := (Act.holds_onMount h₂).trans hholds₁
  have hborrowed : Afterwards k told w₁ w₂ := Act.afterwards_onMount k .exec _ h₂
  have hout : Meanwhile k told w w₂ := (hswapped w₁ h₁).trans hborrowed.toMeanwhile
  refine (hcalls.exec i slot index n d w₂ hs₂ hholds₂).mono (fun _ u hm => hm.after hout fun h => h) fun r w₃ hw₃ => ?_
  refine ⟨hw₃.kept.sound hs₂, fun w₄ h₄ hs₄ hsettled₄ => ?_⟩
  have hback : Afterwards k told w₁ w₄ :=
    (hborrowed.trans (hw₃.pairing trivial)).trans (Act.afterwards_onMount k .exec _ h₄)
  refine ⟨.of hs₄ ((hswapped w₁ h₁).trans hback.toMeanwhile), fun restored w₅ h₅ => ?_⟩
  -- the hook is settled, and nothing is kept for the instance
  have hkept₅ : HookKept k w₄ w₅ := Act.hookKept_restoreCallback k i h₅
  have hholds₅ : w₅.holds k = w.holds k := by
    rw [hkept₅.holds, Act.holds_onMount h₄, hw₃.kept.holds, hholds₂, hw]
  obtain ⟨hrestored, hnone⟩ : Afterwards k told w₄ w₅ ∧ w₅.saved? k i = none := Act.afterwards_restoreCallback h₅
  obtain ⟨c, -, -, hsaved, -⟩ := Act.swapCallback_spec h₁
  refine .of ⟨fun _ => hkept₅.sound hs₄, fun _ _ => hkept₅.settled hs₄ hsettled₄, hholds₅⟩ ?_
  exact .of_passed (hswapped w₁ h₁) (hback.trans hrestored) (fun j hj => (hsaved j).trans (if_neg hj)) hnone

theorem restores_exec (n : Nat) (i : InstanceId) (slot : Option Cell) (index : Cell) :
    (exec host calls i slot index).Restores k told n := by
  have hplain := (disciplineOfRestoring hhost hcalls n).plainExec i slot index
  have D := disciplineOfRestoring hhost hcalls (n + 1)
  have hframed : ∀ slot index, (framed host calls k i slot index).Restores k told (n + 1) := fun slot index =>
    D.framed (keeps_openFrame (Act.counting_over k told).framing k i)
      (keeps_closeFrame (Act.counting_over k told).framing k i)
      (restores_passOn hcalls (Nat.succ_pos n) i slot index)
  have hintercepted : (intercepted host calls k i slot index).Restores k told n := by
    refine D.intercepted k i slot index (fun {r} hr d w hs hw => ?_) hframed
    refine restores_holding hs fun w₁ h₁ => ?_
    exact hr d w₁ (hs.of_same h₁.slot h₁.hooks) (h₁.holds.trans (congrArg (· + 1) hw))
  exact fun d w hs hw => ensures_exec hs (hplain d w hs hw) (hintercepted d w hs hw)

/-! ## Native calls -/

omit hhost hcalls in
/-- Where no callback is kept, there is none to go back to; but then callbacks were not paired before. -/
theorem restores_lost {i : InstanceId} {d : Activity} {w w₁ : World σ} (hs : Sound k w) (hkept : HookKept k w w₁)
    (hevents : w₁.events = w.events) (hnone : w.saved? k i = none) :
    Run.Ensures (do
      Run.act (Act.notify (.callbackLost i))
      let s ← Run.act (Act.raise i .callback)
      pure (.error s) : Run σ (Except Status Cell)) d w₁
      (fun _ => Midway k told (w.callback? i = some (.intercept k)) w)
      fun _ => Over k told (w.callback? i = some (.intercept k)) w := by
  refine .bind (.act (fun u w₂ h₂ => ?_) nofun)
  have hkept₂ : HookKept k w w₂ := hkept.trans (Act.hookKept_record _ h₂)
  have hgrows₂ : w.events <+: w₂.events := by
    cases h₂
    rw [events_record, hevents]
    exact List.prefix_append _ _
  refine .bind (.act (fun s w₃ h₃ => .pure ?_) fun _ => ?_)
  · have hraised : Quiet w₂ w₃ := Act.quiet_raise i .callback h₃
    have hkeeps : Afterwards k told w₂ w₃ := hraised.afterwards
    have hgrows₃ : w.events <+: w₃.events := hgrows₂.trans hkeeps.grows
    exact ⟨hkept₂.trans hraised.hookKept, hgrows₃, fun hf => .of_lost hgrows₃ hf hnone⟩
  · have hlost : w.callback? i = some (.intercept k) → Afterwards k told w w₂ := fun hf => .of_lost hgrows₂ hf hnone
    exact ⟨hkept₂.sound hs, hgrows₂, fun hf => (hlost hf).toMeanwhile⟩

omit hhost in
/-- A native call through the callback of the layer: the callback that is kept goes back on the instance first. -/
theorem restores_forwardNative (i : InstanceId) (index : Cell) (params : List Cell) (d : Activity) (w : World σ)
    (hs : Sound k w) : (forwardNative calls k i index params).Ensures d w
      (fun _ => Midway k told (w.callback? i = some (.intercept k)) w)
      fun _ => Over k told (w.callback? i = some (.intercept k)) w := by
  refine restores_holding hs fun w₁ h₁ => ?_
  have hs₁ : Sound k w₁ := hs.of_same h₁.slot h₁.hooks
  rw [← h₁.callback]
  refine .bind (.act (fun kept w₂ h₂ => ?_) fun _ => .refl hs₁)
  have hkept₂ : HookKept k w₁ w₂ := Act.hookKept_takeCallback k i h₂
  have hs₂ : Sound k w₂ := hkept₂.sound hs₁
  obtain ⟨hkept, hcallback₂, -, hevents₂⟩ := Act.takeCallback_spec h₂
  cases kept with
  | none => exact restores_lost hs₁ hkept₂ hevents₂ hkept.symm
  | some callback =>
    refine .bind (.act (fun u w₃ h₃ => ?_) fun hnone => absurd hnone (Act.onMount_ne_none hs₂))
    have hkept₃ : HookKept k w₁ w₃ := hkept₂.trans (Act.hookKept_reattachExec k h₃)
    obtain ⟨hcallback₃, hsaved₃, hevents₃⟩ := Act.callbacks_onMount (k := k) h₃
    refine .bind (.act (fun u w₄ h₄ => ?_) fun hnone => ?_)
    · have hgiven : Afterwards k told w₁ w₄ :=
        Act.afterwards_giveBack h₂ hevents₃ hcallback₃ hsaved₃ hkept₃.holds h₄ fun _ => rfl
      have hkept₄ : HookKept k w₁ w₄ := hkept₃.trans (Act.hookKept_onInstance i _ h₄)
      have hfits : w₄.callback? i = some callback := by
        obtain ⟨a, ha, eq⟩ := Option.map_eq_some_iff.1 h₄
        cases eq
        exact (callback?_setInstance ha _ i).trans (if_pos rfl)
      have hcall := hcalls.dispatch callback i index params _ d w₄ (hkept₄.sound hs₁) rfl
      refine hcall.mono (fun _ u hm => hm.after hgiven.toMeanwhile fun _ => hfits) fun r w₅ hw₅ => ?_
      exact ⟨hkept₄.trans hw₅.kept, hgiven.grows.trans hw₅.grows, fun _ => hgiven.trans (hw₅.pairing hfits)⟩
    · -- an instance that has a callback is there
      have hthere : w₃.instance? i = none := Option.map_eq_none_iff.1 hnone
      have hsame₃ : w₃.events = w₁.events := hevents₃.trans hevents₂
      have hgrows₃ : w₁.events <+: w₃.events := hsame₃ ▸ List.prefix_rfl
      refine ⟨hkept₃.sound hs₁, hgrows₃, fun hf => ?_⟩
      rw [← hcallback₂, ← hcallback₃] at hf
      unfold World.callback? at hf
      rw [hthere] at hf
      cases hf

theorem restores_dispatch (callback : Callback) (i : InstanceId) (index : Cell) (params : List Cell) (n : Nat)
    (d : Activity) (w : World σ) (hs : Sound k w) (hw : w.holds k = n) :
    (dispatch host calls callback i index params).Ensures d w (fun _ => Midway k told (w.callback? i = some callback) w)
      fun _ => Over k told (w.callback? i = some callback) w := by
  have D := disciplineOfRestoring hhost hcalls n
  have hdiscipline : ∀ {r : Run σ (Except Status Cell)}, r.Restores k told n → r.Ensures d w
      (fun _ => Midway k told (w.callback? i = some callback) w)
      fun _ => Over k told (w.callback? i = some callback) w := by
    intro r hr
    exact (hr d w hs hw).mono (fun _ _ hm => hm.weaken) fun _ _ ho => ho.weaken
  -- only a callback of the layer needs to be the one that the instance has
  cases callback with
  | standard => exact hdiscipline (D.plainDispatch i index params)
  | host code => exact hdiscipline (.within (D.callback code i index params))
  | intercept l =>
    refine .bind (.world ?_)
    by_cases hl : l = k
    · subst hl
      split
      · exact restores_forwardNative hcalls i index params d w hs
      · exact hdiscipline (D.raise i _ _)
    · rw [hs.not_isAlive hl]
      exact hdiscipline (D.raise i _ _)

end

/-! ## All calls -/

theorem restoring_enter {host : Host σ} (hhost : host.UsesOnly (.operations (Operation.leavesCallbacks told)))
    (depth : Nat) : Restoring k told (enter host depth) := by
  -- what is known of the calls one level deeper makes it known of these
  induction depth with
  | zero =>
    refine ⟨fun _ _ _ _ => .under .stop, fun _ _ _ _ _ _ _ hs _ => .under (.stop (.refl hs))⟩
  | succ depth ih =>
    refine ⟨fun i slot index n => ?_, fun callback i index params n d w hs hw => ?_⟩
    · exact .under (restores_exec hhost ih n i slot index)
    · exact .under (restores_dispatch hhost ih callback i index params n .machine w hs hw)

/-! ## Every run -/

/-- In a world in which a hook layer was just made, no callback is kept, and no instance has the layer's. -/
theorem paired_single {instances : Array Instance} (h : ∀ a ∈ instances, a.callback ≠ .intercept ⟨0⟩)
    (resumer : Resumer) (state : σ) (config : Config) (collaborators : Collaborators) :
    Paired ⟨0⟩ told (World.single instances resumer state config collaborators) := by
  have hnone : ∀ i, (World.single instances resumer state config collaborators).saved? ⟨0⟩ i = none := fun _ => rfl
  refine ⟨fun i => ?_, fun i => ?_, fun i hi => ?_, fun i => nofun⟩
  · refine ⟨fun hc => ?_, fun hk => ?_⟩
    · obtain ⟨a, ha, hcallback⟩ := Option.map_eq_some_iff.1 hc
      exact absurd hcallback (h a (Array.mem_of_getElem? ha))
    · rw [hnone] at hk
      cases hk
  · rw [hnone]
    exact nofun
  · rw [hnone] at hi
    cases hi

/-- Callbacks and the execute hook are restored. Where there is one hook layer, and host code leaves callbacks to it,
take any moment of any run and an execute call that is intercepted then, of an instance for which no callback is kept;
and let no instance be unloaded while its callback is kept. Then throughout the call every instance that has the callback
of the layer has another one kept for it, to which native calls can go on, and the layer is not gone; and that a callback
is lost is never reported, unless host code does so itself. When the call is over, its instance has the callback that it
had before, nothing is kept for it, and the hook is in its slot exactly if it is switched on. -/
theorem restores_callbacks {host : Host σ} (hhost : host.UsesOnly (.operations (Operation.leavesCallbacks told)))
    {p : Program σ α} (hp : p.Uses (.operations (Operation.leavesCallbacks told))) {instances : Array Instance}
    (hinstances : ∀ a ∈ instances, a.callback ≠ .intercept ⟨0⟩) {resumer : Resumer} {state : σ} {config : Config}
    {collaborators : Collaborators} {fuel : Nat} {d : Activity} {w : World σ}
    (hmoment : p.runIn host fuel (.single instances resumer state config collaborators) = .cut d w)
    {replaced : Entry} (hintercepted : w.entry .exec = .detour ⟨0⟩ replaced) {i : InstanceId}
    (hkept : w.saved? ⟨0⟩ i = none) {depth : Nat} {slot : Option Cell} {index : Cell} {d' : Activity} {fuel' : Nat}
    {outcome : Outcome σ ExecReply} (hcall : enter host depth (.exec i slot index) d' w fuel' = outcome)
    (hclean : Clean ⟨0⟩ outcome.world) :
    (∀ j, outcome.world.callback? j = some (.intercept ⟨0⟩) → outcome.world.isAlive ⟨0⟩ = true ∧
        ∃ c, outcome.world.saved? ⟨0⟩ j = some c ∧ c ≠ .intercept ⟨0⟩) ∧
      (∀ j, .notice (.callbackLost j) ∈ outcome.world.events → told j) ∧
      ∀ r w' left, outcome = .done r w' left → (∀ c, w.callback? i = some c → w'.callback? i = some c) ∧
        w'.saved? ⟨0⟩ i = none ∧ ∀ s, w'.subsystem? ⟨0⟩ = some s → s.hooks.exec.attached = s.hooks.exec.wanted := by
  -- the moment at which the call begins
  have hbegin : Midway ⟨0⟩ told True (.single instances resumer state config collaborators) w := by
    have hruns : (p.run host (enter host fuel)).Restores ⟨0⟩ told 0 :=
      Program.restores_run (restoring_enter hhost fuel) hp
    exact (hruns .outside _ (sound_single instances resumer state config collaborators) rfl).of_cut hmoment
  have hpaired : Clean ⟨0⟩ w → Paired ⟨0⟩ told w := fun hc =>
    (hbegin.pairing trivial).paired hc (paired_single hinstances resumer state config collaborators)
  have hsettled : Settled ⟨0⟩ w := by
    intro s hs
    obtain ⟨-, s', hs', hattached⟩ := hbegin.sound.attached_of_entry hintercepted
    rw [hs] at hs'
    cases hs'
    rw [hattached, hbegin.sound.wanted hs hattached]
  -- whether it is over or not, the call has kept callbacks up
  have hrun := (restoring_enter (k := ⟨0⟩) hhost depth).exec i slot index _ d' w hbegin.sound rfl
  have hmeanwhile : Meanwhile ⟨0⟩ told w outcome.world := by
    cases outcome with
    | done r w' left => exact ((hrun.of_done hcall).pairing trivial).toMeanwhile
    | cut d'' w' => exact (hrun.of_cut hcall).pairing trivial
  have hcleanBefore : Clean ⟨0⟩ w := hmeanwhile.clean hclean
  have hafter : Paired ⟨0⟩ told outcome.world := hmeanwhile.paired hclean (hpaired hcleanBefore)
  refine ⟨fun j hj => ?_, hafter.unlost, fun r w' left hdone => ?_⟩
  · have hsome := (hafter.intercepts j).1 hj
    obtain ⟨c, hc⟩ := Option.isSome_iff_exists.1 hsome
    refine ⟨isAlive_of_holds (hafter.going j hsome), c, hc, fun hproper => ?_⟩
    rw [hproper] at hc
    exact hafter.proper j hc
  · subst hdone
    have hover := hrun.of_done hcall
    have hnone : w'.saved? ⟨0⟩ i = none := (hover.pairing trivial).back hclean (hpaired hcleanBefore) i hkept
    refine ⟨fun c hc => ?_, hnone, hover.kept.settled hbegin.sound hsettled⟩
    rw [← original?_of_none hkept] at hc
    have horiginal := hmeanwhile.originals hclean (hpaired hcleanBefore) i c hc
    rwa [show (Outcome.done r w' left).world = w' from rfl, original?_of_none hnone] at horiginal

/-- A script whose first function calls a native and then executes the second, which suspends for no reason. -/
def nestingHost : Host Unit :=
  .scripted fun code i =>
    if code = ⟨0⟩ then .call i 0 [] fun _ => .exec i none 1 fun _ => .done (.ok 1) else .done (.error .sleep)

/-- Loads the script and the native, and switches every hook on. -/
def nestingProgram : Program Unit Unit := do
  let i ← Program.perform (.newInstance 4)
  let _ ← Program.perform (.addFunction i "first" ⟨0⟩)
  let _ ← Program.perform (.addFunction i "second" ⟨1⟩)
  let _ ← Program.perform (.addNative i "native" ⟨0⟩)
  let _ ← Program.perform (.installAll ⟨0⟩)
  Program.perform (.mark 0)

theorem restores_callbacks_nesting :
    ∃ w r w' left, nestingProgram.runIn nestingHost 5
        (.single #[] .drop () .standard ⟨.host, .unsupported, .unsupported⟩) = .cut .outside w ∧
      enter nestingHost 9 (.exec ⟨0⟩ none 0) .outside w 9 = .done r w' left ∧
      w.callback? ⟨0⟩ = some .standard ∧ w'.callback? ⟨0⟩ = some .standard ∧ w'.saved? ⟨0⟩ ⟨0⟩ = none := by
  have hhost : nestingHost.UsesOnly (.operations (Operation.leavesCallbacks fun _ => False)) := by
    refine Host.scripted_uses _ fun code i => ?_
    split
    · exact ⟨trivial, fun _ => ⟨trivial, fun _ => trivial⟩⟩
    · trivial
  have hprogram : nestingProgram.Uses (.operations (Operation.leavesCallbacks fun _ => False)) :=
    ⟨trivial, fun _ => ⟨trivial, fun _ => ⟨trivial, fun _ => ⟨trivial, fun _ => ⟨trivial, fun _ =>
      ⟨trivial, fun _ => trivial⟩⟩⟩⟩⟩⟩
  have hinstances : ∀ a ∈ (#[] : Array Instance), a.callback ≠ .intercept ⟨0⟩ := by simp
  have hreached : (nestingProgram.runIn nestingHost 5
      (.single #[] .drop () .standard ⟨.host, .unsupported, .unsupported⟩)).cut?.any (fun m => m.1 == .outside &&
        m.2.callback? ⟨0⟩ == some .standard && m.2.saved? ⟨0⟩ ⟨0⟩ == none && m.2.entry .exec == .detour ⟨0⟩ .plain &&
        (enter nestingHost 9 (.exec ⟨0⟩ none 0) .outside m.2 9).done?.any fun m =>
          decide (Clean ⟨0⟩ m.2)) = true := by decide +kernel
  obtain ⟨d, w, hmoment, hthere⟩ := Outcome.exists_cut hreached
  obtain ⟨hthere, hover⟩ := Bool.and_eq_true_iff.1 hthere
  obtain ⟨hthere, hentry⟩ := Bool.and_eq_true_iff.1 hthere
  obtain ⟨hthere, hkept⟩ := Bool.and_eq_true_iff.1 hthere
  obtain ⟨hd, hcallback⟩ := Bool.and_eq_true_iff.1 hthere
  obtain ⟨r, w', left, hdone, hclean⟩ := Outcome.exists_done hover
  cases eq_of_beq hd
  obtain ⟨-, -, hrestored⟩ := restores_callbacks hhost hprogram hinstances hmoment (eq_of_beq hentry) (eq_of_beq hkept)
    hdone (of_decide_eq_true hclean)
  obtain ⟨hback, hnone, -⟩ := hrestored r w' left rfl
  exact ⟨w, r, w', left, hmoment, hdone, eq_of_beq hcallback, hback _ (eq_of_beq hcallback), hnone⟩

end Machine

end Interpose

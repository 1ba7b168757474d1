import Interpose.Proofs.HookRuns
import Interpose.Proofs.Stages

/-!
# Calls that natives make

While an intercepted call is passed on, its hook is out of the slot, and a call that was made then would not be
intercepted. But the only code that runs then is the script whose call it is, and the one way in which a script makes the
host run code is to call a native; and its callback is the one that puts the hook back first. So whenever a native, a
handler or the thread system runs, the hook is in its slot, if it is switched on, and all calls that they make are
intercepted.

This is shown by following two kinds of worlds: those in which the hook is settled (`World.Resting`), and those in which
the call of an instance is being passed on and has not called a native yet (`World.Passing`).

Main statement: `Machine.reentry_intercepted`.
-/

namespace Interpose

open World

variable {σ α β : Type} {k : SubsystemId} {n : Nat}

/-! ## Kinds of worlds -/

/-- The body of a script works on memory and on what is pooled, and reaches the host by calling natives through the callback
of its instance. -/
def Program.Allowed.ofScript (i : InstanceId) : Program.Allowed σ where
  look := True
  remember _ := True
  act o := o.isQuiet = true
  exec _ _ _ := False
  call j _ _ := j = i

/-- Code that may execute anything: natives, handlers of callbacks, and the thread system. -/
def Activity.reenters : Activity → Bool
  | .native _ _ | .handler _ _ _ | .detach _ _ => true
  | _ => false

namespace World

/-- The execute hook is settled, and `n` calls keep its layer going. -/
structure Resting (k : SubsystemId) (n : Nat) (w : World σ) : Prop where
  sound : Sound k w
  settled : Settled k w
  holds : w.holds k = n

/-- A call of an instance is being passed on, and the instance has called no native since. -/
structure Passing (k : SubsystemId) (i : InstanceId) (n : Nat) (w : World σ) : Prop where
  sound : Sound k w
  out : ∀ s, w.subsystem? k = some s → s.hooks.exec.attached = false
  callback : w.callback? i = some (.intercept k)
  kept : (w.saved? k i).isSome
  holds : w.holds k = n
  going : 0 < n

/-- What is asked of every moment: the hook is settled if code runs that may execute anything. -/
def Watched (k : SubsystemId) (d : Activity) (w : World σ) : Prop :=
  d.reenters = true → Sound k w ∧ Settled k w

theorem Resting.watched {w : World σ} (h : Resting k n w) (d : Activity) : Watched k d w :=
  fun _ => ⟨h.sound, h.settled⟩

theorem Resting.hookKept {w w' : World σ} (h : Resting k n w) (hk : HookKept k w w') : Resting k n w' :=
  ⟨hk.sound h.sound, hk.settled h.sound h.settled, hk.holds.trans h.holds⟩

/-- What quiet operations change does not matter. -/
theorem Passing.quiet {i : InstanceId} {w w' : World σ} (h : Passing k i n w) (hq : Quiet w w') : Passing k i n w' where
  sound := hq.hookKept.sound h.sound
  out s' hs' := by
    have := congrArg (Option.map ExecState.hook) (hq.layers k)
    rw [Option.map_map, Option.map_map, hs'] at this
    obtain ⟨s, hs, heq⟩ := Option.map_eq_some_iff.1 this.symm
    rw [show s'.hooks.exec = s.hooks.exec from heq.symm]
    exact h.out s hs
  callback := hq.callback?_of_some h.callback
  kept := by
    rw [hq.saved?]
    exact h.kept
  holds := hq.hookKept.holds.trans h.holds
  going := h.going

/-- One call more or fewer keeps the layer going. -/
theorem Resting.counted {f : Nat → Nat} {w w' : World σ} (h : Resting k n w) (hc : Counted k f w w') :
    Resting k (f n) w' :=
  ⟨h.sound.of_same hc.slot hc.hooks, h.settled.of_same (hc.hooks k), hc.holds.trans (congrArg f h.holds)⟩

theorem Passing.held {i : InstanceId} {w w' : World σ} (h : Passing k i n w) (hc : Counted k (· + 1) w w') :
    Passing k i (n + 1) w' where
  sound := h.sound.of_same hc.slot hc.hooks
  out s' hs' := by
    have := hc.hooks k
    rw [hs'] at this
    obtain ⟨s, hs, heq⟩ := Option.map_eq_some_iff.1 this.symm
    rw [show s'.hooks.exec = s.hooks.exec from heq.symm]
    exact h.out s hs
  callback := (hc.callback i).trans h.callback
  kept := by
    rw [hc.saved]
    exact h.kept
  holds := hc.holds.trans (congrArg (· + 1) h.holds)
  going := Nat.succ_pos n

end World

/-! ## Runs from settled worlds -/

/-- From a world in which the hook is settled, a run gets to such a world, and every moment of it is as asked. -/
def Run.Rests (k : SubsystemId) (n : Nat) (r : Run σ α) : Prop :=
  ∀ d w, Resting k n w → r.Ensures d w (Watched k) fun _ => Resting k n

namespace Run.Rests

theorem pure (a : α) : Rests k n (pure a : Run σ α) :=
  fun _ _ h => .pure h

theorem bind {r : Run σ α} {next : α → Run σ β} (h : r.Rests k n) (hn : ∀ a, (next a).Rests k n) :
    Rests k n (r >>= next) :=
  fun d w hw => .bind ((h d w hw).mono_post fun a v hv => hn a d v hv)

theorem act {x : Act σ α} (h : x.Keeps (HookKept k)) : (Run.act x).Rests k n :=
  fun d _ hw => .act (fun _ _ hx => hw.hookKept (h hx)) fun _ => hw.watched d

theorem under {activity : Activity} {r : Run σ α} (h : r.Rests k n) : (Run.under activity r).Rests k n :=
  fun _ w hw => .under (h activity w hw)

theorem stop : (Run.stop : Run σ α).Rests k n :=
  fun d _ hw => .stop (hw.watched d)

theorem within {activity : Activity} {r : Run σ α} (h : r.Rests k n) : (Run.within activity r).Rests k n :=
  fun _ w hw => .within (hw.watched activity) (h activity w hw)

end Run.Rests

theorem Operation.keepsLayers_of_isQuiet {o : Operation} (h : o.isQuiet = true) : o.keepsLayers := by
  cases o with
  | newSubsystem config collaborators => cases h
  | _ => trivial

/-- Code that makes no hook layer keeps the hook settled. -/
theorem Program.rests_run {host : Host σ} {calls : Calls σ} {allowed : Program.Allowed σ}
    (hcalls : ∀ c, (calls c).Rests k n) (hallowed : ∀ o, allowed.act o → o.keepsLayers) {p : Program σ α}
    (hp : p.Uses allowed) : (p.run host calls).Rests k n := by
  intro d w hw
  refine Program.ensures_run (Watched k) (Resting k n) ?_ ?_ ?_ ?_ ?_ hp hw
  · exact fun v hv => hv.watched d
  · exact fun v change hv => hv.hookKept (Quiet.withHost v _).hookKept
  · exact fun o ho v r v' he hv => hv.hookKept (Operation.hookKept_perform _ _ (hallowed o ho) he)
  · exact fun i slot index _ v hv => hcalls _ d v hv
  · exact fun i index params _ v a _ hv => hcalls _ d v hv

namespace Machine

/-- What is known of calls: from settled worlds they get to settled worlds; a call that is passed on gets to one as soon as
its instance calls a native. -/
structure Reattaches (k : SubsystemId) (calls : Calls σ) : Prop where
  rests : ∀ c n, (calls c).Rests k n
  passed : ∀ i slot index n d w, Passing k i n w →
    (calls (.exec i slot index)).Ensures d w (Watched k) fun _ w' => Resting k n w' ∨ Passing k i n w'
  first : ∀ i index params n d w, Passing k i n w →
    (calls (.dispatch (.intercept k) i index params)).Ensures d w (Watched k) fun _ => Resting k n

section

variable {host : Host σ} {calls : Calls σ} (hhost : host.Uses .ofScript (.operations Operation.keepsLayers))
  (hcalls : Reattaches k calls)
include hhost hcalls

/-- Resting is a discipline. -/
theorem disciplineOfRest (n : Nat) : Discipline host calls (HookKept k) fun _ r => Run.Rests k n r where
  mild := .of_quiet (Act.track_hookKept k) Quiet.hookKept
  handsOver _ e _ := Act.hookKept_record e rfl
  await := (Act.counting_hookKept k).requestAwait
  detachRequest := (Act.counting_hookKept k).requestDetach
  pure := .pure
  bind := .bind
  act := .act
  within := .within
  script code i := Program.rests_run (fun c => hcalls.rests c n) (fun _ => Operation.keepsLayers_of_isQuiet)
    (hhost.script code i)
  native code i params := Program.rests_run (fun c => hcalls.rests c n) (fun _ h => h) (hhost.native code i params)
  callback code i index params :=
    Program.rests_run (fun c => hcalls.rests c n) (fun _ h => h) (hhost.callback code i index params)
  handler l id i slot := Program.rests_run (fun c => hcalls.rests c n) (fun _ h => h) (hhost.invoke l id i slot)
  detach l i marker := Program.rests_run (fun c => hcalls.rests c n) (fun _ h => h) (hhost.detach l i marker)

omit hhost hcalls in
theorem rests_holding {r : Run σ α} (h : r.Rests k (n + 1)) : (holding k r).Rests k n := by
  intro d w hw
  refine ensures_holding (hw.watched d) fun w₁ h₁ => ?_
  refine (h d w₁ (hw.counted h₁)).mono_post fun a w₂ hw₂ => ⟨hw₂.watched d, fun w₃ h₃ => ?_⟩
  exact hw₂.counted h₃

omit hhost in
/-- Passing a call on takes a settled hook out of its slot and leaves it settled. -/
theorem rests_passOn (hn : 0 < n) (i : InstanceId) (slot : Option Cell) (index : Cell) :
    (passOn calls k i slot index).Rests k n := by
  intro d w hw
  have hswapped : ∀ w₁, Act.swapCallback k i (.intercept k) w = some ((), w₁) → Resting k n w₁ :=
    fun w₁ h₁ => hw.hookKept (Act.hookKept_swapCallback k i _ h₁)
  refine ensures_passOn hw.sound (hw.watched d) (hcalls.rests _ n d w hw) (fun w₁ w₂ h₁ h₂ hw₂ hout => ?_)
    fun w₁ h₁ => (hswapped w₁ h₁).watched d
  obtain ⟨c, -, hcallback, hsaved, -⟩ := Act.swapCallback_spec h₁
  obtain ⟨hcallback₂, hsaved₂, -⟩ := Act.callbacks_onMount (k := k) h₂
  have hpassing : Passing k i n w₂ := by
    refine ⟨hw₂, hout, ?_, ?_, (Act.holds_onMount h₂).trans (hswapped w₁ h₁).holds, hn⟩
    · rw [hcallback₂, hcallback, if_pos rfl]
    · rw [hsaved₂, hsaved, if_pos rfl]
      rfl
  refine (hcalls.passed i slot index n d w₂ hpassing).mono_post fun r w₃ h₃ => ?_
  have hsound₃ : Sound k w₃ := h₃.elim (fun h => h.sound) fun h => h.sound
  have hholds₃ : w₃.holds k = n := h₃.elim (fun h => h.holds) fun h => h.holds
  refine ⟨hsound₃, fun w₄ h₄ hsound₄ hsettled₄ => ?_⟩
  have hw₄ : Resting k n w₄ := ⟨hsound₄, hsettled₄, (Act.holds_onMount h₄).trans hholds₃⟩
  exact ⟨hw₄.watched d, fun restored w₅ h₅ => hw₄.hookKept (Act.hookKept_restoreCallback k i h₅)⟩

theorem rests_framed (hn : 0 < n) (i : InstanceId) (slot : Option Cell) (index : Cell) :
    (framed host calls k i slot index).Rests k n :=
  (disciplineOfRest hhost hcalls n).framed (keeps_openFrame (Act.counting_hookKept k).framing k i)
    (keeps_closeFrame (Act.counting_hookKept k).framing k i) (rests_passOn hcalls hn i slot index)

/-! ## Calls from settled worlds -/

theorem rests_exec (n : Nat) (i : InstanceId) (slot : Option Cell) (index : Cell) :
    (exec host calls i slot index).Rests k n := by
  have hplain := (disciplineOfRest hhost hcalls n).plainExec i slot index
  have hintercepted : (intercepted host calls k i slot index).Rests k n :=
    (disciplineOfRest hhost hcalls (n + 1)).intercepted k i slot index rests_holding fun slot index =>
      rests_framed hhost hcalls (Nat.succ_pos n) i slot index
  exact fun d w hw => ensures_exec hw.sound (hplain d w hw) (hintercepted d w hw)

omit hhost in
theorem rests_forwardNative (n : Nat) (i : InstanceId) (index : Cell) (params : List Cell) :
    (forwardNative calls k i index params).Rests k n := by
  refine rests_holding (.bind (.act (Act.hookKept_takeCallback k i)) fun kept => ?_)
  cases kept with
  | some callback =>
    refine .bind (.act (Act.hookKept_reattachExec k)) fun _ => ?_
    exact .bind (.act (Act.hookKept_onInstance i _)) fun _ => hcalls.rests _ (n + 1)
  | none =>
    refine .bind (.act (Act.hookKept_record _)) fun _ => ?_
    exact .bind (.act (Act.quiet_raise i _).hookKept) fun _ => .pure _

theorem rests_dispatch (n : Nat) (callback : Callback) (i : InstanceId) (index : Cell) (params : List Cell) :
    (dispatch host calls callback i index params).Rests k n := by
  have D := disciplineOfRest hhost hcalls n
  cases callback with
  | standard => exact D.plainDispatch i index params
  | host code => exact .within (D.callback code i index params)
  | intercept l =>
    intro d w hw
    refine .bind (.world ?_)
    by_cases hl : l = k
    · subst hl
      split
      · exact rests_forwardNative hcalls n i index params d w hw
      · exact D.raise i _ _ d w hw
    · rw [hw.sound.not_isAlive hl]
      exact D.raise i _ _ d w hw

/-! ## Calls that are passed on -/

/-- A script that was passed a call runs until it calls a native, and from then on the hook is settled. -/
theorem passed_script (i : InstanceId) (code : Code) (n : Nat) (w : World σ) (hw : Passing k i n w) :
    ((host.script code i).run host calls).Ensures (.script i code) w (Watched k)
      fun _ w' => Resting k n w' ∨ Passing k i n w' := by
  -- the hook is out until the script calls its first native, and settled ever after
  refine Program.ensures_run (Watched k) (fun v => Resting k n v ∨ Passing k i n v) ?_ ?_ ?_ ?_ ?_ (hhost.script code i)
    (.inr hw)
  · exact fun _ _ => nofun
  · intro v change hv
    have hquiet := Quiet.withHost v (change v.host)
    exact hv.imp (fun h => h.hookKept hquiet.hookKept) fun h => h.quiet hquiet
  · intro o ho v r v' he hv
    have hquiet := Operation.quiet_perform _ _ ho he
    exact hv.imp (fun h => h.hookKept hquiet.hookKept) fun h => h.quiet hquiet
  · exact fun _ _ _ h => h.elim
  · intro j index params hj v a ha hv
    -- the script calls through the callback of its own instance
    subst hj
    rcases hv with hv | hv
    · exact (hcalls.rests _ n _ v hv).mono_post fun _ _ h => .inl h
    · have hcallback : a.callback = .intercept k := by
        have := hv.callback
        unfold World.callback? at this
        rw [ha] at this
        exact Option.some.inj this
      rw [hcallback]
      exact (hcalls.first j index params n _ v hv).mono_post fun _ _ h => .inl h

theorem passed_exec (i : InstanceId) (slot : Option Cell) (index : Cell) (n : Nat) (w : World σ)
    (hw : Passing k i n w) : (exec host calls i slot index).Ensures .machine w (Watched k)
      fun _ w' => Resting k n w' ∨ Passing k i n w' := by
  have hraise : ∀ s slot v, Resting k n v ∨ Passing k i n v → Run.Ensures (do
      let s ← Run.act (Act.raise i s)
      pure (.failure s slot) : Run σ ExecReply) .machine v (Watched k) fun _ w' => Resting k n w' ∨ Passing k i n w' := by
    refine fun s slot v hv => .bind (.act (fun s' v' h => .pure ?_) fun _ => nofun)
    have hquiet := Act.quiet_raise i s h
    exact hv.imp (fun h => h.hookKept hquiet.hookKept) fun h => h.quiet hquiet
  -- the hook is out of its slot, so the call reaches the machine's own entry
  obtain ⟨s, hs, -⟩ := hw.sound.hook
  refine .bind (.world ?_)
  rw [hw.sound.entry_of_out hs (hw.out s hs)]
  refine .bind (.act (fun a v h => ?_) fun _ => nofun)
  obtain ⟨b, -, eq⟩ := Option.map_eq_some_iff.1 h
  cases eq
  cases scriptOf a index with
  | none => exact hraise _ _ _ (.inr hw)
  | some code =>
    have hscript := passed_script hhost hcalls i code n w hw
    refine .bind ((Run.Ensures.within nofun hscript).mono_post fun r v hv => ?_)
    cases r with
    | ok value => exact .pure hv
    | error s => exact hraise _ _ _ hv

omit hhost in
/-- The first native that an instance calls while its call is passed on: the hook goes back first of all. -/
theorem first_dispatch (i : InstanceId) (index : Cell) (params : List Cell) (n : Nat) (w : World σ)
    (hw : Passing k i n w) : (dispatch host calls (.intercept k) i index params).Ensures .machine w (Watched k)
      fun _ => Resting k n := by
  refine .bind (.world ?_)
  rw [isAlive_of_holds (hw.holds.symm ▸ hw.going)]
  refine ensures_holding nofun fun w₁ h₁ => ?_
  have hw₁ := hw.held h₁
  refine .bind (.act (fun kept w₂ h₂ => ?_) fun _ => nofun)
  have hkept₂ : HookKept k w₁ w₂ := Act.hookKept_takeCallback k i h₂
  obtain ⟨hkept, -⟩ := Act.takeCallback_spec h₂
  -- there is a callback to go back to, and with it the hook goes back
  obtain ⟨callback, hcallback⟩ := Option.isSome_iff_exists.1 hw₁.kept
  rw [hkept, hcallback]
  refine .bind (.act (fun u w₃ h₃ => ?_) fun _ => nofun)
  obtain ⟨hsound₃, hsettled₃⟩ := Act.reattachExec_spec (hkept₂.sound hw₁.sound) h₃
  have hw₃ : Resting k (n + 1) w₃ :=
    ⟨hsound₃, hsettled₃, (Act.holds_onMount h₃).trans (hkept₂.holds.trans hw₁.holds)⟩
  refine .bind (.act (fun u w₄ h₄ => ?_) fun _ => nofun)
  have hw₄ := hw₃.hookKept (Act.hookKept_onInstance i _ h₄)
  refine (hcalls.rests (.dispatch callback i index params) (n + 1) .machine w₄ hw₄).mono_post
    fun r w₅ hw₅ => ⟨nofun, fun w₆ h₆ => hw₅.counted h₆⟩

end

/-! ## All calls -/

theorem reattaches_enter {host : Host σ} (hhost : host.Uses .ofScript (.operations Operation.keepsLayers))
    (depth : Nat) : Reattaches k (enter host depth) := by
  -- what is known of the calls one level deeper makes it known of these
  induction depth with
  | zero => exact ⟨fun _ _ => .under .stop, fun _ _ _ _ _ _ _ => .under (.stop nofun),
      fun _ _ _ _ _ _ _ => .under (.stop nofun)⟩
  | succ depth ih =>
    refine ⟨fun c n => ?_, fun i slot index n d w hw => ?_, fun i index params n d w hw => ?_⟩
    · cases c with
      | exec i slot index => exact .under (rests_exec hhost ih n i slot index)
      | dispatch callback i index params => exact .under (rests_dispatch hhost ih n callback i index params)
    · exact .under (passed_exec hhost ih i slot index n w hw)
    · exact .under (first_dispatch ih i index params n w hw)

/-! ## Every moment of a run -/

/-- An execute call of instance `i` goes through the detour of layer `k`: it has a frame of its own and is counted before
anything else happens. -/
def GoesThrough (host : Host σ) (k : SubsystemId) (depth : Nat) (i : InstanceId) (slot : Option Cell) (index : Cell)
    (d : Activity) (w : World σ) (fuel : Nat) : Prop :=
  ∃ w₀, openCall k i w = some ((), w₀) ∧ w₀.frames k i = .fresh :: w.frames k i ∧
    w₀.execDepth k = w.execDepth k + 1 ∧
    enter host (depth + 1) (.exec i slot index) d w fuel =
      inFrame host (enter host depth) k i slot index .machine w₀ fuel

/-- Where the hook is in its slot and its layer is not gone, every execute call of a public index goes through it. -/
theorem goesThrough_of_attached {host : Host σ} {w : World σ} {s : Subsystem} (h : Sound k w)
    (hs : w.subsystem? k = some s) (ha : s.hooks.exec.attached = true) (halive : w.isAlive k = true) {index : Cell}
    (hindex : ExecIndex.IsPublic index) (depth : Nat) (i : InstanceId) (slot : Option Cell) (d : Activity)
    (fuel : Nat) : GoesThrough host k depth i slot index d w fuel := by
  obtain ⟨u, w₀, hopen, -⟩ := answers_openCall (i := i) w (Option.isSome_iff_exists.2 ⟨s, hs⟩)
  refine ⟨w₀, hopen, frames_openCall hopen, (tells_openCall hopen).2, ?_⟩
  have hentry : w.entry .exec = .detour k .plain := by
    rw [h.entry_of_attached hs ha, if_pos halive]
  rw [enter_of_detour hentry, intercepted_public hindex, Run.bind_of_done (Run.act_of_some hopen .machine fuel)]

/-- Where scripts reach the host only through the natives that they call, no call that a native makes is missed. In every
run with one hook layer, whenever a native, a handler of callbacks or the thread system runs and the execute hook is
switched on, the hook is in its slot; and unless the layer is gone, every execute call of a public index goes through the
detour then, whatever the instance. -/
theorem reentry_intercepted {host : Host σ} (hhost : host.Uses .ofScript (.operations Operation.keepsLayers))
    {p : Program σ α} (hp : p.Uses (.operations Operation.keepsLayers)) {instances : Array Instance} {resumer : Resumer}
    {state : σ} {config : Config} {collaborators : Collaborators} {fuel : Nat} {d : Activity} {w : World σ}
    (hmoment : p.runIn host fuel (.single instances resumer state config collaborators) = .cut d w)
    (hd : d.reenters = true) {s : Subsystem} (hs : w.subsystem? ⟨0⟩ = some s)
    (hwanted : s.hooks.exec.wanted = true) :
    s.hooks.exec.attached = true ∧
      (w.isAlive ⟨0⟩ = true → ∀ {index}, ExecIndex.IsPublic index → ∀ depth i slot d' fuel',
        GoesThrough host ⟨0⟩ depth i slot index d' w fuel') := by
  have hruns : (p.run host (enter host fuel)).Rests ⟨0⟩ 0 :=
    Program.rests_run (fun c => (reattaches_enter hhost fuel).rests c 0) (fun _ h => h) hp
  have hstart : Resting ⟨0⟩ 0 (World.single instances resumer state config collaborators) :=
    ⟨sound_single .., settled_single instances resumer state config collaborators, rfl⟩
  obtain ⟨hsound, hsettled⟩ := (hruns .outside _ hstart).of_cut hmoment hd
  have hattached : s.hooks.exec.attached = true := (hsettled s hs).trans hwanted
  refine ⟨hattached, fun halive index hindex depth i slot d' fuel' => ?_⟩
  exact goesThrough_of_attached hsound hs hattached halive hindex depth i slot d' fuel'

/-- A script whose first function calls a native, and a native that executes the second. -/
def reentrantHost : Host Unit where
  script code i := if code = ⟨0⟩ then .call i 0 [] .done else .done (.ok 1)
  native _ i _ := .exec i none 1 fun r => .done (r.status.map fun _ => 1)
  callback _ _ _ _ := .done (.ok 0)
  callbackIds _ _ _ _ := none
  invoke _ _ _ _ := .done ⟨none, none⟩
  detach _ _ _ := .done ()
  register _ _ _ state := (.ok (), state)
  resume _ _ state := state

/-- Loads the script and the native, switches every hook on, and executes the first function. -/
def reentrantProgram : Program Unit ExecReply := do
  let i ← Program.perform (.newInstance 4)
  let _ ← Program.perform (.addFunction i "first" ⟨0⟩)
  let _ ← Program.perform (.addFunction i "second" ⟨1⟩)
  let _ ← Program.perform (.addNative i "native" ⟨0⟩)
  let _ ← Program.perform (.installAll ⟨0⟩)
  Program.executeInto i (some 0) 0

theorem reentry_intercepted_native :
    ∃ d w s, reentrantProgram.runIn reentrantHost 9 (.single #[] .drop () .standard ⟨.host, .unsupported, .host⟩) =
        .cut d w ∧ d.reenters = true ∧ w.subsystem? ⟨0⟩ = some s ∧ s.hooks.exec.attached = true ∧
      GoesThrough reentrantHost ⟨0⟩ 3 ⟨0⟩ none 1 d w 9 := by
  have hhost : reentrantHost.Uses .ofScript (.operations Operation.keepsLayers) := by
    refine ⟨fun code i => ?_, fun _ _ _ => ⟨trivial, fun _ => trivial⟩, fun _ _ _ _ => trivial, fun _ _ _ _ => trivial,
      fun _ _ _ => trivial⟩
    show Program.Uses _ (if code = ⟨0⟩ then _ else _)
    split
    · exact ⟨rfl, fun _ => trivial⟩
    · trivial
  have hprogram : reentrantProgram.Uses (.operations Operation.keepsLayers) :=
    ⟨trivial, fun _ => ⟨trivial, fun _ => ⟨trivial, fun _ => ⟨trivial, fun _ => ⟨trivial, fun _ =>
      ⟨trivial, fun _ => trivial⟩⟩⟩⟩⟩⟩
  have hindex : ExecIndex.IsPublic 1 := fun id h => nomatch h
  have hreached : (reentrantProgram.runIn reentrantHost 9
      (.single #[] .drop () .standard ⟨.host, .unsupported, .host⟩)).cut?.any (fun m => m.1.reenters &&
        m.2.isAlive ⟨0⟩ && (m.2.subsystem? ⟨0⟩).any fun s => s.hooks.exec.wanted) = true := by decide +kernel
  obtain ⟨d, w, hmoment, hthere⟩ := Outcome.exists_cut hreached
  obtain ⟨hthere, hlayer⟩ := Bool.and_eq_true_iff.1 hthere
  obtain ⟨hreenters, halive⟩ := Bool.and_eq_true_iff.1 hthere
  obtain ⟨s, hs, hwanted⟩ := (Option.any_eq_true _ _).1 hlayer
  obtain ⟨hattached, hthrough⟩ := reentry_intercepted hhost hprogram hmoment hreenters hs hwanted
  exact ⟨d, w, s, hmoment, hreenters, hs, hattached, hthrough halive hindex 3 ⟨0⟩ none d 9⟩

end Machine

end Interpose

import Interpose.Proofs.Reentry
import Interpose.Proofs.StackedOperations

/-!
# Runs with stacked hook layers

While a call is being passed on, the hooks of some layers are out of the slot. But then only a script runs, and as soon as
it calls a native, the call goes through all the layers that have passed the call on, in turn, and each of them puts its
hook back. So whenever code runs that may execute anything, all hooks are in place and no callback is taken; and so it is
when a call is over, whether the script called natives or not.

A run of the machine is followed from worlds in which everything is in place (`World.AtRest`), and from worlds in which
some layers are passing a call on (`World.Descended`). An execute call that begins in one of the latter is over in that
state again, or at rest; a native call through the callback of the layer is over at rest.

Main statement: `Machine.climbs_enter`.
-/

namespace Interpose

open World

variable {σ α β : Type} {n m : Nat} {i : InstanceId} {own own' : InstanceId → Option Callback} {w w' : World σ}

/-- Code other than that of scripts: it may execute anything. -/
def Activity.mayExecute : Activity → Bool
  | .script _ _ | .machine => false
  | _ => true

namespace World

/-- What is asked of every moment: all hooks are in place and no callback is taken if code runs that may execute
anything. -/
def Ready (n : Nat) (own : InstanceId → Option Callback) (d : Activity) (w : World σ) : Prop :=
  d.mayExecute = true → AtRest n own w

/-- A call was passed on by the layers from the `m`-th on, of `n`; they are still passing it on, unless its instance has
called a native since. -/
def Passed (n m : Nat) (i : InstanceId) (own : InstanceId → Option Callback) (w : World σ) : Prop :=
  Descended n m i own w ∨ AtRest n own w

theorem AtRest.ready (h : AtRest n own w) (d : Activity) : Ready n own d w :=
  fun _ => h

theorem Ready.forget {d : Activity} (h : Ready n own' d w) (hown : ∀ j c, own j = some c → own' j = some c) :
    Ready n own d w :=
  fun hd => (h hd).forget hown

/-- What changes neither hooks nor callbacks nor frames does not matter. -/
theorem Passed.of_stands (h : Passed n m i own w) (hs : Stands w w')
    (hframes : ∀ l, w'.frames ⟨l⟩ i = w.frames ⟨l⟩ i) : Passed n m i own w' :=
  h.imp (fun h => h.of_stands hs fun l _ _ => hframes l) fun h => h.of_stands hs

theorem Passed.perform {o : Operation} {ids : CallbackIds σ} {resume : Resume σ} {r : o.Reply} (h : Passed n m i own w)
    (ho : o.isQuiet = true) (he : o.perform ids resume w = some (r, w')) : Passed n m i own w' :=
  h.of_stands (Operation.stands_perform ids resume (Operation.leavesHooks_of_isQuiet ho) he) fun _ =>
    (Operation.quiet_perform ids resume ho he).framesStill.frames i

end World

/-! ## Runs from rest -/

/-- From a world at rest, a run gets to such a world, and every moment of it is as asked. -/
def Run.KeepsUp (n : Nat) (r : Run σ α) : Prop :=
  ∀ own d w, AtRest n own w → r.Ensures d w (Ready n own) fun _ => AtRest n own

namespace Run.KeepsUp

theorem pure (a : α) : KeepsUp n (pure a : Run σ α) :=
  fun _ _ _ h => .pure h

theorem bind {r : Run σ α} {next : α → Run σ β} (h : r.KeepsUp n) (hn : ∀ a, (next a).KeepsUp n) :
    KeepsUp n (r >>= next) :=
  fun own d w hw => .bind ((h own d w hw).mono_post fun a v hv => hn a own d v hv)

theorem act {x : Act σ α} (h : x.Keeps Stands) : (Run.act x).KeepsUp n :=
  fun _ d _ hw => .act (fun _ _ hx => hw.of_stands (h hx)) fun _ => hw.ready d

theorem under {activity : Activity} {r : Run σ α} (h : r.KeepsUp n) : (Run.under activity r).KeepsUp n :=
  fun own _ w hw => .under (h own activity w hw)

theorem stop : (Run.stop : Run σ α).KeepsUp n :=
  fun _ d _ hw => .stop (hw.ready d)

theorem within {activity : Activity} {r : Run σ α} (h : r.KeepsUp n) : (Run.within activity r).KeepsUp n :=
  fun own _ w hw => .within (hw.ready activity) (h own activity w hw)

end Run.KeepsUp

namespace Machine

/-- What is known of calls: an execute call that is being passed on gets to its end in the same state or at rest, and the
first native call of its instance to a world at rest; all other calls keep to worlds at rest. -/
structure Climbs (n : Nat) (calls : Calls σ) : Prop where
  exec : ∀ m ≤ n, ∀ i slot index own d w, Descended n m i own w →
    (calls (.exec i slot index)).Ensures d w (Ready n own) fun _ => Passed n m i own
  first : ∀ m < n, ∀ i index params own d w, Descended n m i own w →
    (calls (.dispatch (.intercept ⟨m⟩) i index params)).Ensures d w (Ready n own) fun _ => AtRest n own
  dispatch : ∀ callback, (∀ k, callback ≠ .intercept k) → ∀ i index params,
    (calls (.dispatch callback i index params)).KeepsUp n

theorem Climbs.rests {calls : Calls σ} (h : Climbs n calls) (i : InstanceId) (slot : Option Cell) (index : Cell) :
    (calls (.exec i slot index)).KeepsUp n := by
  intro own d w hw
  have hexec := h.exec n (Nat.le_refl n) i slot index own d w (hw.descended i)
  exact hexec.mono_post fun r w' hw' => hw'.elim (fun h => h.atRest) fun h => h

end Machine

/-- The callback of an instance in a world at rest is no layer's. -/
theorem World.AtRest.proper (h : AtRest n own w) {a : Instance} (ha : w.instance? i = some a) (k : SubsystemId) :
    a.callback ≠ .intercept k := by
  intro hk
  have hcallback : w.callback? i = some (.intercept k) := by
    rw [World.callback?, ha, ← hk]
    rfl
  exact Nat.lt_irrefl n ((h.diverted i).proper i k hcallback).2

/-- Code that leaves hooks and callbacks alone keeps to worlds at rest. -/
theorem Program.keepsUp_run {host : Host σ} {calls : Calls σ} {allowed : Program.Allowed σ}
    (hcalls : Machine.Climbs n calls) (hallowed : ∀ o, allowed.act o → o.leavesHooks = true) {p : Program σ α}
    (hp : p.Uses allowed) : (p.run host calls).KeepsUp n := by
  intro own d w hw
  refine Program.ensures_run (Ready n own) (AtRest n own) ?_ ?_ ?_ ?_ ?_ hp hw
  · exact fun v hv => hv.ready d
  · exact fun v change hv => hv.of_stands (.of_eq rfl rfl rfl)
  · exact fun o ho v r v' he hv => hv.of_stands (Operation.stands_perform _ _ (hallowed o ho) he)
  · exact fun j slot index _ v hv => hcalls.rests j slot index own d v hv
  · exact fun j index params _ v a ha hv => hcalls.dispatch a.callback (hv.proper ha) j index params own d v hv

namespace Machine

section

variable {host : Host σ} {calls : Calls σ}
  (hhost : host.Uses .ofScript (.operations fun o => o.leavesHooks = true)) (hcalls : Climbs n calls)
include hhost hcalls

/-- Keeping to worlds at rest is a discipline. -/
theorem disciplineOfStanding : Discipline host calls Stands fun _ r => Run.KeepsUp n r where
  mild := Act.mild_stands
  handsOver w e _ := .record w e
  await := Act.stands_requestAwait
  detachRequest := Act.stands_requestDetach
  pure := .pure
  bind := .bind
  act := .act
  within := .within
  script code i := Program.keepsUp_run hcalls (fun _ => Operation.leavesHooks_of_isQuiet) (hhost.script code i)
  native code i params := Program.keepsUp_run hcalls (fun _ h => h) (hhost.native code i params)
  callback code i index params := Program.keepsUp_run hcalls (fun _ h => h) (hhost.callback code i index params)
  handler l id i slot := Program.keepsUp_run hcalls (fun _ h => h) (hhost.invoke l id i slot)
  detach l i marker := Program.keepsUp_run hcalls (fun _ h => h) (hhost.detach l i marker)

/-! ## The way down -/

omit hhost hcalls in
/-- What a run makes of a call that is being passed on, it makes of it while a layer is kept going. -/
theorem descended_holding {r : Run σ α} {m' : Nat} {k : SubsystemId}
    (hr : ∀ w, Descended n m i own w → r.Ensures .machine w (Ready n own) fun _ => Passed n m' i own) (w : World σ)
    (hw : Descended n m i own w) : (holding k r).Ensures .machine w (Ready n own) fun _ => Passed n m' i own := by
  have hstands : ∀ (f : Nat → Nat), (Act.onSubsystem k fun s => ((), { s with holds := f s.holds }) : Act σ Unit).Keeps
      Stands := fun f => Act.stands_onSubsystem (fun _ => rfl) fun _ => rfl
  have hframes : ∀ (f : Nat → Nat) l, (Act.onSubsystem k fun s => ((), { s with holds := f s.holds }) : Act σ Unit).Keeps
      (FramesStill l) := fun f l => Act.still_onSubsystem (fun _ => rfl) fun _ => rfl
  refine .bind (.act (fun u w₁ h₁ => ?_) fun _ => nofun)
  have hw₁ := hw.of_stands (hstands (· + 1) h₁) fun l _ _ => (hframes (· + 1) ⟨l⟩ h₁).frames i
  refine .bind ((hr w₁ hw₁).mono_post fun a w₂ hw₂ => ?_)
  refine .bind (.act (fun u w₃ h₃ => .pure ?_) fun _ => nofun)
  exact hw₂.of_stands (hstands (· - 1) h₃) fun l => (hframes (· - 1) ⟨l⟩ h₃).frames i

omit hhost in
/-- A layer passes a call on to the one below. When it is back, the frame of the call is as it was, unless a native was
called. -/
theorem descended_passOn (hm : m < n) (slot : Option Cell) (index : Cell) (hw : Descended n (m + 1) i own w)
    (hfresh : ∃ f fs, w.frames ⟨m⟩ i = f :: fs ∧ f.reason = .none) :
    (passOn calls ⟨m⟩ i slot index).Ensures .machine w (Ready n own) fun _ w' =>
      (Descended n (m + 1) i own w' ∧ ∃ f fs, w'.frames ⟨m⟩ i = f :: fs ∧ f.reason = .none) ∨ AtRest n own w' := by
  obtain ⟨s, hs, hattached⟩ := hw.stacked.attached hm (Nat.lt_succ_self m)
  have hget : Act.getSubsystem ⟨m⟩ w = some (s, w) := congrArg (Option.map _) hs
  refine .bind (.act_eq hget ?_)
  rw [if_pos hattached]
  -- on the way down the callback is taken and the hook leaves the slot; what is learnt of callbacks is forgotten later
  refine .bind (.act (fun u w₁ h₁ => ?_) fun _ => nofun)
  refine .bind (.act (fun took w₂ h₂ => ?_) fun _ => nofun)
  obtain ⟨htook, own', hown, hw₂⟩ := hw.down hm hfresh h₁ h₂
  subst htook
  have hcall := hcalls.exec m (Nat.le_of_lt hm) i slot index own' .machine w₂ hw₂
  refine .bind (hcall.mono (fun _ _ hr => hr.forget hown) fun r w₃ hw₃ => ?_)
  -- on the way up both are put back
  refine .bind (.act (fun u w₄ h₄ => ?_) fun _ => nofun)
  refine .bind (.act (fun restored w₅ h₅ => .pure ?_) fun _ => nofun)
  rcases hw₃ with hw₃ | hw₃
  · -- no native was called, so the layer undoes what it did
    have hw₅ := hw₃.up hm h₄ h₅
    refine .inl ⟨⟨hw₅.stacked, hw₅.diverted.forget hown fun hlt => ?_⟩, ?_⟩
    · obtain ⟨c, hc, -⟩ := hw.diverted.known hlt
      rw [hc]
      rfl
    · rw [(Act.still_restoreCallback ⟨m⟩ i h₅).frames, (Act.still_onMount ⟨m⟩ .exec _ h₄).frames]
      exact hw₃.diverted.fresh m (Nat.le_refl m) hm
  · -- a native was called, and then this layer did so long ago
    exact .inr ((hw₃.up hm h₄ h₅).forget hown)

/-- What a layer makes of the answer: where no native was called, nobody asked for a suspension. -/
theorem descended_settle (hm : m < n) (r : ExecReply)
    (hw : (Descended n (m + 1) i own w ∧ ∃ f fs, w.frames ⟨m⟩ i = f :: fs ∧ f.reason = .none) ∨ AtRest n own w) :
    (settle host calls ⟨m⟩ i r).Ensures .machine w (Ready n own) fun _ => Passed n (m + 1) i own := by
  rcases hw with ⟨hw, f, fs, hf, hreason⟩ | hw
  · unfold settle
    split
    · -- the call is suspended, but its frame tells of no request, so it is rejected
      obtain ⟨s, hs, -⟩ := hw.stacked.layer hm
      have htop : s.contexts.top? i = some f := by
        rw [frames_of_subsystem? hs] at hf
        rw [Contexts.top?, hf]
        rfl
      have hget : Act.getSubsystem ⟨m⟩ w = some (s, w) := congrArg (Option.map _) hs
      refine .bind (.act_eq hget ?_)
      rw [htop]
      dsimp only
      unfold route
      rw [hreason]
      refine .act (fun reply w' h => ?_) fun _ => nofun
      have hquiet : Quiet w w' := keeps_reject Act.mild_quiet i rfl r.slot h
      have hstands : Stands w w' := keeps_reject Act.mild_stands i rfl r.slot h
      exact Passed.of_stands (.inl hw) hstands fun l => hquiet.framesStill.frames i
    · exact .pure (.inl hw)
  · have hsettle := (disciplineOfStanding hhost hcalls).settle ⟨m⟩ i r own .machine w hw
    exact hsettle.mono_post fun _ _ h => .inr h

theorem descended_framed (hm : m < n) (slot : Option Cell) (index : Cell) (w : World σ)
    (hw : Descended n (m + 1) i own w) :
    (framed host calls ⟨m⟩ i slot index).Ensures .machine w (Ready n own) fun _ => Passed n (m + 1) i own := by
  -- the layers that passed the call on before keep the frames that they have for it
  have hne : ∀ l, m + 1 ≤ l → ¬((⟨m⟩ : SubsystemId) = ⟨l⟩ ∧ i = i) := fun l hl h => by
    have : m = l := congrArg SubsystemId.index h.1
    omega
  -- the frame is opened, the call passed on, its answer settled, and the frame closed
  refine .bind (.act (fun u w₁ h₁ => ?_) fun _ => nofun)
  have hw₁ := hw.of_stands (keeps_openFrame Act.framing_stands ⟨m⟩ i h₁) fun l hl _ =>
    (frames_openFrame h₁ ⟨l⟩ i).trans (if_neg (hne l hl))
  have hfresh : w₁.frames ⟨m⟩ i = .fresh :: w.frames ⟨m⟩ i := (frames_openFrame h₁ ⟨m⟩ i).trans (if_pos ⟨rfl, rfl⟩)
  have hpassed := descended_passOn hcalls hm slot index hw₁ ⟨.fresh, _, hfresh, rfl⟩
  refine .bind (hpassed.mono_post fun r w₂ hw₂ => ?_)
  refine .bind ((descended_settle hhost hcalls hm r hw₂).mono_post fun r w₃ hw₃ => ?_)
  refine .bind (.act (fun u w₄ h₄ => .pure ?_) fun _ => nofun)
  have hstands : Stands w₃ w₄ := keeps_closeFrame Act.framing_stands ⟨m⟩ i h₄
  refine hw₃.imp (fun h => h.of_stands hstands fun l hl _ => ?_) fun h => h.of_stands hstands
  exact (frames_closeFrame h₄ ⟨l⟩ i).trans (if_neg (hne l hl))

/-- A layer that answers no callbacks takes an index of one for done, and passes every other index on. -/
theorem descended_intercepted (hm : m < n) (slot : Option Cell) (index : Cell) (hw : Descended n (m + 1) i own w) :
    (intercepted host calls ⟨m⟩ i slot index).Ensures .machine w (Ready n own) fun _ => Passed n (m + 1) i own := by
  refine descended_holding (fun w hw => ?_) w hw
  split
  · -- the handler of a layer without an event source names no function
    obtain ⟨s, hs, hstation⟩ := hw.stacked.layer hm
    have hevents : s.collaborators.events = .unsupported := congrArg Station.events hstation
    have hget : Act.getSubsystem ⟨m⟩ w = some (s, w) := congrArg (Option.map _) hs
    refine .bind (.bind (.act_eq hget (.bind (.act_eq rfl ?_))))
    rw [hevents]
    exact .pure (.pure (.inl (hw.of_stands (.record w _) fun _ _ _ => rfl)))
  · exact descended_framed hhost hcalls hm slot index w hw

omit hhost in
/-- A native call of the instance whose call all layers are passing on: it goes through the first of them, unless
everything is at rest already. -/
theorem passed_call {a : Instance} (hw : Passed n 0 i own w) (ha : w.instance? i = some a) (index : Cell)
    (params : List Cell) (d : Activity) :
    (calls (.dispatch a.callback i index params)).Ensures d w (Ready n own) fun _ => AtRest n own := by
  have hrest : AtRest n own w → (calls (.dispatch a.callback i index params)).Ensures d w (Ready n own) fun _ =>
      AtRest n own := fun hw => hcalls.dispatch a.callback (hw.proper ha) i index params own d w hw
  rcases hw with hw | hw
  · by_cases hn : 0 < n
    · -- the instance has the callback of the first layer
      obtain ⟨c, hc, -⟩ := hw.diverted.known hn
      have hcallback : some a.callback = some (.intercept ⟨0⟩) := by
        have := hw.diverted.callbacks i c hc
        rwa [if_pos rfl, Callback.divert_of_lt hn, World.callback?, ha] at this
      rw [Option.some.inj hcallback]
      exact hcalls.first 0 hn i index params own d w hw
    · obtain rfl : n = 0 := Nat.eq_zero_of_not_pos hn
      exact hrest hw.atRest
  · exact hrest hw

/-- Under all layers a call reaches the machine's own entry, and its script runs until it calls a native; from then on
everything is at rest. -/
theorem descended_plainExec (slot : Option Cell) (index : Cell) (hw : Descended n 0 i own w) :
    (plainExec host calls i slot index).Ensures .machine w (Ready n own) fun _ => Passed n 0 i own := by
  have hraise : ∀ s slot v, Passed n 0 i own v → Run.Ensures (do
      let s ← Run.act (Act.raise i s)
      pure (.failure s slot) : Run σ ExecReply) .machine v (Ready n own) fun _ => Passed n 0 i own := by
    refine fun s slot v hv => .bind (.act (fun s' v' h => .pure ?_) fun _ => nofun)
    exact hv.of_stands (Act.mild_stands.raise i s h) fun l => (Act.quiet_raise i s h).framesStill.frames i
  refine .bind (.act (fun a v h => ?_) fun _ => nofun)
  obtain ⟨b, -, eq⟩ := Option.map_eq_some_iff.1 h
  cases eq
  cases scriptOf a index with
  | none => exact hraise _ _ _ (.inl hw)
  | some code =>
    have hscript : ((host.script code i).run host calls).Ensures (.script i code) w (Ready n own)
        fun _ => Passed n 0 i own := by
      refine Program.ensures_run (Ready n own) (Passed n 0 i own) ?_ ?_ ?_ ?_ ?_ (hhost.script code i) (.inl hw)
      · exact fun _ _ => nofun
      · exact fun v change hv => hv.of_stands (.of_eq rfl rfl rfl) fun _ => rfl
      · exact fun o ho v r v' he hv => hv.perform ho he
      · exact fun _ _ _ h => h.elim
      · -- the script calls through the callback of its own instance
        rintro j index params rfl v a ha hv
        exact (passed_call hcalls hv ha index params _).mono_post fun _ _ h => .inr h
    refine .bind ((Run.Ensures.within nofun hscript).mono_post fun r v hv => ?_)
    cases r with
    | ok value => exact .pure hv
    | error s => exact hraise _ _ _ hv

theorem descended_exec (hm : m ≤ n) (slot : Option Cell) (index : Cell) (hw : Descended n m i own w) :
    (exec host calls i slot index).Ensures .machine w (Ready n own) fun _ => Passed n m i own := by
  refine .bind (.world ?_)
  rw [hw.stacked.entry hm]
  cases m with
  | zero => exact descended_plainExec hhost hcalls slot index hw
  | succ m => exact descended_intercepted hhost hcalls hm slot index hw

/-! ## The way up -/

omit hhost in
/-- A native call through the callback of a layer: the layer puts its hook back, and the call goes on to the layer that
passed the execute call to it, or, if it is the last of all, to the callback of the instance. -/
theorem atRest_forwardNative (hm : m < n) (index : Cell) (params : List Cell) (hw : Descended n m i own w) :
    (dispatch host calls (.intercept ⟨m⟩) i index params).Ensures .machine w (Ready n own) fun _ => AtRest n own := by
  refine .bind (.world ?_)
  rw [hw.stacked.isAlive hm, if_pos rfl]
  unfold forwardNative
  refine (descended_holding (fun w hw => ?_) w hw).mono_post fun _ _ h => h.elim (fun h => h.atRest) fun h => h
  refine .bind (.act (fun kept w₁ h₁ => ?_) fun _ => nofun)
  obtain ⟨c, hc, hkept, hback⟩ := hw.forward hm h₁
  subst hkept
  refine .bind (.act (fun u w₂ h₂ => ?_) fun _ => nofun)
  refine .bind (.act (fun u w₃ h₃ => ?_) fun _ => nofun)
  have hw₃ := hback w₂ w₃ h₂ h₃
  -- what the layer kept is the callback of the next one, or the instance's own
  by_cases hlt : m + 1 < n
  · rw [Callback.divert_of_lt hlt]
    exact (hcalls.first (m + 1) hlt i index params own _ w₃ hw₃).mono_post fun _ _ h => .inr h
  · obtain rfl : m + 1 = n := by omega
    obtain ⟨d, hd, hproper⟩ := hw.diverted.known hm
    obtain rfl : d = c := Option.some.inj (hd.symm.trans hc)
    rw [Callback.divert_self]
    exact (hcalls.dispatch d hproper i index params own _ w₃ hw₃.atRest).mono_post fun _ _ h => .inr h

theorem keepsUp_dispatch {callback : Callback} (hproper : ∀ k, callback ≠ .intercept k) (i : InstanceId) (index : Cell)
    (params : List Cell) : (dispatch host calls callback i index params).KeepsUp n := by
  have D := disciplineOfStanding hhost hcalls
  cases callback with
  | standard => exact D.plainDispatch i index params
  | host code => exact .within (D.callback code i index params)
  | intercept k => exact absurd rfl (hproper k)

end

/-- However deep calls nest, each brings what it found in place back into place. -/
theorem climbs_enter {host : Host σ} (hhost : host.Uses .ofScript (.operations fun o => o.leavesHooks = true))
    (depth : Nat) : Climbs n (enter host depth) := by
  -- what is known of the calls one level deeper makes it known of these
  induction depth with
  | zero =>
    exact ⟨fun _ _ _ _ _ _ _ _ _ => .under (.stop nofun), fun _ _ _ _ _ _ _ _ _ => .under (.stop nofun),
      fun _ _ _ _ _ => .under .stop⟩
  | succ depth ih =>
    refine ⟨fun m hm i slot index own d w hw => ?_, fun m hm i index params own d w hw => ?_,
      fun callback hproper i index params => ?_⟩
    · exact .under (descended_exec hhost ih hm slot index hw)
    · exact .under (atRest_forwardNative ih hm index params hw)
    · exact .under (keepsUp_dispatch hhost ih hproper i index params)

end Machine

end Interpose

import Interpose.Proofs.HookRuns

/-!
# The execute hook throughout a run

A hook is moved in and out of its slot by calls that are passed on, by natives that are called meanwhile, and by the host
whenever it likes. Whether it is where it should be depends on what code may do. But it always says truly whether it is
in its slot: this needs no assumption on code, other than that it makes no second hook layer.

Main statements: `Machine.guardsHook_enter` for calls, and `Machine.sound_runIn` for the moments of a run.
-/

namespace Interpose

open World

variable {σ α β : Type} {k : SubsystemId}

/-- From a world in which the execute hook is sound, every moment of a run has it sound. -/
def Run.GuardsHook (k : SubsystemId) (r : Run σ α) : Prop :=
  ∀ d w, Sound k w → r.Ensures d w (fun _ => Sound k) fun _ => Sound k

namespace Run.GuardsHook

theorem pure (a : α) : GuardsHook k (pure a : Run σ α) :=
  fun _ _ h => .pure h

theorem bind {r : Run σ α} {next : α → Run σ β} (h : r.GuardsHook k) (hn : ∀ a, (next a).GuardsHook k) :
    GuardsHook k (r >>= next) :=
  fun d w hw => .bind ((h d w hw).mono_post fun a v hv => hn a d v hv)

theorem act {x : Act σ α} (h : x.Keeps (HookKept k)) : (Run.act x).GuardsHook k :=
  fun _ _ hw => .act (fun _ _ hx => (h hx).sound hw) fun _ => hw

theorem under {activity : Activity} {r : Run σ α} (h : r.GuardsHook k) : (Run.under activity r).GuardsHook k :=
  fun _ w hw => .under (h activity w hw)

theorem stop : (Run.stop : Run σ α).GuardsHook k :=
  fun _ _ hw => .stop hw

theorem within {activity : Activity} {r : Run σ α} (h : r.GuardsHook k) : (Run.within activity r).GuardsHook k :=
  fun _ w hw => .within hw (h activity w hw)

end Run.GuardsHook

/-- Code that makes no hook layer keeps the execute hook sound, if its calls do. -/
theorem Program.guardsHook_run {host : Host σ} {calls : Calls σ} (hcalls : ∀ c, (calls c).GuardsHook k)
    {p : Program σ α} (hp : p.Uses (.operations Operation.keepsLayers)) : (p.run host calls).GuardsHook k := by
  intro d w hw
  refine Program.ensures_run (fun _ => Sound k) (Sound k) (fun _ h => h) ?_ ?_ ?_ ?_ hp hw
  · exact fun v change hv => (Quiet.withHost v _).hookKept.sound hv
  · exact fun o ho v r v' he hv => (Operation.hookKept_perform _ _ ho he).sound hv
  · exact fun i slot index _ v hv => hcalls _ d v hv
  · exact fun i index params _ v a _ hv => hcalls _ d v hv

namespace Machine

section

variable {host : Host σ} (hhost : host.UsesOnly (.operations Operation.keepsLayers)) {calls : Calls σ}
  (hcalls : ∀ c, (calls c).GuardsHook k)

section

include hhost hcalls

/-- Keeping the execute hook sound is a discipline. -/
theorem disciplineOfHook : Discipline host calls (HookKept k) fun _ r => Run.GuardsHook k r where
  mild := .of_quiet (Act.track_hookKept k) Quiet.hookKept
  handsOver _ e _ := Act.hookKept_record e rfl
  await := (Act.counting_hookKept k).requestAwait
  detachRequest := (Act.counting_hookKept k).requestDetach
  pure := .pure
  bind := .bind
  act := .act
  within := .within
  script code i := Program.guardsHook_run hcalls (hhost.script code i)
  native code i params := Program.guardsHook_run hcalls (hhost.native code i params)
  callback code i index params := Program.guardsHook_run hcalls (hhost.callback code i index params)
  handler l id i slot := Program.guardsHook_run hcalls (hhost.invoke l id i slot)
  detach l i marker := Program.guardsHook_run hcalls (hhost.detach l i marker)

end

theorem guardsHook_holding {r : Run σ α} (h : r.GuardsHook k) : (holding k r).GuardsHook k := by
  intro d w hw
  refine ensures_holding hw fun w₁ h₁ => ?_
  refine (h d w₁ (hw.of_same h₁.slot h₁.hooks)).mono_post fun a w₂ hw₂ => ⟨hw₂, fun w₃ h₃ => ?_⟩
  exact hw₂.of_same h₃.slot h₃.hooks

section

include hcalls

theorem guardsHook_passOn (i : InstanceId) (slot : Option Cell) (index : Cell) :
    (passOn calls k i slot index).GuardsHook k := by
  intro d w hw
  refine ensures_passOn hw hw (hcalls _ d w hw) (fun w₁ w₂ _ _ hw₂ _ => ?_) fun w₁ h₁ =>
    (Act.hookKept_swapCallback k i _ h₁).sound hw
  refine (hcalls _ d w₂ hw₂).mono_post fun r w₃ hw₃ => ⟨hw₃, fun w₄ _ hw₄ _ => ⟨hw₄, ?_⟩⟩
  exact fun restored w₅ h₅ => (Act.hookKept_restoreCallback k i h₅).sound hw₄

theorem guardsHook_forwardNative (i : InstanceId) (index : Cell) (params : List Cell) :
    (forwardNative calls k i index params).GuardsHook k := by
  refine guardsHook_holding (.bind (.act (Act.hookKept_takeCallback k i)) fun kept => ?_)
  cases kept with
  | some callback =>
    refine .bind (.act (Act.hookKept_reattachExec k)) fun _ => ?_
    exact .bind (.act (Act.hookKept_onInstance i _)) fun _ => hcalls _
  | none =>
    refine .bind (.act (Act.hookKept_record _)) fun _ => ?_
    exact .bind (.act (Act.quiet_raise i _).hookKept) fun _ => .pure _

include hhost

theorem guardsHook_exec (i : InstanceId) (slot : Option Cell) (index : Cell) :
    (exec host calls i slot index).GuardsHook k := by
  have D := disciplineOfHook hhost hcalls
  have hintercepted : (intercepted host calls k i slot index).GuardsHook k :=
    D.intercepted k i slot index guardsHook_holding fun slot index =>
      D.framed (keeps_openFrame (Act.counting_hookKept k).framing k i)
        (keeps_closeFrame (Act.counting_hookKept k).framing k i)
        (guardsHook_passOn hcalls i slot index)
  exact fun d w hw => ensures_exec hw (D.plainExec i slot index d w hw) (hintercepted d w hw)

theorem guardsHook_dispatch (callback : Callback) (i : InstanceId) (index : Cell) (params : List Cell) :
    (dispatch host calls callback i index params).GuardsHook k := by
  have D := disciplineOfHook hhost hcalls
  cases callback with
  | standard => exact D.plainDispatch i index params
  | host code => exact .within (D.callback code i index params)
  | intercept l =>
    intro d w hw
    refine .bind (.world ?_)
    by_cases hl : l = k
    · subst hl
      split
      · exact guardsHook_forwardNative hcalls i index params d w hw
      · exact D.raise i _ _ d w hw
    · -- no other layer is there to forward the call
      rw [hw.not_isAlive hl]
      exact D.raise i _ _ d w hw

end

include hhost

theorem guardsHook_enter (depth : Nat) (c : Call) : (enter host depth c).GuardsHook k := by
  induction depth generalizing c with
  | zero => exact .under .stop
  | succ depth ih =>
    cases c with
    | exec i slot index => exact .under (guardsHook_exec hhost ih i slot index)
    | dispatch callback i index params => exact .under (guardsHook_dispatch hhost ih callback i index params)

/-- At every moment of a run with one hook layer its execute hook is sound. -/
theorem sound_runIn {p : Program σ α} (hp : p.Uses (.operations Operation.keepsLayers)) (instances : Array Instance)
    (resumer : Resumer) (state : σ) (config : Config) (collaborators : Collaborators) (fuel : Nat) :
    Sound ⟨0⟩ (p.runIn host fuel (.single instances resumer state config collaborators)).world := by
  have hguards : (p.run host (enter host fuel)).GuardsHook ⟨0⟩ :=
    Program.guardsHook_run (guardsHook_enter hhost fuel) hp
  have hmeets := hguards .outside _ (sound_single instances resumer state config collaborators) fuel
  unfold Program.runIn
  cases hrun : p.run host (enter host fuel) .outside (.single instances resumer state config collaborators) fuel with
  | done a w left =>
    rw [hrun] at hmeets
    exact hmeets
  | cut d w =>
    rw [hrun] at hmeets
    exact hmeets

end

end Machine

end Interpose

import Interpose.Proofs.HookRuns
import Interpose.Proofs.PoolMoments
import Interpose.Proofs.SteadyRuns

/-!
# The hooks of memory and the pool

Where there is one hook layer, its hooks other than the execute hook are out of their slots only while an operation passes
a call on, and no code runs then. So between operations such a hook is in its slot exactly if it is switched on. And
whatever happens, the pool of the layer goes on from the operations that it follows.

A world is `Tended` if this is so, but for the hooks that are `out` because of calls that are just being passed on.

Main statements: `steady_tends`, that tending is steady; and `Machine.tended_runIn`, that the world at every moment of a run
is tended.
-/

namespace Interpose

open World

variable {σ α : Type} {k : SubsystemId} {out out' : Export → Prop} {actions : List Pool.Action}

/-! ## Hooks in their slots -/

/-- The hooks of a layer other than the execute hook are sound, and settled unless they are out. -/
def PerExport.Hooked (k : SubsystemId) (out : Export → Prop) (hooks : PerExport Hook) (slots : PerExport Entry) : Prop :=
  ∀ x, x ≠ .exec → Mount.Sound k ⟨hooks.get x, slots.get x⟩ ∧ (¬ out x → Mount.Settled ⟨hooks.get x, slots.get x⟩)

namespace PerExport.Hooked

variable {hooks : PerExport Hook} {slots : PerExport Entry}

/-- Working on one hook leaves the others as they are. -/
theorem set (h : Hooked k out hooks slots) {x : Export} {m : Mount} (hsound : m.Sound k) (hsettled : ¬ out' x → m.Settled)
    (hothers : ∀ y, y ≠ x → out y → out' y) : Hooked k out' (hooks.set m.hook x) (slots.set m.slot x) := by
  intro y hy
  rw [get_set, get_set]
  -- the hook that was worked on, or one of the others
  by_cases hyx : y = x
  · subst hyx
    rw [if_pos rfl, if_pos rfl]
    exact ⟨hsound, hsettled⟩
  · rw [if_neg hyx, if_neg hyx]
    exact ⟨(h y hy).1, fun hout => (h y hy).2 fun hold => hout (hothers y hyx hold)⟩

theorem set_exec (h : Hooked k out hooks slots) (hook : Hook) (slot : Entry) :
    Hooked k out (hooks.set hook .exec) (slots.set slot .exec) := by
  intro y hy
  rw [get_set, get_set, if_neg hy, if_neg hy]
  exact h y hy

end PerExport.Hooked

/-! ## Tended worlds -/

namespace World

/-- There is one hook layer; its hooks other than the execute hook are in their slots if they are switched on, but for
those that are out; and its pool follows some operations. -/
structure Tended (k : SubsystemId) (out : Export → Prop) (actions : List Pool.Action) (w : World σ) : Prop where
  alone : ∀ l, l ≠ k → w.subsystem? l = none
  layer : ∃ s, w.subsystem? k = some s ∧ s.hooks.Hooked k out w.exports ∧ s.pool.Follows actions

/-- What was tended is tended, and its pool follows more operations. -/
def Tends (k : SubsystemId) (w w' : World σ) : Prop :=
  ∀ out actions, Tended k out actions w → ∃ later, Tended k out (actions ++ later) w'

namespace Tended

variable {w w' : World σ}

/-- The layer that there is, is the only one. -/
theorem eq_of_subsystem? (h : Tended k out actions w) {l : SubsystemId} {s : Subsystem} (hs : w.subsystem? l = some s) :
    l = k := by
  by_contra hl
  rw [h.alone l hl] at hs
  cases hs

theorem of_subsystem? (h : Tended k out actions w) {s : Subsystem} (hs : w.subsystem? k = some s) :
    s.hooks.Hooked k out w.exports ∧ s.pool.Follows actions := by
  obtain ⟨t, ht, hkept⟩ := h.layer
  rw [hs] at ht
  cases ht
  exact hkept

/-- A change of the layer that keeps what is asked of it. -/
theorem setSubsystem (h : Tended k out actions w) {l : SubsystemId} {s t : Subsystem} (hs : w.subsystem? l = some s)
    (ht : s.hooks.Hooked k out w.exports → t.hooks.Hooked k out w.exports) {later : List Pool.Action}
    (hpool : t.pool.Follows (actions ++ later)) : Tended k out (actions ++ later) (w.setSubsystem l t) := by
  obtain rfl := h.eq_of_subsystem? hs
  refine ⟨fun m hm => ?_, t, ?_, ht (h.of_subsystem? hs).1, hpool⟩
  · rw [subsystem?_setSubsystem hs, if_neg hm]
    exact h.alone m hm
  · rw [subsystem?_setSubsystem hs, if_pos rfl]

/-- What working on a hook of the layer leaves behind. -/
theorem remount (h : Tended k out actions w) (out' : Export → Prop) {l : SubsystemId} {x : Export}
    {f : Mount → α × Mount} {a : α} (he : Act.onMount l x f w = some (a, w')) :
    ∃ s, w.subsystem? k = some s ∧ (f ⟨s.hooks.get x, w.exports.get x⟩).1 = a ∧
      ((s.hooks.set (f ⟨s.hooks.get x, w.exports.get x⟩).2.hook x).Hooked k out'
          (w.exports.set (f ⟨s.hooks.get x, w.exports.get x⟩).2.slot x) → Tended k out' actions w') := by
  obtain ⟨s, hs, hlayers⟩ := Act.subsystem?_onMount he
  obtain rfl := h.eq_of_subsystem? hs
  obtain ⟨t, ht, eq⟩ := Option.map_eq_some_iff.1 he
  rw [hs] at ht
  cases ht
  cases eq
  refine ⟨s, hs, rfl, fun hhooked => ⟨fun m hm => ?_, _, (hlayers l).trans (if_pos rfl), hhooked, ?_⟩⟩
  · rw [hlayers m, if_neg hm]
    exact h.alone m hm
  · exact (h.of_subsystem? hs).2

/-- What working on the hook of another export than the execute export leaves behind. -/
theorem onMount (h : Tended k out actions w) {l : SubsystemId} {x : Export} (hx : x ≠ .exec) {f : Mount → α × Mount}
    {a : α} (he : Act.onMount l x f w = some (a, w')) (hothers : ∀ y, y ≠ x → out y → out' y)
    (hf : ∀ m, m.Sound k → (¬ out x → m.Settled) → (f m).1 = a → (f m).2.Sound k ∧ (¬ out' x → (f m).2.Settled)) :
    Tended k out' actions w' := by
  obtain ⟨s, hs, hanswer, hrest⟩ := h.remount out' he
  have hhooked := (h.of_subsystem? hs).1
  obtain ⟨hsound, hsettled⟩ := hf _ (hhooked x hx).1 (hhooked x hx).2 hanswer
  exact hrest (hhooked.set hsound hsettled hothers)

end Tended

theorem tended_single (instances : Array Instance) (resumer : Resumer) (state : σ) (config : Config)
    (collaborators : Collaborators) :
    Tended ⟨0⟩ (fun _ => False) [] (World.single instances resumer state config collaborators) := by
  refine ⟨(sound_single instances resumer state config collaborators).alone, _, rfl, fun x _ => ?_, Pool.follows_empty⟩
  cases x <;> exact ⟨⟨rfl, rfl, nofun, rfl⟩, fun _ => rfl⟩

end World

/-! ## Tending is steady -/

namespace Act

theorem track_tends (k : SubsystemId) : Track (Tends k : World σ → World σ → Prop) where
  refl w out actions h := ⟨[], by simpa using h⟩
  trans huv hvw out actions h := by
    obtain ⟨first, hfirst⟩ := huv out actions h
    obtain ⟨second, hsecond⟩ := hvw out _ hfirst
    exact ⟨first ++ second, by simpa using hsecond⟩

theorem tends_execHook (l : SubsystemId) (f : Mount → α × Mount) : (onMount l .exec f : Act σ α).Keeps (Tends k) := by
  intro w a w' he out actions h
  obtain ⟨s, hs, -, hrest⟩ := h.remount out he
  have hhooked := (h.of_subsystem? hs).1
  exact ⟨[], by simpa using hrest (hhooked.set_exec _ _)⟩

theorem tends_toggle (l : SubsystemId) (x : Export) (on : Bool) : (toggle l x on : Act σ Bool).Keeps (Tends k) := by
  by_cases hx : x = .exec
  · subst hx
    exact tends_execHook l _
  · intro w changed w' he out actions h
    refine ⟨[], ?_⟩
    rw [List.append_nil]
    exact h.onMount hx he (fun _ _ hold => hold) fun m hsound _ _ =>
      ⟨(hsound.toggle on).1, fun _ => (hsound.toggle on).2⟩

/-- While a call is passed on, its hook is out; then it is settled, if it was there before. -/
theorem tends_pastHook {l : SubsystemId} {x : Export} {call : Act σ α} (hx : x ≠ .exec) (hcall : call.Keeps (Tends k)) :
    (pastHook l x call).Keeps (Tends k) := by
  intro w a w' he out actions h
  obtain ⟨⟨took, w₁⟩, hborrow, he⟩ := Option.bind_eq_some_iff.1 he
  obtain ⟨⟨b, w₂⟩, hrun, he⟩ := Option.bind_eq_some_iff.1 he
  obtain ⟨⟨u, w₃⟩, hback, he⟩ := Option.bind_eq_some_iff.1 he
  cases he
  cases took with
  | true =>
    have hout : Tended k (fun y => out y ∨ y = x) actions w₁ :=
      h.onMount hx hborrow (fun _ _ hold => .inl hold) fun m hsound _ _ =>
        ⟨hsound.detach.1, fun hnot => absurd (.inr rfl) hnot⟩
    obtain ⟨later, hlater⟩ := hcall hrun _ _ hout
    refine ⟨later, hlater.onMount hx hback (fun y hy hold => ?_) fun m hsound _ _ => ?_⟩
    · exact hold.resolve_right hy
    · exact ⟨hsound.reattach.1, fun _ => hsound.reattach.2⟩
  | false =>
    -- the hook was out of its slot already, and stays as it is
    have hsame : ∀ m : Mount, m.detach.1 = false → m.detach.2 = m := by
      intro m hm
      unfold Mount.detach at hm ⊢
      split at hm
      · cases hm
      · rename_i hattached
        rw [if_neg hattached]
    have hout : Tended k out actions w₁ :=
      h.onMount hx hborrow (fun _ _ hold => hold) fun m hsound hsettled hm => by
        rw [hsame m hm]
        exact ⟨hsound, hsettled⟩
    obtain ⟨later, hlater⟩ := hcall hrun _ _ hout
    exact ⟨later, hlater.onMount hx hback (fun _ _ hold => hold) fun m hsound hsettled _ => ⟨hsound, hsettled⟩⟩

/-- Nothing is changed but what has to do with neither layers nor slots. -/
theorem tends_beside {w w' : World σ} (he : w'.exports = w.exports) (hs : w'.subsystems = w.subsystems) :
    Tends k w w' := by
  rintro out actions ⟨halone, s, hlayer, hhooked, hpool⟩
  refine ⟨[], fun l hl => ?_, s, ?_, he ▸ hhooked, by simpa using hpool⟩
  · rw [← halone l hl]
    exact congrArg (·[l.index]?) hs
  · rw [← hlayer]
    exact congrArg (·[k.index]?) hs

theorem tends_layer {w : World σ} {l : SubsystemId} {s t : Subsystem} (hs : w.subsystem? l = some s)
    (hh : t.hooks = s.hooks) (hp : t.pool = s.pool) : Tends k w (w.setSubsystem l t) := by
  intro out actions h
  obtain rfl := h.eq_of_subsystem? hs
  refine ⟨[], h.setSubsystem hs (fun hhooked => hh ▸ hhooked) ?_⟩
  rw [hp]
  simpa using (h.of_subsystem? hs).2

theorem tends_setPool {kind : Pool.Action → Prop} {w : World σ} {l : SubsystemId} {s : Subsystem} {q : Pool}
    (hs : w.subsystem? l = some s) (hq : s.pool.Leads kind q) : Tends k w (w.setSubsystem l { s with pool := q }) := by
  intro out actions h
  obtain rfl := h.eq_of_subsystem? hs
  obtain ⟨later, hlater⟩ := (h.of_subsystem? hs).2.leads hq
  have hhooks : s.hooks.Hooked l out w.exports → ({ s with pool := q } : Subsystem).hooks.Hooked l out w.exports :=
    fun hhooked => hhooked
  exact ⟨later, h.setSubsystem hs hhooks hlater⟩

theorem tends_pool (l : SubsystemId) (a : Pool.Action) :
    (onPool l fun p => p.perform a : Act σ a.Reply).Keeps (Tends k) := by
  refine .onSubsystem fun w s hs => ?_
  have hleads : s.pool.Leads (fun _ => True) (s.pool.perform a).2 := .perform .refl trivial
  exact tends_setPool hs hleads

theorem tends_removeString (l : SubsystemId) (id : StringId) :
    (removeString l id : Act σ (Except PoolError CellString)).Keeps (Tends k) := by
  refine .bind (track_tends k) (tends_pool l _) fun r => ?_
  cases r with
  | ok s => exact .bind (track_tends k) (.record fun w => tends_beside rfl rfl) fun _ => .pure (track_tends k) _
  | error e => exact .pure (track_tends k) _

theorem steady_tends (k : SubsystemId) : Steady (Tends k : World σ → World σ → Prop) where
  track := track_tends k
  setInstance _ _ := tends_beside rfl rfl
  addInstance _ _ _ := tends_beside rfl rfl
  setPool hs hq := tends_setPool hs hq
  removeString := tends_removeString
  setRefArgs _ hs := tends_layer hs rfl rfl
  tasks := .of_parts (track_tends k) (fun _ _ => tends_beside rfl rfl) (fun _ _ => tends_beside rfl rfl) fun _ _ _ =>
    tends_beside rfl rfl
  setHost _ _ := tends_beside rfl rfl
  tell _ _ _ := tends_beside rfl rfl
  past := tends_pastHook
  setContexts _ hs := tends_layer hs rfl rfl
  disown hs := tends_layer hs rfl rfl
  toggle := tends_toggle
  asked _ _ _ := tends_beside rfl rfl
  putInstance _ _ := tends_beside rfl rfl
  setCallbacks _ hs := tends_layer hs rfl rfl
  setHolds _ hs := tends_layer hs rfl rfl
  execHook := tends_execHook
  callbackLost _ _ := tends_beside rfl rfl
  unloaded _ _ _ _ := tends_beside rfl rfl
  handsOver _ _ _ := tends_beside rfl rfl

theorem counting_tends (k : SubsystemId) : Counting (Tends k : World σ → World σ → Prop) where
  toUpkeep := (steady_tends k).toUpkeep
  setDepth _ hs := tends_layer hs rfl rfl
  entered _ _ _ := tends_beside rfl rfl
  left _ _ _ := tends_beside rfl rfl
  collect l := tends_pool l .collect

end Act

/-! ## Every moment of a run -/

/-- Whatever the host does, other than making another layer, the world is tended at every moment. -/
theorem Machine.tended_runIn {host : Host σ} (hhost : host.UsesOnly (.operations Operation.keepsLayers))
    {p : Program σ α} (hp : p.Uses (.operations Operation.keepsLayers)) (instances : Array Instance) (resumer : Resumer)
    (state : σ) (config : Config) (collaborators : Collaborators) (fuel : Nat) :
    ∃ actions, Tended ⟨0⟩ (fun _ => False) actions
      (p.runIn host fuel (.single instances resumer state config collaborators)).world := by
  have S := Act.steady_tends (σ := σ) ⟨0⟩
  have C := Act.counting_tends (σ := σ) ⟨0⟩
  have hperform : ∀ o : Operation, o.keepsLayers → (o.perform host.callbackIds host.resume).Keeps (World.Tends ⟨0⟩) :=
    fun o ho => S.perform _ _ ho fun l _ => C.collect l
  have hkept := (flows_run S hperform hhost (keeps_openFrame C.framing) (keeps_closeFrame C.framing) fuel hp).keeps.world_of
    .outside (.single instances resumer state config collaborators) fuel
  obtain ⟨later, hlater⟩ := hkept _ _ (tended_single instances resumer state config collaborators)
  exact ⟨later, hlater⟩

end Interpose

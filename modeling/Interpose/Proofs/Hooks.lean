import Interpose.Proofs.Upkeep

/-!
# The execute hook of the only layer

Where there is one hook layer, its execute hook replaced the machine's own entry, and the slot of the execute export
holds either of the two. The hook is *sound* if the detour is in the slot exactly while the hook says so, and only while
it is switched on; it is *settled* if the detour is in the slot whenever it is switched on.

Sound it always is. Settled it is whenever no call is being passed on, since passing a call on takes the hook out of its
slot for a while, and everything else keeps it settled: in particular whatever the host asks for, other than another
layer.

Main statement: `Operation.hookKept_perform`.
-/

namespace Interpose

variable {σ α : Type}

/-! ## A hook and its slot -/

namespace Mount

/-- A hook over the machine's own entry that is in its slot exactly while it says so, and only while it is switched
on. -/
structure Sound (k : SubsystemId) (m : Mount) : Prop where
  replaced : m.hook.replaced = .plain
  detour : m.hook.detour = .detour k .plain
  wanted : m.hook.attached = true → m.hook.wanted = true
  slot : m.slot = if m.hook.attached then .detour k .plain else .plain

/-- A hook that is in its slot exactly if it is switched on. -/
def Settled (m : Mount) : Prop :=
  m.hook.attached = m.hook.wanted

variable {k : SubsystemId} {m : Mount}

theorem Sound.attach (h : m.Sound k) (hw : m.hook.wanted = true) : m.attach.2.Sound k ∧ m.attach.2.Settled := by
  unfold Mount.attach
  split
  · rename_i ha
    exact ⟨h, ha.trans hw.symm⟩
  · exact ⟨⟨h.replaced, h.detour, fun _ => hw, h.detour⟩, hw.symm⟩

theorem Sound.detach (h : m.Sound k) : m.detach.2.Sound k ∧ m.detach.2.hook.attached = false := by
  unfold Mount.detach
  split
  · exact ⟨⟨h.replaced, h.detour, nofun, h.replaced⟩, rfl⟩
  · rename_i ha
    exact ⟨h, Bool.eq_false_iff.2 ha⟩

/-- Switching a hook on or off settles it. -/
theorem Sound.toggle (h : m.Sound k) (on : Bool) : (m.toggle on).2.Sound k ∧ (m.toggle on).2.Settled := by
  cases on with
  | true =>
    have hon : Sound k { m with hook := { m.hook with wanted := true } } := ⟨h.replaced, h.detour, fun _ => rfl, h.slot⟩
    exact hon.attach rfl
  | false =>
    show (Mount.detach { m with hook := { m.hook with wanted := false } }).2.Sound k ∧
      (Mount.detach { m with hook := { m.hook with wanted := false } }).2.Settled
    unfold Mount.detach
    split
    · -- it was in its slot, and is taken out of it
      exact ⟨⟨h.replaced, h.detour, nofun, h.replaced⟩, rfl⟩
    · rename_i ha
      have ha : m.hook.attached = false := Bool.eq_false_iff.2 ha
      refine ⟨⟨h.replaced, h.detour, fun h' => ?_, h.slot⟩, ha⟩
      rw [ha] at h'
      cases h'

/-- Putting a hook back settles it: if it is switched off, it is not in its slot. -/
theorem Sound.reattach (h : m.Sound k) : m.reattach.Sound k ∧ m.reattach.Settled := by
  unfold Mount.reattach
  split
  · rename_i hw
    exact h.attach hw
  · rename_i hw
    refine ⟨h, ?_⟩
    -- a hook that is switched off was out of its slot before
    cases ha : m.hook.attached with
    | true => exact absurd (h.wanted ha) hw
    | false => exact ha.trans (Bool.eq_false_iff.2 hw).symm

end Mount

/-! ## The hook in the world -/

namespace World

/-- There is one hook layer, and its execute hook is sound. -/
structure Sound (k : SubsystemId) (w : World σ) : Prop where
  alone : ∀ l, l ≠ k → w.subsystem? l = none
  hook : ∃ s, w.subsystem? k = some s ∧ Mount.Sound k ⟨s.hooks.exec, w.exports.exec⟩

/-- The execute hook of a layer is in its slot exactly if it is switched on. -/
def Settled (k : SubsystemId) (w : World σ) : Prop :=
  ∀ s, w.subsystem? k = some s → s.hooks.exec.attached = s.hooks.exec.wanted

/-- A change that keeps the execute hook of the only layer sound, and settled if it was, and lets as many calls keep the
layer going. -/
structure HookKept (k : SubsystemId) (w w' : World σ) : Prop where
  sound : Sound k w → Sound k w'
  settled : Sound k w → Settled k w → Settled k w'
  holds : w'.holds k = w.holds k

theorem HookKept.refl (k : SubsystemId) (w : World σ) : HookKept k w w :=
  ⟨fun h => h, fun _ h => h, rfl⟩

theorem HookKept.trans {k : SubsystemId} {u v w : World σ} (h : HookKept k u v) (h' : HookKept k v w) :
    HookKept k u w where
  sound hu := h'.sound (h.sound hu)
  settled hu hs := h'.settled (h.sound hu) (h.settled hu hs)
  holds := h'.holds.trans h.holds

/-- Where no hook and no slot differs, nothing is to be shown of them. -/
theorem Sound.of_same {k : SubsystemId} {w w' : World σ} (h : Sound k w) (he : w'.exports.exec = w.exports.exec)
    (hs : ∀ l, (w'.subsystem? l).map (fun s => s.hooks.exec) = (w.subsystem? l).map fun s => s.hooks.exec) :
    Sound k w' := by
  refine ⟨fun l hl => ?_, ?_⟩
  · have := hs l
    rw [h.alone l hl] at this
    exact Option.map_eq_none_iff.1 this
  · obtain ⟨s, hk, hsound⟩ := h.hook
    have := hs k
    rw [hk] at this
    obtain ⟨s', hk', hhook⟩ := Option.map_eq_some_iff.1 this
    refine ⟨s', hk', ?_⟩
    rw [hhook, he]
    exact hsound

theorem Settled.of_same {k : SubsystemId} {w w' : World σ} (h : Settled k w)
    (hs : (w'.subsystem? k).map (fun s => s.hooks.exec) = (w.subsystem? k).map fun s => s.hooks.exec) :
    Settled k w' := by
  intro s' hs'
  rw [hs'] at hs
  obtain ⟨s, hk, hhook⟩ := Option.map_eq_some_iff.1 hs.symm
  have hhook : s.hooks.exec = s'.hooks.exec := hhook
  rw [← hhook]
  exact h s hk

theorem HookKept.of_same {k : SubsystemId} {w w' : World σ} (he : w'.exports.exec = w.exports.exec)
    (hs : ∀ l, (w'.subsystem? l).map (fun s => s.hooks.exec) = (w.subsystem? l).map fun s => s.hooks.exec)
    (hn : w'.holds k = w.holds k) : HookKept k w w' :=
  ⟨fun h => h.of_same he hs, fun _ h => h.of_same (hs k), hn⟩

theorem Quiet.hookKept {k : SubsystemId} {w w' : World σ} (h : Quiet w w') : HookKept k w w' := by
  refine .of_same h.slot (fun l => ?_) ?_
  · have := congrArg (Option.map ExecState.hook) (h.layers l)
    rwa [Option.map_map, Option.map_map] at this
  · have := congrArg (Option.map ExecState.holds) (h.layers k)
    rw [Option.map_map, Option.map_map] at this
    exact congrArg (Option.getD · 0) this

theorem hooks_setSubsystem {l : SubsystemId} {w : World σ} {s t : Subsystem} (h : w.subsystem? l = some s)
    (hh : t.hooks = s.hooks) (m : SubsystemId) :
    ((w.setSubsystem l t).subsystem? m).map (fun s => s.hooks.exec) = (w.subsystem? m).map fun s => s.hooks.exec := by
  rw [subsystem?_setSubsystem h]
  split
  · rename_i hm
    rw [hm, h]
    show some t.hooks.exec = some s.hooks.exec
    rw [hh]
  · rfl

theorem holds_setSubsystem {k l : SubsystemId} {w : World σ} {s : Subsystem} (h : w.subsystem? l = some s)
    (t : Subsystem) : (w.setSubsystem l t).holds k = if k = l then t.holds else w.holds k := by
  unfold World.holds
  rw [subsystem?_setSubsystem h]
  split <;> rfl

theorem holds_of_subsystem? {k : SubsystemId} {w : World σ} {s : Subsystem} (h : w.subsystem? k = some s) :
    w.holds k = s.holds := by
  unfold World.holds
  rw [h]
  rfl

theorem callback?_setInstance {w : World σ} {i : InstanceId} {a : Instance} (h : w.instance? i = some a)
    (b : Instance) (j : InstanceId) :
    (w.setInstance i b).callback? j = if j = i then some b.callback else w.callback? j := by
  unfold World.callback?
  rw [instance?_setInstance h]
  split <;> rfl

theorem saved?_setSubsystem {k l : SubsystemId} {w : World σ} {s : Subsystem} (h : w.subsystem? l = some s)
    (t : Subsystem) (i : InstanceId) :
    (w.setSubsystem l t).saved? k i = if k = l then t.callbacks.get? i else w.saved? k i := by
  unfold World.saved?
  rw [subsystem?_setSubsystem h]
  split <;> rfl

theorem saved?_of_subsystem? {k : SubsystemId} {w : World σ} {s : Subsystem} (h : w.subsystem? k = some s)
    (i : InstanceId) : w.saved? k i = s.callbacks.get? i := by
  unfold World.saved?
  rw [h]
  rfl

theorem HookKept.setInstance {k : SubsystemId} (w : World σ) (i : InstanceId) (a : Instance) :
    HookKept k w (w.setInstance i a) :=
  .of_same rfl (fun _ => rfl) rfl

theorem HookKept.setSubsystem {k l : SubsystemId} {w : World σ} {s t : Subsystem} (h : w.subsystem? l = some s)
    (hh : t.hooks = s.hooks) (hn : t.holds = s.holds) : HookKept k w (w.setSubsystem l t) := by
  refine .of_same rfl (hooks_setSubsystem h hh) ?_
  rw [holds_setSubsystem h]
  split
  · rename_i hk
    rw [hk, holds_of_subsystem? h, hn]
  · rfl

/-- Two worlds that differ in how many calls keep a layer going: instead of `n` there are `f n`. -/
structure Counted (k : SubsystemId) (f : Nat → Nat) (w w' : World σ) : Prop where
  slot : w'.exports.exec = w.exports.exec
  hooks : ∀ l, (w'.subsystem? l).map (fun s => s.hooks.exec) = (w.subsystem? l).map fun s => s.hooks.exec
  holds : w'.holds k = f (w.holds k)
  callback : ∀ i, w'.callback? i = w.callback? i
  saved : ∀ i, w'.saved? k i = w.saved? k i
  events : w'.events = w.events

/-- Between one call more and one call fewer the hook is kept. -/
theorem HookKept.counted {k : SubsystemId} {w w₁ w₂ w₃ : World σ} (h₁ : Counted k (· + 1) w w₁)
    (h : HookKept k w₁ w₂) (h₃ : Counted k (· - 1) w₂ w₃) : HookKept k w w₃ where
  sound hw := (h.sound (hw.of_same h₁.slot h₁.hooks)).of_same h₃.slot h₃.hooks
  settled hw hs := (h.settled (hw.of_same h₁.slot h₁.hooks) (hs.of_same (h₁.hooks k))).of_same (h₃.hooks k)
  holds := by
    rw [h₃.holds, h.holds, h₁.holds]
    exact Nat.add_sub_cancel _ 1

/-! ## What an execute call reaches -/

section

variable {k : SubsystemId} {w : World σ} {s : Subsystem}

theorem Sound.slot (h : Sound k w) (hs : w.subsystem? k = some s) :
    w.exports.exec = if s.hooks.exec.attached then .detour k .plain else .plain := by
  obtain ⟨t, ht, hsound⟩ := h.hook
  rw [hs] at ht
  cases ht
  exact hsound.slot

theorem Sound.wanted (h : Sound k w) (hs : w.subsystem? k = some s) (ha : s.hooks.exec.attached = true) :
    s.hooks.exec.wanted = true := by
  obtain ⟨t, ht, hsound⟩ := h.hook
  rw [hs] at ht
  cases ht
  exact hsound.wanted ha

/-- While the hook is out of its slot, calls reach the machine's own entry. -/
theorem Sound.entry_of_out (h : Sound k w) (hs : w.subsystem? k = some s) (ha : s.hooks.exec.attached = false) :
    w.entry .exec = .plain := by
  show w.exports.exec.effective w.isAlive = _
  rw [h.slot hs, ha]
  rfl

/-- While the hook is in its slot, calls reach the layer, unless it is gone. -/
theorem Sound.entry_of_attached (h : Sound k w) (hs : w.subsystem? k = some s) (ha : s.hooks.exec.attached = true) :
    w.entry .exec = if w.isAlive k then .detour k .plain else .plain := by
  show w.exports.exec.effective w.isAlive = _
  rw [h.slot hs, ha]
  rfl

/-- A call that reaches a layer reaches the only one, whose hook is in its slot. -/
theorem Sound.attached_of_entry (h : Sound k w) {l : SubsystemId} {replaced : Entry}
    (he : w.entry .exec = .detour l replaced) :
    l = k ∧ ∃ s, w.subsystem? k = some s ∧ s.hooks.exec.attached = true := by
  obtain ⟨s, hs, -⟩ := h.hook
  cases ha : s.hooks.exec.attached with
  | false =>
    rw [h.entry_of_out hs ha] at he
    cases he
  | true =>
    rw [h.entry_of_attached hs ha] at he
    split at he
    · cases he
      exact ⟨rfl, s, hs, ha⟩
    · cases he

/-- Calls that are under way keep a layer going. -/
theorem isAlive_of_holds (h : 0 < w.holds k) : w.isAlive k = true := by
  unfold World.holds at h
  unfold World.isAlive
  cases hs : w.subsystem? k with
  | none =>
    rw [hs] at h
    cases h
  | some s =>
    rw [hs] at h
    have hholds : 0 < s.holds := h
    show (s.owned || decide (0 < s.holds)) = true
    rw [decide_eq_true hholds, Bool.or_true]

/-- A layer that does not exist leads nowhere. -/
theorem Sound.not_isAlive (h : Sound k w) {l : SubsystemId} (hl : l ≠ k) : w.isAlive l = false := by
  unfold World.isAlive
  rw [h.alone l hl]

end

end World

/-! ## Operations -/

namespace Act

open World

variable {k : SubsystemId}

theorem track_hookKept (k : SubsystemId) : Track (HookKept k : World σ → World σ → Prop) :=
  ⟨.refl k, .trans⟩

theorem IsQuiet.hookKept {act : Act σ α} (h : act.IsQuiet) : act.Keeps (HookKept k) :=
  h.mono Quiet.hookKept

theorem hookKept_onInstance (i : InstanceId) (f : Instance → α × Instance) :
    (onInstance i f : Act σ α).Keeps (HookKept k) :=
  .onInstance fun w _ _ => .setInstance w i _

theorem hookKept_onSubsystem {l : SubsystemId} {f : Subsystem → α × Subsystem}
    (hh : ∀ s, (f s).2.hooks = s.hooks) (hn : ∀ s, (f s).2.holds = s.holds) :
    (onSubsystem l f : Act σ α).Keeps (HookKept k) :=
  .onSubsystem fun _ s hs => .setSubsystem hs (hh s) (hn s)

theorem hookKept_record (e : Event) : (record e : Act σ Unit).Keeps (HookKept k) :=
  .record fun _ => .of_same rfl (fun _ => rfl) rfl

/-- The layers after working on a hook. -/
theorem subsystem?_onMount {l : SubsystemId} {x : Export} {f : Mount → α × Mount} {w w' : World σ} {a : α}
    (he : onMount l x f w = some (a, w')) : ∃ s, w.subsystem? l = some s ∧ ∀ m, w'.subsystem? m =
      if m = l then some { s with hooks := s.hooks.set (f ⟨s.hooks.get x, w.exports.get x⟩).2.hook x }
      else w.subsystem? m := by
  obtain ⟨s, hs, eq⟩ := Option.map_eq_some_iff.1 he
  cases eq
  exact ⟨s, hs, fun m => subsystem?_setSubsystem hs _ m⟩

theorem holds_onMount {l : SubsystemId} {x : Export} {f : Mount → α × Mount} {w w' : World σ} {a : α}
    (he : onMount l x f w = some (a, w')) : w'.holds k = w.holds k := by
  obtain ⟨s, hs, hlayers⟩ := subsystem?_onMount he
  unfold World.holds
  rw [hlayers]
  split
  · rename_i hk
    rw [hk, hs]
    rfl
  · rfl

/-- What working on the execute hook of the only layer leaves behind. -/
theorem sound_onMount {f : Mount → α × Mount} {w w' : World σ} {a : α} (h : Sound k w)
    (he : onMount k .exec f w = some (a, w')) (hf : ∀ m, m.Sound k → (f m).2.Sound k) :
    Sound k w' ∧ ∃ s s', w.subsystem? k = some s ∧ w'.subsystem? k = some s' ∧
      a = (f ⟨s.hooks.exec, w.exports.exec⟩).1 ∧ s'.hooks.exec = (f ⟨s.hooks.exec, w.exports.exec⟩).2.hook := by
  obtain ⟨s, hs, hsound⟩ := h.hook
  obtain ⟨s₁, hs₁, hlayers⟩ := subsystem?_onMount he
  rw [hs] at hs₁
  cases hs₁
  obtain ⟨s₁, hs₁, eq⟩ := Option.map_eq_some_iff.1 he
  rw [hs] at hs₁
  cases hs₁
  cases eq
  have hk := (hlayers k).trans (if_pos rfl)
  exact ⟨⟨fun l hl => (hlayers l).trans ((if_neg hl).trans (h.alone l hl)), _, hk, hf _ hsound⟩, s, _, hs, hk, rfl, rfl⟩

/-- Working on a hook leaves the callbacks alone, those of instances and those that are kept. -/
theorem callbacks_onMount {l : SubsystemId} {x : Export} {f : Mount → α × Mount} {w w' : World σ} {a : α}
    (he : onMount l x f w = some (a, w')) :
    (∀ i, w'.callback? i = w.callback? i) ∧ (∀ i, w'.saved? k i = w.saved? k i) ∧ w'.events = w.events := by
  obtain ⟨s, hs, hlayers⟩ := subsystem?_onMount he
  obtain ⟨t, -, eq⟩ := Option.map_eq_some_iff.1 he
  cases eq
  refine ⟨fun _ => rfl, fun i => ?_, rfl⟩
  unfold World.saved?
  rw [hlayers]
  split
  · rename_i hk
    rw [hk, hs]
    rfl
  · rfl

theorem hookKept_onMount {l : SubsystemId} {x : Export} {f : Mount → α × Mount}
    (hsound : ∀ m, m.Sound k → (f m).2.Sound k) (hsettled : ∀ m, m.Sound k → m.Settled → (f m).2.Settled) :
    (onMount l x f : Act σ α).Keeps (HookKept k) := by
  by_cases hx : x = .exec
  · -- the execute hook is that of the only layer
    subst hx
    intro w a w' he
    by_cases hl : l = k
    · subst hl
      refine ⟨fun h => (sound_onMount h he hsound).1, fun h hs => ?_, holds_onMount he⟩
      obtain ⟨-, s, s', hk, hk', -, hhook⟩ := sound_onMount h he hsound
      obtain ⟨t, ht, htsound⟩ := h.hook
      rw [hk] at ht
      cases ht
      intro t' ht'
      rw [hk'] at ht'
      cases ht'
      rw [hhook]
      exact hsettled _ htsound (hs s hk)
    · -- there is no other layer
      obtain ⟨s, hs, -⟩ := Option.map_eq_some_iff.1 he
      refine ⟨fun h => ?_, fun h => ?_, holds_onMount he⟩
      · rw [h.alone l hl] at hs
        cases hs
      · rw [h.alone l hl] at hs
        cases hs
  · exact (quiet_onMount hx f).hookKept

theorem hookKept_toggle (l : SubsystemId) (x : Export) (on : Bool) : (toggle l x on : Act σ Bool).Keeps (HookKept k) :=
  hookKept_onMount (fun _ h => (h.toggle on).1) fun _ h _ => (h.toggle on).2

theorem hookKept_reattachExec (l : SubsystemId) : (reattachExec l : Act σ Unit).Keeps (HookKept k) :=
  hookKept_onMount (fun _ h => h.reattach.1) fun _ h _ => h.reattach.2

theorem counting_hookKept (k : SubsystemId) : Counting (HookKept k : World σ → World σ → Prop) where
  toMild := .of_quiet (track_hookKept k) Quiet.hookKept
  setContexts _ hs := .setSubsystem hs rfl rfl
  disown hs := .setSubsystem hs rfl rfl
  toggle := hookKept_toggle
  asked _ e _ := hookKept_record e rfl
  setDepth _ hs := .setSubsystem hs rfl rfl
  entered _ _ _ := hookKept_record _ rfl
  left _ _ _ := hookKept_record _ rfl
  collect l := (quiet_onPool l _).mono Quiet.hookKept

theorem hookKept_swapCallback (l : SubsystemId) (i : InstanceId) (callback : Callback) :
    (swapCallback l i callback : Act σ Unit).Keeps (HookKept k) := by
  refine .bind (track_hookKept k) (hookKept_onInstance i _) fun current => ?_
  refine hookKept_onSubsystem (fun s => ?_) fun s => ?_ <;> dsimp only <;> split <;> rfl

theorem hookKept_takeCallback (l : SubsystemId) (i : InstanceId) :
    (takeCallback l i : Act σ (Option Callback)).Keeps (HookKept k) :=
  hookKept_onSubsystem (fun _ => rfl) fun _ => rfl

theorem hookKept_forgetCallback (l : SubsystemId) (i : InstanceId) :
    (forgetCallback l i : Act σ Bool).Keeps (HookKept k) :=
  hookKept_onSubsystem (fun _ => rfl) fun _ => rfl

theorem hookKept_restoreCallback (l : SubsystemId) (i : InstanceId) :
    (restoreCallback l i : Act σ Bool).Keeps (HookKept k) := by
  refine .bind (track_hookKept k) (hookKept_takeCallback l i) fun callback => ?_
  cases callback with
  | some callback => exact hookKept_onInstance i _
  | none => exact .pure (track_hookKept k) _

theorem hookKept_unload (l : SubsystemId) (i : InstanceId) : (unload l i : Act σ Unit).Keeps (HookKept k) := by
  refine .bind (track_hookKept k) ((counting_hookKept k).onContexts l _) fun _ => ?_
  refine .bind (track_hookKept k) (hookKept_forgetCallback l i) fun kept => ?_
  exact .bind (track_hookKept k) (quiet_onPool l _).hookKept fun _ => hookKept_record _

theorem counted_onSubsystem {f : Nat → Nat} {w w' : World σ}
    (h : onSubsystem k (fun s => ((), { s with holds := f s.holds })) w = some ((), w')) : Counted k f w w' := by
  obtain ⟨s, hs, eq⟩ := Option.map_eq_some_iff.1 h
  cases eq
  refine ⟨rfl, hooks_setSubsystem hs rfl, ?_, fun _ => rfl, fun i => ?_, rfl⟩
  · rw [holds_setSubsystem hs, if_pos rfl, holds_of_subsystem? hs]
  · rw [saved?_setSubsystem hs, if_pos rfl, saved?_of_subsystem? hs]

/-! ## Passing a call on -/

/-- A hook that is in its slot is taken out of it. -/
theorem borrow_spec {w w' : World σ} {s : Subsystem} {took : Bool} (h : Sound k w) (hs : w.subsystem? k = some s)
    (ha : s.hooks.exec.attached = true) (he : borrow k .exec w = some (took, w')) :
    took = true ∧ Sound k w' ∧ ∀ t, w'.subsystem? k = some t → t.hooks.exec.attached = false := by
  obtain ⟨hsound, s₁, s', hs₁, hs', htook, hhook⟩ := sound_onMount h he fun _ hm => hm.detach.1
  rw [hs] at hs₁
  cases hs₁
  obtain ⟨s₁, hs₁, hm⟩ := h.hook
  rw [hs] at hs₁
  cases hs₁
  refine ⟨?_, hsound, fun t ht => ?_⟩
  · rw [htook]
    unfold Mount.detach
    rw [if_pos ha]
  · rw [hs'] at ht
    cases ht
    rw [hhook]
    exact hm.detach.2

/-- Giving back a hook that was taken settles it. -/
theorem giveBack_spec {w w' : World σ} (h : Sound k w) (he : giveBack k .exec true w = some ((), w')) :
    Sound k w' ∧ Settled k w' := by
  obtain ⟨hsound, s, s', hs, hs', -, hhook⟩ := sound_onMount h he fun _ hm => hm.reattach.1
  obtain ⟨t, ht, hm⟩ := h.hook
  rw [hs] at ht
  cases ht
  refine ⟨hsound, fun t' ht' => ?_⟩
  rw [hs'] at ht'
  cases ht'
  rw [hhook]
  exact hm.reattach.2

theorem reattachExec_spec {w w' : World σ} (h : Sound k w) (he : reattachExec k w = some ((), w')) :
    Sound k w' ∧ Settled k w' :=
  giveBack_spec h he

/-- Where there is a layer, its hooks can be worked on. -/
theorem onMount_ne_none {x : Export} {f : Mount → α × Mount} {w : World σ} (h : Sound k w) :
    onMount k x f w ≠ none := by
  obtain ⟨s, hs, -⟩ := h.hook
  intro he
  have := Option.map_eq_none_iff.1 he
  rw [hs] at this
  cases this

/-! ## Callbacks that are kept -/

/-- Where the instance and the layer are there, the callback can be taken. -/
theorem swapCallback_there {i : InstanceId} {w : World σ} {a : Instance} {s : Subsystem} (ha : w.instance? i = some a)
    (hs : w.subsystem? k = some s) (callback : Callback) :
    ∃ w', swapCallback k i callback w = some ((), w') ∧ w'.instance? i = some { a with callback } := by
  have hput : onInstance i (fun a => (a.callback, { a with callback })) w =
      some (a.callback, w.setInstance i { a with callback }) := congrArg (Option.map _) ha
  have hs : (w.setInstance i { a with callback }).subsystem? k = some s := hs
  exact ⟨_, (bind_of_some hput).trans (congrArg (Option.map _) hs), (instance?_setInstance ha _ i).trans (if_pos rfl)⟩

/-- Giving an instance another callback keeps the one it had, unless one is kept already. -/
theorem swapCallback_spec {i : InstanceId} {callback : Callback} {w w' : World σ}
    (h : swapCallback k i callback w = some ((), w')) :
    ∃ c, w.callback? i = some c ∧ (∀ j, w'.callback? j = if j = i then some callback else w.callback? j) ∧
      (∀ j, w'.saved? k j = if j = i then some ((w.saved? k i).getD c) else w.saved? k j) ∧ w'.events = w.events ∧
      (w'.subsystem? k).map (fun s => s.hooks.exec) = (w.subsystem? k).map fun s => s.hooks.exec := by
  obtain ⟨⟨c, w₁⟩, h₁, h₂⟩ := Option.bind_eq_some_iff.1 h
  obtain ⟨a, ha, eq⟩ := Option.map_eq_some_iff.1 h₁
  cases eq
  obtain ⟨s, hs, eq⟩ := Option.map_eq_some_iff.1 h₂
  cases eq
  have hs : w.subsystem? k = some s := hs
  refine ⟨a.callback, ?_, fun j => ?_, fun j => ?_, rfl, ?_⟩
  · unfold World.callback?
    rw [ha]
    rfl
  · exact callback?_setInstance ha _ j
  · rw [saved?_setSubsystem (w := w.setInstance i _) hs, if_pos rfl]
    show (if s.callbacks.contains i then s else { s with callbacks := s.callbacks.insert i a.callback }).callbacks.get? j =
      _
    -- a callback is kept only if none is
    have hsaved : w.saved? k i = s.callbacks.get? i := saved?_of_subsystem? hs i
    have hother : w.saved? k j = s.callbacks.get? j := saved?_of_subsystem? hs j
    rw [hsaved, hother]
    cases hget : s.callbacks.get? i with
    | none =>
      have hcontains : s.callbacks.contains i = false := by
        unfold Keyed.contains
        rw [hget]
        rfl
      rw [hcontains]
      exact Keyed.get?_insert ..
    | some kept =>
      have hcontains : s.callbacks.contains i = true := by
        unfold Keyed.contains
        rw [hget]
        rfl
      rw [hcontains, if_pos rfl]
      by_cases hj : j = i
      · rw [if_pos hj, hj]
        exact hget
      · rw [if_neg hj]
  · refine hooks_setSubsystem (w := w.setInstance i _) hs ?_ k
    show (if s.callbacks.contains i then s else { s with callbacks := s.callbacks.insert i a.callback }).hooks = s.hooks
    split <;> rfl

/-- Taking the callback that is kept for an instance. -/
theorem takeCallback_spec {i : InstanceId} {callback : Option Callback} {w w' : World σ}
    (h : takeCallback k i w = some (callback, w')) :
    callback = w.saved? k i ∧ (∀ j, w'.callback? j = w.callback? j) ∧
      (∀ j, w'.saved? k j = if j = i then none else w.saved? k j) ∧ w'.events = w.events := by
  obtain ⟨s, hs, eq⟩ := Option.map_eq_some_iff.1 h
  cases eq
  refine ⟨(saved?_of_subsystem? hs i).symm, fun _ => rfl, fun j => ?_, rfl⟩
  rw [saved?_setSubsystem hs, if_pos rfl, saved?_of_subsystem? hs]
  exact Keyed.get?_erase ..

end Act

open Act in
/-- Whatever the host asks for, other than another layer, keeps the execute hook sound and settled. -/
theorem Operation.hookKept_perform {k : SubsystemId} (ids : CallbackIds σ) (resume : Resume σ) {o : Operation}
    (h : o.keepsLayers) : (o.perform ids resume).Keeps (World.HookKept k) := by
  by_cases hcommon : o.isCommon = true
  · exact (counting_hookKept k).perform ids resume hcommon fun l _ => (counting_hookKept k).collect l
  cases o with
  | newSubsystem config collaborators => exact h.elim
  | unload l i => exact hookKept_unload l i
  | swapCallback l i code => exact hookKept_swapCallback l i _
  | takeCallback l i => exact hookKept_takeCallback l i
  | restoreCallback l i => exact hookKept_restoreCallback l i
  | forgetCallback l i => exact hookKept_forgetCallback l i
  | notify n => exact hookKept_record _
  | _ => exact absurd rfl hcommon

end Interpose

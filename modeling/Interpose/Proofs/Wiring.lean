import Interpose.Proofs.PooledReading
import Interpose.Proofs.Stocks

/-!
# How hooks are wired

With any number of hook layers, the slots of the table hold chains of detours. Whatever the host does with them, and in
whatever order, three things are true of every export but the one that executes: a detour that is in a slot, or that a
hook would write back, is the very detour that the hook of its layer writes; a hook keeps that detour for good; and a hook
is in its slot only if it is switched on.

So an address that leads nowhere has been asked about by every layer on the way, and every hook that went out of the slot
for it has gone back in: nothing has changed, and the table leads where it led.

Main statements: `Machine.wired_runIn`, and `Act.resolve_fails`.
-/

namespace Interpose

variable {σ α : Type}

/-! ## One export -/

/-- The detours that an entry goes through are those that the hooks of their layers write. -/
def Entry.Genuine (hooks : SubsystemId → Option Hook) : Entry → Prop
  | .plain => True
  | .detour k replaced => (hooks k).map Hook.detour = some (.detour k replaced) ∧ Genuine hooks replaced

/-- A slot and the hooks that the layers have for it. -/
structure PerExport.Wired (slot : Entry) (hooks : SubsystemId → Option Hook) : Prop where
  slot : slot.Genuine hooks
  detour : ∀ k h, hooks k = some h → h.detour = .detour k h.replaced
  replaced : ∀ k h, hooks k = some h → h.replaced.Genuine hooks
  wanted : ∀ k h, hooks k = some h → h.attached = true → h.wanted = true

/-- What working on a hook makes of it. -/
structure Mount.Moves (m m' : Mount) : Prop where
  detour : m'.hook.detour = m.hook.detour
  replaced : m'.hook.replaced = m.hook.replaced
  slot : m'.slot = m.slot ∨ m'.slot = m.hook.detour ∨ m'.slot = m.hook.replaced
  wanted : (m.hook.attached = true → m.hook.wanted = true) → m'.hook.attached = true → m'.hook.wanted = true

namespace Entry

variable {hooks hooks' : SubsystemId → Option Hook} {e : Entry}

/-- It does not matter what else becomes of the hooks. -/
theorem Genuine.mono (h : e.Genuine hooks)
    (hkept : ∀ k d, (hooks k).map Hook.detour = some d → (hooks' k).map Hook.detour = some d) : e.Genuine hooks' := by
  induction e with
  | plain => trivial
  | detour k replaced ih => exact ⟨hkept k _ h.1, ih h.2⟩

variable {alive : SubsystemId → Bool} {k : SubsystemId} {replaced : Entry}

/-- What a call reaches is one of the detours on the way. -/
theorem Genuine.effective (h : e.Genuine hooks) (he : e.effective alive = .detour k replaced) :
    (hooks k).map Hook.detour = some (.detour k replaced) := by
  induction e with
  | plain => cases he
  | detour l other ih =>
    unfold Entry.effective at he
    split at he
    · cases he
      exact h.1
    · exact ih h.2 he

/-- And its layer is not gone. -/
theorem alive_of_effective (he : e.effective alive = .detour k replaced) : alive k = true := by
  induction e with
  | plain => cases he
  | detour l other ih =>
    unfold Entry.effective at he
    split at he
    · rename_i halive
      cases he
      exact halive
    · exact ih he

end Entry

/-- What a hook that went out of its slot is when it has gone back. -/
theorem Mount.giveBack_out {h : Hook} (hwanted : h.wanted = true) (hattached : h.attached = true) (found : Entry) :
    Mount.giveBack ⟨{ h with attached := false }, found⟩ true = ⟨h, h.detour⟩ := by
  cases h
  cases hwanted
  cases hattached
  rfl

namespace Mount.Moves

variable {m m' : Mount}

theorem refl (m : Mount) : m.Moves m :=
  ⟨rfl, rfl, .inl rfl, fun h => h⟩

theorem detach (m : Mount) : m.Moves m.detach.2 := by
  unfold Mount.detach
  split
  · exact ⟨rfl, rfl, .inr (.inr rfl), fun _ => nofun⟩
  · exact .refl m

theorem reattach (m : Mount) : m.Moves m.reattach := by
  unfold Mount.reattach Mount.attach
  split
  · rename_i hwanted
    split
    · exact .refl m
    · exact ⟨rfl, rfl, .inr (.inl rfl), fun _ _ => hwanted⟩
  · exact .refl m

theorem giveBack (m : Mount) (took : Bool) : m.Moves (m.giveBack took) := by
  cases took with
  | true => exact .reattach m
  | false => exact .refl m

theorem toggle (m : Mount) (on : Bool) : m.Moves (m.toggle on).2 := by
  cases on with
  | true =>
    show m.Moves (Mount.attach _).2
    unfold Mount.attach
    split
    · exact ⟨rfl, rfl, .inl rfl, fun _ _ => rfl⟩
    · exact ⟨rfl, rfl, .inr (.inl rfl), fun _ _ => rfl⟩
  | false =>
    show m.Moves (Mount.detach _).2
    unfold Mount.detach
    split
    · exact ⟨rfl, rfl, .inr (.inr rfl), fun _ => nofun⟩
    · rename_i hout
      exact ⟨rfl, rfl, .inl rfl, fun _ hattached => absurd hattached hout⟩

end Mount.Moves

namespace PerExport.Wired

variable {slot slot' : Entry} {hooks hooks' : SubsystemId → Option Hook} {k : SubsystemId} {hook hook' : Hook}

/-- A layer may have another hook than before, or one where it had none, if the detour is the same where there was one. -/
theorem exchange (h : Wired slot hooks) (hhooks : ∀ l, hooks' l = if l = k then some hook' else hooks l)
    (hsame : ∀ d, (hooks k).map Hook.detour = some d → hook'.detour = d)
    (hdetour : hook'.detour = .detour k hook'.replaced) (hreplaced : hook'.replaced.Genuine hooks)
    (hwanted : hook'.attached = true → hook'.wanted = true)
    (hslot : slot' = slot ∨ slot' = hook'.detour ∨ slot' = hook'.replaced) : Wired slot' hooks' := by
  have hkept : ∀ l d, (hooks l).map Hook.detour = some d → (hooks' l).map Hook.detour = some d := by
    intro l d hd
    rw [hhooks]
    split
    · rename_i hl
      exact congrArg some (hsame d (hl ▸ hd))
    · exact hd
  have hcases : ∀ l found, hooks' l = some found → l = k ∧ found = hook' ∨ hooks l = some found := by
    intro l found hl
    rw [hhooks] at hl
    split at hl
    · rename_i hlk
      cases hl
      exact .inl ⟨hlk, rfl⟩
    · exact .inr hl
  refine ⟨?_, fun l found hl => ?_, fun l found hl => ?_, fun l found hl => ?_⟩
  · rcases hslot with rfl | rfl | rfl
    · exact h.slot.mono hkept
    · have hown : (hooks' k).map Hook.detour = some (.detour k hook'.replaced) := by
        rw [hhooks, if_pos rfl, ← hdetour]
        rfl
      rw [hdetour]
      exact ⟨hown, hreplaced.mono hkept⟩
    · exact hreplaced.mono hkept
  · rcases hcases l found hl with ⟨rfl, rfl⟩ | hold
    · exact hdetour
    · exact h.detour l found hold
  · rcases hcases l found hl with ⟨rfl, rfl⟩ | hold
    · exact hreplaced.mono hkept
    · exact (h.replaced l found hold).mono hkept
  · rcases hcases l found hl with ⟨rfl, rfl⟩ | hold
    · exact hwanted
    · exact h.wanted l found hold

/-- Working on one hook leaves a slot wired. -/
theorem move (h : Wired slot hooks) (hk : hooks k = some hook) {m : Mount} (hmoves : Mount.Moves ⟨hook, slot⟩ m)
    (hhooks : ∀ l, hooks' l = if l = k then some m.hook else hooks l) : Wired m.slot hooks' := by
  obtain ⟨hdetour, hreplaced, hslot, hwanted⟩ := hmoves
  dsimp only at hdetour hreplaced hslot hwanted
  rw [← hdetour, ← hreplaced] at hslot
  refine h.exchange hhooks (fun d hd => ?_) ?_ ?_ (hwanted (h.wanted k hook hk)) hslot
  · rw [hk] at hd
    exact hdetour.trans (Option.some.inj hd)
  · rw [hdetour, hreplaced]
    exact h.detour k hook hk
  · rw [hreplaced]
    exact h.replaced k hook hk

/-- A layer that is new has a hook for what it finds in the slot. -/
theorem add (h : Wired slot hooks) (hk : hooks k = none)
    (hhooks : ∀ l, hooks' l = if l = k then some (.new k slot) else hooks l) : Wired slot hooks' := by
  refine h.exchange hhooks (fun d hd => ?_) rfl h.slot nofun (.inl rfl)
  rw [hk] at hd
  cases hd

end PerExport.Wired

/-! ## Worlds -/

namespace World

variable {w w' : World σ} {k l : SubsystemId} {x y : Export} {s t : Subsystem}

/-- The hook that a layer has for an export. -/
def hook? (w : World σ) (x : Export) (k : SubsystemId) : Option Hook :=
  (w.subsystem? k).map fun s => s.hooks.get x

/-- Every slot but that of the execute export is wired. -/
def Wired (w : World σ) : Prop :=
  ∀ x, x ≠ .exec → PerExport.Wired (w.exports.get x) (w.hook? x)

/-- What was wired is wired. -/
def Wires (w w' : World σ) : Prop :=
  w.Wired → w'.Wired

theorem hook?_of_subsystem? (hs : w.subsystem? k = some s) (x : Export) : w.hook? x k = some (s.hooks.get x) :=
  congrArg (Option.map _) hs

/-- Nothing is changed but what has to do with neither hooks nor slots. -/
theorem wires_of_same (he : ∀ x, x ≠ .exec → w'.exports.get x = w.exports.get x)
    (hh : ∀ x, x ≠ .exec → w'.hook? x = w.hook? x) : Wires w w' := by
  intro h x hx
  rw [he x hx, hh x hx]
  exact h x hx

theorem wires_beside (he : w'.exports = w.exports) (hs : w'.subsystems = w.subsystems) : Wires w w' := by
  refine wires_of_same (fun x _ => by rw [he]) fun x _ => funext fun l => ?_
  unfold hook? subsystem?
  rw [hs]

theorem hook?_setSubsystem (hs : w.subsystem? l = some s) (t : Subsystem) (x : Export) (k : SubsystemId) :
    (w.setSubsystem l t).hook? x k = if k = l then some (t.hooks.get x) else w.hook? x k := by
  unfold hook?
  rw [subsystem?_setSubsystem hs]
  split <;> rfl

theorem wires_layer (hs : w.subsystem? l = some s) (hh : t.hooks = s.hooks) : Wires w (w.setSubsystem l t) := by
  refine wires_of_same (fun _ _ => rfl) fun x _ => funext fun k => ?_
  rw [hook?_setSubsystem hs, hh]
  split
  · rename_i hk
    rw [hk, hook?_of_subsystem? hs]
  · rfl

theorem wired_initial (resumer : Resumer) (state : σ) : (World.initial resumer state).Wired := by
  have hnone : ∀ x k, (World.initial resumer state : World σ).hook? x k = none := fun _ _ => rfl
  intro x _
  have hslot : (World.initial resumer state).exports.get x = .plain := PerExport.get_const _ x
  refine ⟨?_, fun k h hk => ?_, fun k h hk => ?_, fun k h hk => ?_⟩
  · rw [hslot]
    trivial
  all_goals
    rw [hnone] at hk
    cases hk

end World

open World

/-! ## Operations -/

namespace Act

theorem track_wires : Track (Wires : World σ → World σ → Prop) :=
  ⟨fun _ h => h, fun huv hvw h => hvw (huv h)⟩

/-- Working on a hook. -/
theorem hook?_onMount {l : SubsystemId} {x : Export} {f : Mount → α × Mount} {w w' : World σ} {a : α}
    (h : onMount l x f w = some (a, w')) : ∃ hook, w.hook? x l = some hook ∧
      (f ⟨hook, w.exports.get x⟩).1 = a ∧ w'.exports.get x = (f ⟨hook, w.exports.get x⟩).2.slot ∧
      (∀ k, w'.hook? x k = if k = l then some (f ⟨hook, w.exports.get x⟩).2.hook else w.hook? x k) ∧
      ∀ y, y ≠ x → w'.exports.get y = w.exports.get y ∧ w'.hook? y = w.hook? y := by
  obtain ⟨s, hs, eq⟩ := Option.map_eq_some_iff.1 h
  cases eq
  have hhooks : ∀ y k, (w.remount l x s (f ⟨s.hooks.get x, w.exports.get x⟩).2).hook? y k =
      if k = l then some ((s.hooks.set (f ⟨s.hooks.get x, w.exports.get x⟩).2.hook x).get y) else w.hook? y k :=
    fun y k => hook?_setSubsystem hs _ y k
  refine ⟨s.hooks.get x, hook?_of_subsystem? hs x, rfl, ?_, fun k => ?_, fun y hy => ⟨?_, funext fun k => ?_⟩⟩
  · exact (PerExport.get_set ..).trans (if_pos rfl)
  · refine (hhooks x k).trans ?_
    rw [PerExport.get_set, if_pos rfl]
  · exact (PerExport.get_set ..).trans (if_neg hy)
  · refine (hhooks y k).trans ?_
    rw [PerExport.get_set, if_neg hy]
    split
    · rename_i hk
      rw [hk, hook?_of_subsystem? hs]
    · rfl

theorem wires_onMount {f : Mount → α × Mount} (hf : ∀ m : Mount, m.Moves (f m).2) (l : SubsystemId) (x : Export) :
    (onMount l x f : Act σ α).Keeps Wires := by
  intro w a w' h hw y hy
  obtain ⟨hook, hhook, -, hslot, hhooks, hothers⟩ := hook?_onMount h
  by_cases hyx : y = x
  · subst hyx
    rw [hslot]
    exact (hw y hy).move hhook (hf _) hhooks
  · rw [(hothers y hyx).1, (hothers y hyx).2]
    exact hw y hy

theorem wires_execHook (l : SubsystemId) (f : Mount → α × Mount) : (onMount l .exec f : Act σ α).Keeps Wires := by
  intro w a w' h
  obtain ⟨-, -, -, -, -, hothers⟩ := hook?_onMount h
  exact wires_of_same (fun x hx => (hothers x hx).1) fun x hx => (hothers x hx).2

theorem wires_onSubsystem {l : SubsystemId} {f : Subsystem → α × Subsystem} (hf : ∀ s, (f s).2.hooks = s.hooks) :
    (onSubsystem l f : Act σ α).Keeps Wires :=
  .onSubsystem fun _ s hs => wires_layer hs (hf s)

theorem wires_removeString (l : SubsystemId) (id : StringId) :
    (removeString l id : Act σ (Except PoolError CellString)).Keeps Wires := by
  refine .bind track_wires (wires_onSubsystem fun _ => rfl) fun r => ?_
  cases r with
  | ok s => exact .bind track_wires (.record fun w => wires_beside rfl rfl) fun _ => .pure track_wires _
  | error e => exact .pure track_wires _

theorem steady_wires : Steady (Wires : World σ → World σ → Prop) where
  track := track_wires
  setInstance _ _ := wires_beside rfl rfl
  addInstance _ _ _ := wires_beside rfl rfl
  setPool hs _ := wires_layer hs rfl
  removeString := wires_removeString
  setRefArgs _ hs := wires_layer hs rfl
  tasks := .of_parts track_wires (fun _ _ => wires_beside rfl rfl) (fun _ _ => wires_beside rfl rfl) fun _ _ _ =>
    wires_beside rfl rfl
  setHost _ _ := wires_beside rfl rfl
  tell _ _ _ := wires_beside rfl rfl
  past {_ l x _} _ hcall := by
    refine .bind track_wires (wires_onMount .detach l x) fun took => ?_
    refine .bind track_wires hcall fun a => ?_
    exact .bind track_wires (wires_onMount (fun m => .giveBack m took) l x) fun _ => .pure track_wires a
  setContexts _ hs := wires_layer hs rfl
  disown hs := wires_layer hs rfl
  toggle l x on := wires_onMount (fun m => .toggle m on) l x
  asked _ _ _ := wires_beside rfl rfl
  putInstance _ _ := wires_beside rfl rfl
  setCallbacks _ hs := wires_layer hs rfl
  setHolds _ hs := wires_layer hs rfl
  execHook := wires_execHook
  callbackLost _ _ := wires_beside rfl rfl
  unloaded _ _ _ _ := wires_beside rfl rfl
  handsOver _ _ _ := wires_beside rfl rfl

theorem counting_wires : Counting (Wires : World σ → World σ → Prop) where
  toUpkeep := steady_wires.toUpkeep
  setDepth _ hs := wires_layer hs rfl
  entered _ _ _ := wires_beside rfl rfl
  left _ _ _ := wires_beside rfl rfl
  collect _ := wires_onSubsystem fun _ => rfl

/-- The hooks of a new layer replace what is in the slots. -/
theorem wires_newSubsystem (config : Config) (collaborators : Collaborators) :
    (newSubsystem config collaborators : Act σ SubsystemId).Keeps Wires := by
  intro w k w' h hw x hx
  obtain ⟨hnone, -⟩ := stock?_newSubsystem h
  cases h
  have hmissing : w.hook? x ⟨w.subsystems.size⟩ = none :=
    Option.map_eq_none_iff.2 (Option.map_eq_none_iff.1 hnone)
  refine (hw x hx).add hmissing fun l => ?_
  show ((w.subsystems.push _)[l.index]?).map _ = _
  rw [Array.getElem?_push]
  by_cases hl : l = ⟨w.subsystems.size⟩
  · rw [if_pos (congrArg SubsystemId.index hl), if_pos hl]
    cases x <;> rfl
  · rw [if_neg fun he => hl (congrArg SubsystemId.mk he), if_neg hl]
    rfl

/-- Whatever the host asks for. -/
theorem wires_perform (ids : CallbackIds σ) (resume : Resume σ) (o : Operation) :
    (o.perform ids resume).Keeps Wires := by
  cases o with
  | newSubsystem config collaborators => exact wires_newSubsystem config collaborators
  | _ => exact steady_wires.perform ids resume trivial fun l _ => counting_wires.collect l

end Act

/-- At every moment of every run, all slots but that of the execute export are wired. -/
theorem Machine.wired_runIn (host : Host σ) (p : Program σ α) (resumer : Resumer) (state : σ) (fuel : Nat) :
    (p.runIn host fuel (.initial resumer state)).world.Wired := by
  have F := Act.counting_wires (σ := σ).framing
  have hperform : ∀ o : Operation, True → (o.perform host.callbackIds host.resume).Keeps Wires :=
    fun o _ => Act.wires_perform _ _ o
  have hflows := flows_run Act.steady_wires hperform host.uses_operations_true (keeps_openFrame F) (keeps_closeFrame F) fuel
    p.uses_operations_true
  exact hflows.keeps.world_of .outside (.initial resumer state) fuel (wired_initial resumer state)

/-! ## Addresses that lead nowhere -/

namespace World

/-- Nothing is different. What stands in the slots of the table may be, but they lead where they led; and the journal may
have entries more. -/
structure Untouched (w w' : World σ) : Prop where
  instances : w'.instances = w.instances
  subsystems : w'.subsystems = w.subsystems
  tasks : w'.tasks = w.tasks
  resumer : w'.resumer = w.resumer
  host : w'.host = w.host
  entry : ∀ x, w'.entry x = w.entry x
  journal : ∃ es, w'.events = w.events ++ es

variable {u v w w' : World σ} {k : SubsystemId} {x : Export} {s : Subsystem}

theorem Untouched.refl (w : World σ) : w.Untouched w :=
  ⟨rfl, rfl, rfl, rfl, rfl, fun _ => rfl, [], (List.append_nil _).symm⟩

theorem Untouched.trans (h : u.Untouched v) (h' : v.Untouched w) : u.Untouched w := by
  obtain ⟨es, hes⟩ := h.journal
  obtain ⟨es', hes'⟩ := h'.journal
  exact ⟨h'.instances.trans h.instances, h'.subsystems.trans h.subsystems, h'.tasks.trans h.tasks,
    h'.resumer.trans h.resumer, h'.host.trans h.host, fun x => (h'.entry x).trans (h.entry x), es ++ es',
    by rw [hes', hes, List.append_assoc]⟩

theorem untouched_record (w : World σ) (e : Event) : w.Untouched (w.record e) :=
  ⟨rfl, rfl, rfl, rfl, rfl, fun _ => rfl, [e], events_record w e⟩

theorem isAlive_of_subsystems (h : w'.subsystems = w.subsystems) : w'.isAlive = w.isAlive := by
  funext l
  unfold isAlive subsystem?
  rw [h]

theorem isAlive_remount (hs : w.subsystem? k = some s) (m : Mount) : (w.remount k x s m).isAlive = w.isAlive := by
  have hlayers : ∀ l, (w.remount k x s m).subsystem? l = if l = k then some { s with hooks := s.hooks.set m.hook x }
      else w.subsystem? l := subsystem?_setSubsystem hs _
  funext l
  unfold isAlive
  rw [hlayers]
  by_cases hl : l = k
  · rw [if_pos hl, hl, hs]
    rfl
  · rw [if_neg hl]

/-- A hook that went out of its slot is put back as it was, and the slot leads to its layer again. -/
theorem untouched_giveBack {m : Mount} (hs : w.subsystem? k = some s) (hv : (w.remount k x s m).Untouched v)
    (hback : ∀ found, Mount.giveBack ⟨m.hook, found⟩ true = ⟨s.hooks.get x, (s.hooks.get x).detour⟩)
    {replaced : Entry} (hentry : w.entry x = .detour k replaced)
    (hdetour : (s.hooks.get x).detour = .detour k replaced) (h : Act.giveBack k x true v = some ((), w')) :
    w.Untouched w' := by
  have hlayer : v.subsystem? k = some { s with hooks := s.hooks.set m.hook x } := by
    have hsame : v.subsystem? k = (w.remount k x s m).subsystem? k := by
      unfold subsystem?
      rw [hv.subsystems]
    rw [hsame, subsystem?_remount hs]
  have hgiven := h.symm.trans (onMount_eq_remount hlayer fun m => ((), m.giveBack true))
  rw [PerExport.get_set, if_pos rfl, hback] at hgiven
  obtain rfl := congrArg Prod.snd (Option.some.inj hgiven)
  -- the layer has the hooks that it had
  have hsubsystems : (v.remount k x { s with hooks := s.hooks.set m.hook x }
      ⟨s.hooks.get x, (s.hooks.get x).detour⟩).subsystems = w.subsystems := by
    have hself : (w.setSubsystem k s).subsystems = w.subsystems := congrArg World.subsystems (setSubsystem_self hs)
    show v.subsystems.setIfInBounds k.index _ = _
    rw [hv.subsystems, ← hself]
    simp only [remount, setSubsystem, PerExport.set_set, PerExport.set_get, Array.setIfInBounds_setIfInBounds]
  refine ⟨hv.instances, hsubsystems, hv.tasks, hv.resumer, hv.host, fun y => ?_, hv.journal⟩
  show ((v.exports.set _ x).get y).effective _ = w.entry y
  rw [isAlive_of_subsystems hsubsystems, PerExport.get_set]
  by_cases hy : y = x
  · rw [if_pos hy, hy, hentry, hdetour, Entry.effective, if_pos (Entry.alive_of_effective hentry)]
  · have hother : (v.exports.get y).effective v.isAlive =
        ((w.exports.set m.slot x).get y).effective (w.remount k x s m).isAlive := hv.entry y
    rw [isAlive_of_subsystems hv.subsystems, isAlive_remount hs] at hother
    rw [if_neg hy]
    have hsame : v.isAlive = w.isAlive := by rw [isAlive_of_subsystems hv.subsystems, isAlive_remount hs]
    rw [hother, PerExport.get_set, if_neg hy]
    rfl

end World

namespace Act

variable {w w' : World σ} {k : SubsystemId} {x : Export} {i : InstanceId} {address : Cell}

/-- If a call that is passed on touches nothing, passing it on touches nothing. -/
theorem untouched_pastHook {call : Act σ α} {a : α} (hw : w.Wired) (hx : x ≠ .exec) {replaced : Entry}
    (hentry : w.entry x = .detour k replaced)
    (hcall : ∀ {v v'}, v.Wired → call v = some (a, v') → v.Untouched v') (h : pastHook k x call w = some (a, w')) :
    w.Untouched w' := by
  obtain ⟨⟨took, w₀⟩, hborrow, h⟩ := Option.bind_eq_some_iff.1 h
  obtain ⟨⟨b, v⟩, hrun, h⟩ := Option.bind_eq_some_iff.1 h
  obtain ⟨⟨u, w₁⟩, hback, h⟩ := Option.bind_eq_some_iff.1 h
  cases h
  have huntouched := hcall (wires_onMount .detach k x hborrow hw) hrun
  obtain ⟨s, hs, -⟩ := Option.map_eq_some_iff.1 hborrow
  have hdetour : (s.hooks.get x).detour = .detour k replaced := by
    have hgenuine := (hw x hx).slot.effective hentry
    rw [hook?_of_subsystem? hs] at hgenuine
    exact Option.some.inj hgenuine
  have hout := hborrow.symm.trans (onMount_eq_remount hs Mount.detach)
  unfold Mount.detach at hout
  cases hattached : (s.hooks.get x).attached with
  | true =>
    rw [if_pos hattached] at hout
    cases hout
    have hwanted := (hw x hx).wanted k _ (hook?_of_subsystem? hs x) hattached
    exact untouched_giveBack hs huntouched (Mount.giveBack_out hwanted hattached) hentry hdetour hback
  | false =>
    -- the hook was out of the slot already, and stays as it is
    rw [if_neg (by simp [hattached])] at hout
    rw [remount_self hs] at hout
    cases hout
    obtain ⟨t, ht, -⟩ := Option.map_eq_some_iff.1 hback
    have hsame := hback.symm.trans (onMount_eq_remount ht fun m => ((), m.giveBack false))
    rw [show (Mount.giveBack ⟨t.hooks.get x, v.exports.get x⟩ false) = ⟨t.hooks.get x, v.exports.get x⟩ from rfl,
      remount_self ht] at hsame
    cases hsame
    exact huntouched

/-- An address that leads nowhere led nowhere on the way, and no pool knows it. -/
theorem virtualize_fails {resolved : Except Status Place} {e : Status}
    (h : virtualize k i address resolved w = some (.error e, w')) : resolved = .error e ∧ w' = w := by
  unfold virtualize at h
  split at h
  · obtain ⟨⟨place, v⟩, hpooled, h⟩ := Option.bind_eq_some_iff.1 h
    cases place with
    | some p => cases h
    | none =>
      cases h
      refine ⟨rfl, ?_⟩
      unfold resolvePooled at hpooled
      split at hpooled
      · obtain ⟨s, -, hfound⟩ := Option.map_eq_some_iff.1 hpooled
        cases hfound
      · obtain ⟨s, hs, hfound⟩ := Option.map_eq_some_iff.1 hpooled
        dsimp only at hfound
        split at hfound
        · cases hfound
        · cases hfound
          exact setSubsystem_self hs
  · obtain ⟨⟨s, v⟩, hs, h⟩ := Option.bind_eq_some_iff.1 h
    dsimp only at h
    split at h
    · obtain ⟨⟨value, v₁⟩, -, h⟩ := Option.bind_eq_some_iff.1 h
      obtain ⟨⟨place, v₂⟩, -, h⟩ := Option.bind_eq_some_iff.1 h
      cases place <;> cases h
    · cases h
  · cases h
    exact ⟨rfl, rfl⟩

theorem resolvePlain_fails {e : Status} (h : resolvePlain i address w = some (.error e, w')) :
    e = .memoryAccess ∧ w' = w := by
  obtain ⟨⟨a, v⟩, hget, h⟩ := Option.bind_eq_some_iff.1 h
  obtain ⟨_, -, hsame⟩ := Option.map_eq_some_iff.1 hget
  cases hsame
  cases hindex : a.cellIndex? address with
  | some index =>
    simp only [hindex] at h
    cases h
  | none =>
    simp only [hindex] at h
    cases h
    exact ⟨rfl, rfl⟩

theorem resolveWithin_fails {bound : Nat} {e : Status} (hw : w.Wired)
    (h : resolveWithin i address bound w = some (.error e, w')) : e = .memoryAccess ∧ w.Untouched w' := by
  -- along the detours that the address goes through
  induction bound generalizing w w' with
  | zero => cases h
  | succ bound ih =>
    unfold resolveWithin at h
    rw [bind_of_some (get_eq w)] at h
    cases hentry : w.entry .resolve with
    | plain =>
      rw [hentry] at h
      obtain ⟨rfl, rfl⟩ := resolvePlain_fails h
      exact ⟨rfl, .refl w'⟩
    | detour k replaced =>
      rw [hentry] at h
      obtain ⟨⟨resolved, v⟩, hpast, h⟩ := Option.bind_eq_some_iff.1 h
      obtain ⟨rfl, rfl⟩ := virtualize_fails h
      refine ⟨?_, untouched_pastHook hw (by decide) hentry (fun hv hcall => (ih hv hcall).2) hpast⟩
      obtain ⟨⟨took, w₀⟩, hborrow, hpast⟩ := Option.bind_eq_some_iff.1 hpast
      obtain ⟨⟨r, v⟩, hcall, hpast⟩ := Option.bind_eq_some_iff.1 hpast
      obtain ⟨⟨u, w₁⟩, -, hpast⟩ := Option.bind_eq_some_iff.1 hpast
      cases hpast
      exact (ih (wires_onMount .detach k _ hborrow hw) hcall).1

/-- Resolving an address that leads nowhere touches nothing. -/
theorem resolve_fails {e : Status} (hw : w.Wired) (h : resolve i address w = some (.error e, w')) :
    e = .memoryAccess ∧ w.Untouched w' := by
  unfold resolve at h
  rw [bind_of_some (get_eq w)] at h
  exact resolveWithin_fails hw h

end Act

end Interpose

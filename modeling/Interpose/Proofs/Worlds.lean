import Interpose.World.Layers

/-!
# What an operation leaves alone

Most operations have nothing to do with execute calls: they work on memory, on pooled strings, on tasks, or on the
other three hooks. Everything that an intercepted execute call relies on is then as it was before: the slot of the
execute export, the frames and counters of every hook layer, the callbacks that are kept, and the callbacks of the
instances. Such an operation is called *quiet*. What is to be kept through a whole run has to be looked at only for the
few operations that are not.

* `World.Quiet` compares the worlds before and after a quiet operation;
* `Act.Keeps` says that an operation relates the two worlds in a certain way, and comes with a rule for each way in
  which operations are put together.
-/

namespace Interpose

/-- What the execute hook of a layer works with. -/
structure ExecState where
  hook : Hook
  contexts : Contexts
  execDepth : Nat
  callbacks : Keyed InstanceId Callback
  owned : Bool
  holds : Nat

/-- The part of a hook layer that its execute hook works with. -/
def Subsystem.execState (s : Subsystem) : ExecState where
  hook := s.hooks.exec
  contexts := s.contexts
  execDepth := s.execDepth
  callbacks := s.callbacks
  owned := s.owned
  holds := s.holds

/-- An entry of the journal that only remarks on something, other than on a kept callback that is lost. -/
def Event.isRemark : Event → Bool
  | .notice (.callbackLost _) => false
  | .notice _ => true
  | .lookedUp _ _ _ _ => true
  | .mark _ => true
  | _ => false

/-- An entry of the journal that tells nothing of execute calls, suspensions or kept callbacks. -/
def Event.aside : Event → Bool
  | .resumed _ _ => true
  | .stringRemoved _ _ => true
  | .taskRemoved _ => true
  | e => e.isRemark

theorem Event.aside_of_isRemark {e : Event} (h : e.isRemark = true) : e.aside = true := by
  cases e <;> first | exact h | cases h

namespace World

variable {σ : Type}

/-! ## Parts of the world -/

/-- The callback of an instance. -/
def callback? (w : World σ) (i : InstanceId) : Option Callback :=
  (w.instance? i).map fun a => a.callback

/-- The callback that a hook layer keeps for an instance. -/
def saved? (w : World σ) (k : SubsystemId) (i : InstanceId) : Option Callback :=
  (w.subsystem? k).bind fun s => s.callbacks.get? i

/-- The frames that a hook layer has for an instance, innermost first. -/
def frames (w : World σ) (k : SubsystemId) (i : InstanceId) : List Frame :=
  ((w.subsystem? k).map fun s => s.contexts.frames i).getD []

/-- How many intercepted calls of a hook layer are under way. -/
def execDepth (w : World σ) (k : SubsystemId) : Nat :=
  ((w.subsystem? k).map fun s => s.execDepth).getD 0

/-- How many calls keep a hook layer going. -/
def holds (w : World σ) (k : SubsystemId) : Nat :=
  ((w.subsystem? k).map fun s => s.holds).getD 0

/-- The journal as a list, oldest entry first. -/
def events (w : World σ) : List Event :=
  w.journal.toList

theorem instanceId_eq {i j : InstanceId} : i.index = j.index ↔ i = j :=
  ⟨fun h => congrArg InstanceId.mk h, fun h => congrArg InstanceId.index h⟩

theorem subsystemId_eq {k l : SubsystemId} : k.index = l.index ↔ k = l :=
  ⟨fun h => congrArg SubsystemId.mk h, fun h => congrArg SubsystemId.index h⟩

/-! ## After an update -/

theorem instance?_setInstance {w : World σ} {i : InstanceId} {a : Instance} (h : w.instance? i = some a)
    (b : Instance) (j : InstanceId) :
    (w.setInstance i b).instance? j = if j = i then some b else w.instance? j := by
  have hi : i.index < w.instances.size := by
    have := Array.getElem?_eq_some_iff.1 h
    exact this.1
  unfold instance? setInstance
  rw [Array.getElem?_setIfInBounds]
  by_cases hj : j = i
  · subst hj
    simp [hi]
  · rw [if_neg hj, if_neg fun e => hj (instanceId_eq.1 e.symm)]

theorem subsystem?_setSubsystem {w : World σ} {k : SubsystemId} {s : Subsystem} (h : w.subsystem? k = some s)
    (t : Subsystem) (l : SubsystemId) :
    (w.setSubsystem k t).subsystem? l = if l = k then some t else w.subsystem? l := by
  have hk : k.index < w.subsystems.size := by
    have := Array.getElem?_eq_some_iff.1 h
    exact this.1
  unfold subsystem? setSubsystem
  rw [Array.getElem?_setIfInBounds]
  by_cases hl : l = k
  · subst hl
    simp [hk]
  · rw [if_neg hl, if_neg fun e => hl (subsystemId_eq.1 e.symm)]

theorem setSubsystem_setSubsystem (w : World σ) (k : SubsystemId) (s t : Subsystem) :
    (w.setSubsystem k s).setSubsystem k t = w.setSubsystem k t := by
  simp [setSubsystem]

@[simp] theorem events_setInstance (w : World σ) (i : InstanceId) (a : Instance) :
    (w.setInstance i a).events = w.events := rfl

@[simp] theorem events_setSubsystem (w : World σ) (k : SubsystemId) (s : Subsystem) :
    (w.setSubsystem k s).events = w.events := rfl

@[simp] theorem events_record (w : World σ) (e : Event) : (w.record e).events = w.events ++ [e] := by
  simp [events, record]

/-! ## Quiet changes -/

/-- Nothing that execute calls rely on differs between two worlds, and the journal of the second only has entries more
that tell nothing of them. Instances may have been made meanwhile; they begin with the machine's own callback. -/
structure Quiet (w w' : World σ) : Prop where
  slot : w'.exports.exec = w.exports.exec
  layers : ∀ k, (w'.subsystem? k).map Subsystem.execState = (w.subsystem? k).map Subsystem.execState
  callbacks : ∀ i, w'.callback? i = w.callback? i ∨ w.callback? i = none ∧ w'.callback? i = some .standard
  journal : ∃ es, w'.events = w.events ++ es ∧ ∀ e ∈ es, e.aside = true

theorem Quiet.refl (w : World σ) : Quiet w w where
  slot := rfl
  layers _ := rfl
  callbacks _ := .inl rfl
  journal := ⟨[], by simp⟩

theorem Quiet.trans {u v w : World σ} (h : Quiet u v) (h' : Quiet v w) : Quiet u w where
  slot := h'.slot.trans h.slot
  layers k := (h'.layers k).trans (h.layers k)
  callbacks i := by
    -- an instance that was made in the first change has its callback in the second
    rcases h.callbacks i with hi | ⟨hnone, hsome⟩
    · rw [← hi]
      exact h'.callbacks i
    · rcases h'.callbacks i with hi' | ⟨hnone', -⟩
      · exact .inr ⟨hnone, hi'.trans hsome⟩
      · rw [hsome] at hnone'
        cases hnone'
  journal := by
    obtain ⟨es, he, ha⟩ := h.journal
    obtain ⟨es', he', ha'⟩ := h'.journal
    refine ⟨es ++ es', by rw [he', he, List.append_assoc], fun e hm => ?_⟩
    rcases List.mem_append.1 hm with hm | hm
    · exact ha e hm
    · exact ha' e hm

theorem Quiet.saved? {w w' : World σ} (h : Quiet w w') (k : SubsystemId) (i : InstanceId) :
    w'.saved? k i = w.saved? k i := by
  have := congrArg (fun o => o.bind fun e : ExecState => e.callbacks.get? i) (h.layers k)
  rw [Option.bind_map, Option.bind_map] at this
  exact this

/-- The callback of an instance that was there before is the same. -/
theorem Quiet.callback?_of_some {w w' : World σ} (h : Quiet w w') {i : InstanceId} {c : Callback}
    (hc : w.callback? i = some c) : w'.callback? i = some c := by
  rcases h.callbacks i with hi | ⟨hnone, -⟩
  · rw [hi, hc]
  · rw [hc] at hnone
    cases hnone

/-- A change of one instance that leaves its callback alone is quiet. -/
theorem Quiet.setInstance {w : World σ} {i : InstanceId} {a b : Instance} (h : w.instance? i = some a)
    (hc : b.callback = a.callback) : Quiet w (w.setInstance i b) where
  slot := rfl
  layers _ := rfl
  callbacks j := by
    refine .inl ?_
    unfold callback?
    rw [instance?_setInstance h]
    split
    · rename_i hj
      rw [hj, h]
      exact congrArg some hc
    · rfl
  journal := ⟨[], by simp⟩

/-- A change of one hook layer that leaves its part in execute calls alone is quiet. -/
theorem Quiet.setSubsystem {w : World σ} {k : SubsystemId} {s t : Subsystem} (h : w.subsystem? k = some s)
    (hs : t.execState = s.execState) : Quiet w (w.setSubsystem k t) where
  slot := rfl
  layers l := by
    rw [subsystem?_setSubsystem h]
    split
    · rename_i hl
      rw [hl, h]
      exact congrArg some hs
    · rfl
  callbacks _ := .inl rfl
  journal := ⟨[], by simp⟩

/-- So is a change of what execute calls never look at. -/
theorem Quiet.of_eq {w w' : World σ} (he : w'.exports.exec = w.exports.exec) (hs : w'.subsystems = w.subsystems)
    (hi : w'.instances = w.instances) (hj : w'.journal = w.journal) : Quiet w w' where
  slot := he
  layers k := by unfold subsystem?; rw [hs]
  callbacks i := by unfold callback? instance?; rw [hi]; exact .inl rfl
  journal := ⟨[], by unfold events; rw [hj]; simp⟩

/-- The host's own state is the host's own. -/
theorem Quiet.withHost (w : World σ) (state : σ) : Quiet w { w with host := state } :=
  .of_eq rfl rfl rfl rfl

theorem Quiet.record {w : World σ} {e : Event} (he : e.aside = true) : Quiet w (w.record e) where
  slot := rfl
  layers _ := rfl
  callbacks _ := .inl rfl
  journal := ⟨[e], by simp, by simpa using he⟩

/-! ## What is there stays -/

/-- The instances and hook layers of a world are still there in another. -/
structure Persists (w w' : World σ) : Prop where
  layers : ∀ k, (w.subsystem? k).isSome → (w'.subsystem? k).isSome
  instances : ∀ i, (w.instance? i).isSome → (w'.instance? i).isSome

theorem Persists.refl (w : World σ) : Persists w w :=
  ⟨fun _ h => h, fun _ h => h⟩

theorem Persists.trans {u v w : World σ} (h : Persists u v) (h' : Persists v w) : Persists u w :=
  ⟨fun k hk => h'.layers k (h.layers k hk), fun i hi => h'.instances i (h.instances i hi)⟩

theorem Persists.setInstance {w : World σ} {i : InstanceId} {a : Instance} (h : w.instance? i = some a)
    (b : Instance) : Persists w (w.setInstance i b) where
  layers _ hk := hk
  instances j hj := by
    rw [instance?_setInstance h]
    split
    · rfl
    · exact hj

theorem Persists.setSubsystem {w : World σ} {k : SubsystemId} {s : Subsystem} (h : w.subsystem? k = some s)
    (t : Subsystem) : Persists w (w.setSubsystem k t) where
  layers l hl := by
    rw [subsystem?_setSubsystem h]
    split
    · rfl
    · exact hl
  instances _ hi := hi

theorem Quiet.persists {w w' : World σ} (h : Quiet w w') : Persists w w' where
  layers k hk := by
    have := congrArg Option.isSome (h.layers k)
    rw [Option.isSome_map, Option.isSome_map] at this
    rw [this]
    exact hk
  instances i hi := by
    have hcallback : (w.callback? i).isSome := by
      unfold callback?
      rw [Option.isSome_map]
      exact hi
    rcases h.callbacks i with he | ⟨hnone, -⟩
    · rw [← he] at hcallback
      unfold callback? at hcallback
      rwa [Option.isSome_map] at hcallback
    · rw [hnone] at hcallback
      cases hcallback

end World

/-! ## What operations keep -/

namespace Act

variable {σ α β : Type}

/-- Wherever an operation has an answer, the world before it and the world after it are related. -/
def Keeps (R : World σ → World σ → Prop) (act : Act σ α) : Prop :=
  ∀ ⦃w a w'⦄, act w = some (a, w') → R w w'

/-- What holds between a world and itself, and of two changes in a row if it holds of both. -/
structure Track (R : World σ → World σ → Prop) : Prop where
  refl : ∀ w, R w w
  trans : ∀ {u v w}, R u v → R v w → R u w

theorem track_quiet : Track (World.Quiet : World σ → World σ → Prop) :=
  ⟨.refl, .trans⟩

namespace Keeps

variable {R S : World σ → World σ → Prop}

theorem mono {act : Act σ α} (h : act.Keeps R) (hRS : ∀ {w w'}, R w w' → S w w') : act.Keeps S :=
  fun _ _ _ e => hRS (h e)

theorem pure (t : Track R) (a : α) : Keeps R (pure a : Act σ α) := by
  intro w b w' h
  cases h
  exact t.refl w

theorem bind (t : Track R) {act : Act σ α} {next : α → Act σ β} (h : act.Keeps R) (hn : ∀ a, (next a).Keeps R) :
    (act >>= next).Keeps R := by
  intro w b w' e
  obtain ⟨⟨a, v⟩, hv, e⟩ := Option.bind_eq_some_iff.1 e
  exact t.trans (h hv) (hn a e)

theorem undefined : Keeps R (undefined : Act σ α) := by
  intro w a w' h
  cases h

theorem ofOption (t : Track R) (o : Option α) : (Act.ofOption o : Act σ α).Keeps R := by
  cases o with
  | none => exact undefined
  | some a => exact .pure t a

theorem get (t : Track R) : Keeps R (get : Act σ (World σ)) := by
  intro w a w' h
  cases h
  exact t.refl w

theorem getInstance (t : Track R) (i : InstanceId) : (Act.getInstance i : Act σ Instance).Keeps R := by
  intro w a w' h
  obtain ⟨b, -, e⟩ := Option.map_eq_some_iff.1 h
  cases e
  exact t.refl w

theorem getSubsystem (t : Track R) (k : SubsystemId) : (Act.getSubsystem k : Act σ Subsystem).Keeps R := by
  intro w a w' h
  obtain ⟨s, -, e⟩ := Option.map_eq_some_iff.1 h
  cases e
  exact t.refl w

theorem onInstance {i : InstanceId} {f : Instance → α × Instance}
    (h : ∀ w a, w.instance? i = some a → R w (w.setInstance i (f a).2)) : (Act.onInstance i f : Act σ α).Keeps R := by
  intro w b w' e
  obtain ⟨a, ha, e⟩ := Option.map_eq_some_iff.1 e
  cases e
  exact h w a ha

theorem onInstance? {i : InstanceId} {f : Instance → Option (α × Instance)}
    (h : ∀ w a r, w.instance? i = some a → f a = some r → R w (w.setInstance i r.2)) :
    (Act.onInstance? i f : Act σ α).Keeps R := by
  intro w b w' e
  obtain ⟨a, ha, e⟩ := Option.bind_eq_some_iff.1 e
  obtain ⟨r, hr, e⟩ := Option.map_eq_some_iff.1 e
  cases e
  exact h w a r ha hr

theorem onSubsystem {k : SubsystemId} {f : Subsystem → α × Subsystem}
    (h : ∀ w s, w.subsystem? k = some s → R w (w.setSubsystem k (f s).2)) :
    (Act.onSubsystem k f : Act σ α).Keeps R := by
  intro w b w' e
  obtain ⟨s, hs, e⟩ := Option.map_eq_some_iff.1 e
  cases e
  exact h w s hs

theorem record {e : Event} (h : ∀ w, R w (w.record e)) : (Act.record e : Act σ Unit).Keeps R := by
  intro w a w' he
  cases he
  exact h w

end Keeps

/-- An operation whose answer is known, and another after it. -/
theorem bind_of_some {x : Act σ α} {next : α → Act σ β} {a : α} {w v : World σ} (h : x w = some (a, v)) :
    (x >>= next) w = next a v := by
  show Option.bind (x w) _ = _
  rw [h]
  rfl

/-- Working on a layer writes nothing into the journal. -/
theorem events_onSubsystem {l : SubsystemId} {f : Subsystem → α × Subsystem} {w w' : World σ} {a : α}
    (h : onSubsystem l f w = some (a, w')) : w'.events = w.events := by
  obtain ⟨s, -, eq⟩ := Option.map_eq_some_iff.1 h
  cases eq
  rfl

end Act

end Interpose

import Interpose.Proofs.Hooks

/-!
# Callbacks and those kept for them

While an intercepted call is passed on, its instance has the callback of the layer, and the layer keeps the one that the
instance had. The two go together: an instance has the callback of the layer exactly while one is kept for it
(`World.Paired`). What the instance calls natives through in the end is the callback that is kept, if there is one
(`World.original?`), and that never changes.

An instance that is unloaded while a callback is kept for it would be left with the callback of the layer and nothing
behind it. Histories in which that happened are left out (`World.Clean`).

Main statement: `Operation.afterwards_perform`, that the host keeps all this up as long as it leaves callbacks alone.
-/

namespace Interpose

variable {σ α : Type}

/-- An entry that tells of an instance that was unloaded while its callback was kept. -/
def Event.leavesCallback (k : SubsystemId) : Event → Bool
  | .unloaded l _ kept => l == k && kept
  | _ => false

namespace World

/-- The callback that natives of an instance are called through in the end. -/
def original? (w : World σ) (k : SubsystemId) (i : InstanceId) : Option Callback :=
  (w.saved? k i).or (w.callback? i)

/-- No instance was unloaded while its callback was kept. -/
def Clean (k : SubsystemId) (w : World σ) : Prop :=
  ∀ i, Event.unloaded k i true ∉ w.events

theorem clean_iff {k : SubsystemId} {w : World σ} : (∀ e ∈ w.events, e.leavesCallback k = false) ↔ Clean k w := by
  refine ⟨fun h i hi => ?_, fun h e he => ?_⟩
  · have := h _ hi
    simp [Event.leavesCallback] at this
  · cases e with
    | unloaded l i kept =>
      refine Bool.eq_false_iff.2 fun hleaves => ?_
      obtain ⟨hl, hkept⟩ := Bool.and_eq_true_iff.1 hleaves
      rw [eq_of_beq hl, hkept] at he
      exact h i he
    | _ => rfl

instance (k : SubsystemId) (w : World σ) : Decidable (Clean k w) :=
  decidable_of_iff _ clean_iff

/-- An instance has the callback of the layer exactly while another is kept for it, and then calls are under way that
keep the layer going. That a callback was lost is `told` by the host only. -/
structure Paired (k : SubsystemId) (told : InstanceId → Prop) (w : World σ) : Prop where
  intercepts : ∀ i, w.callback? i = some (.intercept k) ↔ (w.saved? k i).isSome
  proper : ∀ i, w.saved? k i ≠ some (.intercept k)
  going : ∀ i, (w.saved? k i).isSome → 0 < w.holds k
  unlost : ∀ i, .notice (.callbackLost i) ∈ w.events → told i

/-- What a change keeps up that may stop halfway: callbacks stay paired, and lead to the same originals. -/
structure Meanwhile (k : SubsystemId) (told : InstanceId → Prop) (w w' : World σ) : Prop where
  grows : w.events <+: w'.events
  paired : Clean k w' → Paired k told w → Paired k told w'
  originals : Clean k w' → Paired k told w → ∀ i c, w.original? k i = some c → w'.original? k i = some c

/-- What a change keeps up that is over: besides, no callback is kept that was not kept before. -/
structure Afterwards (k : SubsystemId) (told : InstanceId → Prop) (w w' : World σ) : Prop extends
    Meanwhile k told w w' where
  back : Clean k w' → Paired k told w → ∀ i, w.saved? k i = none → w'.saved? k i = none

variable {k : SubsystemId} {told : InstanceId → Prop}

/-- An entry stays in the journal, so what is clean was clean. -/
theorem Meanwhile.clean {w w' : World σ} (h : Meanwhile k told w w') (hc : Clean k w') : Clean k w := by
  intro i hi
  exact hc i (h.grows.subset hi)

theorem Meanwhile.refl (w : World σ) : Meanwhile k told w w :=
  ⟨List.prefix_rfl, fun _ h => h, fun _ _ _ _ h => h⟩

theorem Meanwhile.trans {u v w : World σ} (h : Meanwhile k told u v) (h' : Meanwhile k told v w) :
    Meanwhile k told u w where
  grows := h.grows.trans h'.grows
  paired hc hp := h'.paired hc (h.paired (h'.clean hc) hp)
  originals hc hp i c hi :=
    h'.originals hc (h.paired (h'.clean hc) hp) i c (h.originals (h'.clean hc) hp i c hi)

theorem Afterwards.refl (w : World σ) : Afterwards k told w w :=
  ⟨.refl w, fun _ _ _ h => h⟩

theorem Afterwards.trans {u v w : World σ} (h : Afterwards k told u v) (h' : Afterwards k told v w) :
    Afterwards k told u w where
  toMeanwhile := h.toMeanwhile.trans h'.toMeanwhile
  back hc hp i hi :=
    h'.back hc (h.paired (h'.clean hc) hp) i (h.back (h'.clean hc) hp i hi)

/-- Of worlds that are not clean, and of what begins with callbacks that are not paired, nothing is asked. -/
theorem Meanwhile.of_paired {w w' : World σ} (hg : w.events <+: w'.events)
    (h : Paired k told w → Meanwhile k told w w') : Meanwhile k told w w' :=
  ⟨hg, fun hc hp => (h hp).paired hc hp, fun hc hp => (h hp).originals hc hp⟩

theorem Afterwards.of_paired {w w' : World σ} (hg : w.events <+: w'.events)
    (h : Paired k told w → Afterwards k told w w') : Afterwards k told w w' :=
  ⟨.of_paired hg fun hp => (h hp).toMeanwhile, fun hc hp => (h hp).back hc hp⟩

/-! ## What an instance is called through -/

theorem original?_of_saved? {w : World σ} {i : InstanceId} {c : Callback} (h : w.saved? k i = some c) :
    w.original? k i = some c := by
  unfold original?
  rw [h]
  rfl

theorem original?_of_none {w : World σ} {i : InstanceId} (h : w.saved? k i = none) :
    w.original? k i = w.callback? i := by
  unfold original?
  rw [h]
  rfl

/-- What a callback leads to in the end is never the callback of the layer. -/
theorem Paired.original?_ne {w : World σ} (h : Paired k told w) (i : InstanceId) :
    w.original? k i ≠ some (.intercept k) := by
  cases hs : w.saved? k i with
  | some c =>
    rw [original?_of_saved? hs, ← hs]
    exact h.proper i
  | none =>
    rw [original?_of_none hs]
    intro hc
    have := (h.intercepts i).1 hc
    rw [hs] at this
    cases this

/-! ## Changes -/

/-- Where neither callbacks nor those that are kept differ, there is nothing to be shown but that nobody told of a loss.
Instances may have been made meanwhile. -/
theorem Afterwards.of_same {w w' : World σ}
    (hc : ∀ i, w'.callback? i = w.callback? i ∨ w.callback? i = none ∧ w'.callback? i = some .standard)
    (hs : ∀ i, w'.saved? k i = w.saved? k i) (hn : 0 < w.holds k → 0 < w'.holds k)
    (he : ∃ es, w'.events = w.events ++ es ∧ ∀ i, .notice (.callbackLost i) ∈ es → told i) :
    Afterwards k told w w' := by
  obtain ⟨es, hes, htold⟩ := he
  -- nothing is kept for an instance that was not there
  have hnew : Paired k told w → ∀ i, w.callback? i = none → w.saved? k i = none := by
    intro hp i hi
    refine Option.eq_none_iff_forall_ne_some.2 fun c hk => ?_
    have := (hp.intercepts i).2 (by rw [hk]; rfl)
    rw [hi] at this
    cases this
  refine ⟨⟨⟨es, hes.symm⟩, fun _ hp => ⟨fun i => ?_, fun i => ?_, fun i hi => ?_, fun i hi => ?_⟩, fun _ hp i c hi => ?_⟩,
    fun _ _ i hi => (hs i).trans hi⟩
  · rw [hs]
    rcases hc i with h | ⟨hnone, hstandard⟩
    · rw [h]
      exact hp.intercepts i
    · rw [hstandard, hnew hp i hnone]
      exact ⟨nofun, nofun⟩
  · rw [hs]
    exact hp.proper i
  · rw [hs] at hi
    exact hn (hp.going i hi)
  · rw [hes] at hi
    rcases List.mem_append.1 hi with hi | hi
    · exact hp.unlost i hi
    · exact htold i hi
  · unfold original?
    rw [hs]
    rcases hc i with h | ⟨hnone, -⟩
    · rw [h]
      exact hi
    · rw [original?_of_none (hnew hp i hnone), hnone] at hi
      cases hi

theorem Quiet.afterwards {w w' : World σ} (h : Quiet w w') : Afterwards k told w w' := by
  refine .of_same h.callbacks (h.saved? k) (fun hn => ?_) ?_
  · rw [h.hookKept.holds]
    exact hn
  · obtain ⟨es, hes, haside⟩ := h.journal
    exact ⟨es, hes, fun i hi => nomatch haside _ hi⟩

/-- Giving an instance back what its callback leads to. -/
theorem Afterwards.of_back {w w' : World σ} {i : InstanceId}
    (hc : ∀ j, w'.callback? j = if j = i then w.original? k i else w.callback? j)
    (hs : ∀ j, w'.saved? k j = if j = i then none else w.saved? k j) (hn : w'.holds k = w.holds k)
    (he : w'.events = w.events) : Afterwards k told w w' := by
  -- of other instances nothing changes, and of this one only where its callback is found
  have hi : w'.saved? k i = none := (hs i).trans (if_pos rfl)
  have horiginal : w'.callback? i = w.original? k i := (hc i).trans (if_pos rfl)
  refine ⟨⟨he ▸ List.prefix_rfl, fun _ hp => ⟨fun j => ?_, fun j => ?_, fun j hj => ?_, fun j hj => ?_⟩,
    fun _ hp j c hj => ?_⟩, fun _ _ j hj => ?_⟩
  · by_cases hji : j = i
    · subst hji
      rw [hi, horiginal]
      exact ⟨fun h => absurd h (hp.original?_ne j), nofun⟩
    · rw [hc, hs, if_neg hji, if_neg hji]
      exact hp.intercepts j
  · rw [hs]
    split
    · exact nofun
    · exact hp.proper j
  · rw [hn]
    rw [hs] at hj
    split at hj
    · cases hj
    · exact hp.going j hj
  · rw [he] at hj
    exact hp.unlost j hj
  · by_cases hji : j = i
    · subst hji
      rw [original?_of_none hi, horiginal]
      exact hj
    · unfold original?
      rw [hc, hs, if_neg hji, if_neg hji]
      exact hj
  · rw [hs]
    split
    · rfl
    · exact hj

/-- Giving an instance the callback of the layer, and keeping the one it had, unless one is kept already. -/
theorem Meanwhile.of_swap {w w' : World σ} {i : InstanceId} {c : Callback} (hi : w.callback? i = some c)
    (hc : ∀ j, w'.callback? j = if j = i then some (.intercept k) else w.callback? j)
    (hs : ∀ j, w'.saved? k j = if j = i then some ((w.saved? k i).getD c) else w.saved? k j)
    (hgoing : 0 < w'.holds k) (he : w'.events = w.events) : Meanwhile k told w w' := by
  -- in either case what is kept is what the callback led to before
  have horiginal : w'.saved? k i = w.original? k i := by
    rw [hs, if_pos rfl]
    cases hk : w.saved? k i with
    | some c' => rw [original?_of_saved? hk]; rfl
    | none => rw [original?_of_none hk, hi]; rfl
  refine ⟨he ▸ List.prefix_rfl, fun _ hp => ⟨fun j => ?_, fun j => ?_, fun _ _ => hgoing, fun j hj => ?_⟩,
    fun _ _ j c' hj => ?_⟩
  · rw [hc, hs]
    split
    · exact ⟨fun _ => rfl, fun _ => rfl⟩
    · exact hp.intercepts j
  · by_cases hji : j = i
    · subst hji
      rw [horiginal]
      exact hp.original?_ne j
    · rw [hs, if_neg hji]
      exact hp.proper j
  · rw [he] at hj
    exact hp.unlost j hj
  · by_cases hji : j = i
    · subst hji
      exact original?_of_saved? (horiginal.trans hj)
    · unfold original?
      rw [hc, hs, if_neg hji, if_neg hji]
      exact hj

/-- As long as callbacks are paired, one is kept for an instance that has the callback of the layer. -/
theorem Afterwards.of_lost {w w' : World σ} {i : InstanceId} (hg : w.events <+: w'.events)
    (hc : w.callback? i = some (.intercept k)) (hnone : w.saved? k i = none) : Afterwards k told w w' := by
  refine .of_paired hg fun hp => ?_
  have hkept := (hp.intercepts i).1 hc
  rw [hnone] at hkept
  cases hkept

/-- A call after which nothing is kept for its instance, however it began. -/
theorem Afterwards.of_passed {w w₁ w₂ : World σ} {i : InstanceId} (h₁ : Meanwhile k told w w₁)
    (h₂ : Afterwards k told w₁ w₂) (hs : ∀ j, j ≠ i → w₁.saved? k j = w.saved? k j) (hi : w₂.saved? k i = none) :
    Afterwards k told w w₂ := by
  refine ⟨h₁.trans h₂.toMeanwhile, fun hc hp j hj => ?_⟩
  by_cases hji : j = i
  · rw [hji]
    exact hi
  · exact h₂.back hc (h₁.paired (h₂.clean hc) hp) j ((hs j hji).trans hj)

/-- One call more keeps the layer going. -/
theorem Counted.afterwards {w w' : World σ} (h : Counted k (· + 1) w w') : Afterwards k told w w' := by
  refine .of_same (fun i => .inl (h.callback i)) h.saved (fun _ => ?_) ⟨[], ?_, fun _ => nofun⟩
  · rw [h.holds]
    exact Nat.succ_pos _
  · rw [h.events, List.append_nil]

/-- When a call is over, it does not keep the layer going any longer; but all that is still kept was kept before, so
other calls do. -/
theorem Afterwards.counted {w w₂ w₃ : World σ} (h : Afterwards k told w w₂) (h₃ : Counted k (· - 1) w₂ w₃)
    (hn : w₃.holds k = w.holds k) : Afterwards k told w w₃ := by
  have hclean : Clean k w₃ → Clean k w₂ := by
    intro hc i hi
    refine hc i ?_
    rw [h₃.events]
    exact hi
  refine ⟨⟨h₃.events ▸ h.grows, fun hc hp => ?_, fun hc hp i c hi => ?_⟩, fun hc hp i hi => ?_⟩
  · have hp₂ := h.paired (hclean hc) hp
    refine ⟨fun i => ?_, fun i => ?_, fun i hi => ?_, fun i hi => ?_⟩
    · rw [h₃.callback, h₃.saved]
      exact hp₂.intercepts i
    · rw [h₃.saved]
      exact hp₂.proper i
    · rw [hn]
      refine hp.going i (Option.isSome_iff_ne_none.2 fun hnone => ?_)
      rw [h₃.saved, h.back (hclean hc) hp i hnone] at hi
      cases hi
    · rw [h₃.events] at hi
      exact hp₂.unlost i hi
  · unfold original?
    rw [h₃.callback, h₃.saved]
    exact h.originals (hclean hc) hp i c hi
  · rw [h₃.saved]
    exact h.back (hclean hc) hp i hi

end World

/-! ## Operations -/

namespace Act

open World

variable {k : SubsystemId} {told : InstanceId → Prop}

theorem track_afterwards (k : SubsystemId) (told : InstanceId → Prop) :
    Track (Afterwards k told : World σ → World σ → Prop) :=
  ⟨.refl, .trans⟩

theorem afterwards_record {e : Event} (h : ∀ i, e = .notice (.callbackLost i) → told i) :
    (record e : Act σ Unit).Keeps (Afterwards k told) := by
  refine .record fun w => .of_same (fun _ => .inl rfl) (fun _ => rfl) (fun h => h) ?_
  refine ⟨[e], events_record w e, fun i hi => ?_⟩
  exact h i (List.mem_singleton.1 hi).symm

/-- Working on a hook. -/
theorem afterwards_onMount (l : SubsystemId) (x : Export) (f : Mount → α × Mount) :
    (onMount l x f : Act σ α).Keeps (Afterwards k told) := by
  intro w a w' he
  obtain ⟨hcallbacks, hsaved, hevents⟩ := callbacks_onMount (k := k) he
  refine .of_same (fun i => .inl (hcallbacks i)) hsaved (fun hn => ?_) ⟨[], ?_, nofun⟩
  · rw [holds_onMount he]
    exact hn
  · rw [hevents, List.append_nil]

/-- A change of a layer other than of its hooks, of the callbacks it keeps and of what keeps it going. -/
theorem afterwards_setSubsystem {w : World σ} {l : SubsystemId} {s t : Subsystem} (hs : w.subsystem? l = some s)
    (hh : t.hooks = s.hooks) (hc : t.callbacks = s.callbacks) (hn : t.holds = s.holds) :
    Afterwards k told w (w.setSubsystem l t) := by
  refine .of_same (fun _ => .inl rfl) (fun i => ?_) (fun h => ?_) ⟨[], (List.append_nil _).symm, fun _ => nofun⟩
  · rw [saved?_setSubsystem hs]
    split
    · rename_i hk
      rw [hk, saved?_of_subsystem? hs, hc]
    · rfl
  · rw [(HookKept.setSubsystem hs hh hn).holds]
    exact h

theorem counting_afterwards (k : SubsystemId) (told : InstanceId → Prop) :
    Counting (Afterwards k told : World σ → World σ → Prop) where
  toMild := .of_quiet (track_afterwards k told) Quiet.afterwards
  setContexts _ hs := afterwards_setSubsystem hs rfl rfl rfl
  disown hs := afterwards_setSubsystem hs rfl rfl rfl
  toggle l x on := afterwards_onMount l x fun m => m.toggle on
  asked _ _ he := afterwards_record (fun i hi => by rw [hi] at he; cases he) rfl
  setDepth _ hs := afterwards_setSubsystem hs rfl rfl rfl
  entered _ _ _ := afterwards_record nofun rfl
  left _ _ _ := afterwards_record nofun rfl
  collect l := (quiet_onPool l _).mono Quiet.afterwards

/-- Dropping the callback that is kept for an instance changes nothing if none is. -/
theorem afterwards_forgetCallback {l : SubsystemId} {i : InstanceId} {kept : Bool} {w w' : World σ}
    (h : forgetCallback l i w = some (kept, w')) (hkept : l = k → kept = false) : Afterwards k told w w' := by
  have hevents : w'.events = w.events ++ [] := by
    rw [List.append_nil]
    exact events_onSubsystem h
  have hholds : w'.holds k = w.holds k := (hookKept_forgetCallback l i h).holds
  obtain ⟨s, hs, eq⟩ := Option.map_eq_some_iff.1 h
  cases eq
  refine .of_same (fun _ => .inl rfl) (fun j => ?_) (fun hn => ?_) ⟨[], hevents, fun _ => nofun⟩
  · rw [saved?_setSubsystem hs]
    split
    · rename_i hk
      have hnone : s.callbacks.get? i = none := Option.not_isSome_iff_eq_none.1 (Bool.eq_false_iff.1 (hkept hk.symm))
      rw [hk, saved?_of_subsystem? hs, Keyed.get?_erase]
      split
      · rename_i hj
        rw [hj]
        exact hnone.symm
      · rfl
    · rfl
  · rw [hholds]
    exact hn

/-- An instance may be unloaded; where no callback was kept for it, that leaves all others paired. -/
theorem afterwards_unload (l : SubsystemId) (i : InstanceId) : (unload l i : Act σ Unit).Keeps (Afterwards k told) := by
  intro w u w' h
  obtain ⟨⟨listed, w₁⟩, h₁, h⟩ := Option.bind_eq_some_iff.1 h
  obtain ⟨⟨kept, w₂⟩, h₂, h⟩ := Option.bind_eq_some_iff.1 h
  obtain ⟨⟨bound, w₃⟩, h₃, h⟩ := Option.bind_eq_some_iff.1 h
  cases h
  by_cases hkept : l = k ∧ kept = true
  · -- a history that is not clean
    have hevents : (w₃.record (.unloaded l i kept)).events = w.events ++ [.unloaded l i kept] := by
      rw [events_record, events_onSubsystem h₃, events_onSubsystem h₂, events_onSubsystem h₁]
    have hunclean : ¬ Clean k (w₃.record (.unloaded l i kept)) := by
      intro hc
      refine hc i ?_
      rw [hevents, hkept.1, hkept.2]
      exact List.mem_append_right _ (List.mem_singleton_self _)
    exact ⟨⟨⟨_, hevents.symm⟩, fun hc => absurd hc hunclean, fun hc => absurd hc hunclean⟩, fun hc => absurd hc hunclean⟩
  · have hframes : Afterwards k told w w₁ := (counting_afterwards k told).onContexts l _ h₁
    have hforget : Afterwards k told w₁ w₂ :=
      afterwards_forgetCallback h₂ fun hl => Bool.eq_false_iff.2 fun hk => hkept ⟨hl, hk⟩
    have hpool : Afterwards k told w₂ w₃ := (quiet_onPool l _ h₃).afterwards
    have hrecord : Afterwards k told w₃ (w₃.record (.unloaded l i kept)) := afterwards_record nofun rfl
    exact ((hframes.trans hforget).trans hpool).trans hrecord

/-! ## Passing a call on -/

theorem meanwhile_swapCallback {i : InstanceId} {w w' : World σ}
    (h : swapCallback k i (.intercept k) w = some ((), w')) (hn : 0 < w.holds k) : Meanwhile k told w w' := by
  have hholds : w'.holds k = w.holds k := (hookKept_swapCallback k i _ h).holds
  obtain ⟨c, hc, hcallback, hsaved, hevents, -⟩ := swapCallback_spec h
  exact .of_swap hc hcallback hsaved (hholds ▸ hn) hevents

/-- Taking the callback that is kept for an instance, and giving it back to the instance later. -/
theorem afterwards_giveBack {i : InstanceId} {c : Callback} {f : Instance → α × Instance} {a : α}
    {w w₁ w₂ w₃ : World σ} (h₁ : takeCallback k i w = some (some c, w₁)) (hevents : w₂.events = w₁.events)
    (hcallback : ∀ j, w₂.callback? j = w₁.callback? j) (hsaved : ∀ j, w₂.saved? k j = w₁.saved? k j)
    (hholds : w₂.holds k = w.holds k) (h₃ : onInstance i f w₂ = some (a, w₃)) (hf : ∀ b, (f b).2.callback = c) :
    Afterwards k told w w₃ := by
  obtain ⟨hc, hcallback₁, hsaved₁, hevents₁⟩ := takeCallback_spec h₁
  obtain ⟨b, hb, eq⟩ := Option.map_eq_some_iff.1 h₃
  cases eq
  have hgiven : ∀ j, (w₂.setInstance i (f b).2).callback? j = if j = i then w.original? k i else w.callback? j := by
    intro j
    rw [callback?_setInstance hb, hf, original?_of_saved? hc.symm, hcallback, hcallback₁]
  have htaken : ∀ j, (w₂.setInstance i (f b).2).saved? k j = if j = i then none else w.saved? k j := by
    intro j
    exact (hsaved j).trans (hsaved₁ j)
  exact .of_back hgiven htaken hholds (hevents.trans hevents₁)

/-- After a call nothing is kept for its instance. -/
theorem afterwards_restoreCallback {i : InstanceId} {restored : Bool} {w w' : World σ}
    (h : restoreCallback k i w = some (restored, w')) : Afterwards k told w w' ∧ w'.saved? k i = none := by
  obtain ⟨⟨kept, w₁⟩, h₁, h⟩ := Option.bind_eq_some_iff.1 h
  have hholds : w₁.holds k = w.holds k := (hookKept_takeCallback k i h₁).holds
  obtain ⟨hkept, hcallback, hsaved, hevents⟩ := takeCallback_spec h₁
  cases kept with
  | some c =>
    refine ⟨afterwards_giveBack h₁ rfl (fun _ => rfl) (fun _ => rfl) hholds h fun _ => rfl, ?_⟩
    obtain ⟨b, -, eq⟩ := Option.map_eq_some_iff.1 h
    cases eq
    exact (hsaved i).trans (if_pos rfl)
  | none =>
    cases h
    refine ⟨.of_same (fun j => .inl (hcallback j)) (fun j => ?_) (fun hn => hholds ▸ hn) ⟨[], ?_, fun _ => nofun⟩,
      (hsaved i).trans (if_pos rfl)⟩
    · rw [hsaved]
      split
      · rename_i hj
        rw [hj]
        exact hkept
      · rfl
    · rw [hevents, List.append_nil]

end Act

/-- Whether an operation leaves the callbacks of instances, and those that are kept, to the layers: it makes no other
layer either, and tells of lost callbacks only as `told`. -/
def Operation.leavesCallbacks (told : InstanceId → Prop) : Operation → Prop
  | newSubsystem _ _ => False
  | swapCallback _ _ _ | takeCallback _ _ | restoreCallback _ _ | forgetCallback _ _ => False
  | notify (.callbackLost i) => told i
  | _ => True

theorem Operation.keepsLayers_of_leavesCallbacks {told : InstanceId → Prop} {o : Operation}
    (h : o.leavesCallbacks told) : o.keepsLayers := by
  cases o with
  | newSubsystem config collaborators => exact h.elim
  | _ => trivial

open Act in
theorem Operation.afterwards_perform {k : SubsystemId} {told : InstanceId → Prop} (ids : CallbackIds σ)
    (resume : Resume σ) {o : Operation} (h : o.leavesCallbacks told) :
    (o.perform ids resume).Keeps (World.Afterwards k told) := by
  by_cases hcommon : o.isCommon = true
  · exact (counting_afterwards k told).perform ids resume hcommon fun l _ => (counting_afterwards k told).collect l
  cases o with
  | unload l i => exact afterwards_unload l i
  | newSubsystem config collaborators => exact h.elim
  | swapCallback l i code => exact h.elim
  | takeCallback l i => exact h.elim
  | restoreCallback l i => exact h.elim
  | forgetCallback l i => exact h.elim
  | notify n =>
    cases n with
    | callbackLost i =>
      refine afterwards_record fun j hj => ?_
      cases hj
      exact h
    | _ => exact absurd rfl hcommon
  | _ => exact absurd rfl hcommon

end Interpose

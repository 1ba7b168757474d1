import Interpose.Proofs.Stages
import Interpose.Proofs.Veils

/-!
# Interception is transparent to unaware code

A hook layer opens frames, takes callbacks and hooks and puts them back, and asks its pool and its event source; unaware
code sees nothing of it. An execute call behind a layer, of whose four hooks any may be in their slots, is over whenever
the call is over that meets the machine's own entries, and then with the same answer, the same memory, registers and error
of every instance, and every instance with the callback that it had.

The two calls are followed side by side. The call behind the layer takes one more call to get to the machine's own entry,
and so does the first native call in it; so it may nest twice as deep, but uses the same fuel.

Main statement: `Machine.transparent_exec`.
-/

namespace Interpose

open World

variable {σ α : Type} {k : SubsystemId} {own : InstanceId → Option Callback} {kept kept' : InstanceId → Prop}
  {w w' v v' : World σ} {i : InstanceId} {a : Instance} {c : Callback} {s : Subsystem} {x : Export} {m : Mount}

/-! ## What the layer does on its own side -/

namespace World

/-- A change of a layer of which nothing is seen. -/
structure Unseen (k : SubsystemId) (w w' : World σ) : Prop where
  instances : w'.instances = w.instances
  host : w'.host = w.host
  exports : w'.exports = w.exports
  layer : ∀ s, w.subsystem? k = some s → ∃ t, w'.subsystem? k = some t ∧ t.hooks = s.hooks ∧ t.owned = s.owned ∧
    t.refArgs = s.refArgs ∧ t.collaborators = s.collaborators ∧ t.callbacks = s.callbacks

theorem Unseen.setSubsystem {l : SubsystemId} {s t : Subsystem} (hs : w.subsystem? l = some s)
    (ht : t.hooks = s.hooks ∧ t.owned = s.owned ∧ t.refArgs = s.refArgs ∧ t.collaborators = s.collaborators ∧
      t.callbacks = s.callbacks) : Unseen k w (w.setSubsystem l t) := by
  refine ⟨rfl, rfl, rfl, fun r hr => ?_⟩
  rw [subsystem?_setSubsystem hs]
  split
  · rename_i hk
    obtain rfl : r = s := Option.some.inj (hr.symm.trans (hk ▸ hs))
    exact ⟨t, rfl, ht⟩
  · exact ⟨r, hr, rfl, rfl, rfl, rfl, rfl⟩

theorem Unseen.record (w : World σ) (e : Event) : Unseen k w (w.record e) :=
  ⟨rfl, rfl, rfl, fun s hs => ⟨s, hs, rfl, rfl, rfl, rfl, rfl⟩⟩

theorem setInstance_self (h : w.instance? i = some a) : w.setInstance i a = w := by
  obtain ⟨hsize, ha⟩ := Array.getElem?_eq_some_iff.1 h
  simp [setInstance, Array.setIfInBounds, hsize, ← ha]

namespace Veils

theorem mono (h : Veils k own kept w w') (hkept : ∀ j, kept j → kept' j) : Veils k own kept' w w' :=
  { h with taken := fun j c hc => (h.taken j c hc).imp id fun h => ⟨h.1, h.2.1, hkept j h.2.2⟩ }

theorem unseen (h : Veils k own kept w w') (hu : Unseen k w' v') : Veils k own kept w v' := by
  obtain ⟨s, hs, hsheer⟩ := h.layer
  obtain ⟨t, ht, hhooks, howned, hrefs, hcollaborators, hcallbacks⟩ := hu.layer s hs
  have hinstance : ∀ j, v'.instance? j = w'.instance? j := fun j => congrArg (·[j.index]?) hu.instances
  refine ⟨h.plain, ⟨hu.host.trans h.looks.host, fun j => ?_⟩, h.natives, h.callbacks, h.proper, fun j c hc => ?_, t, ht, ?_⟩
  · rw [hinstance, h.looks.instances]
  · have hsaved : v'.saved? k j = w'.saved? k j := by
      rw [saved?_of_subsystem? ht, saved?_of_subsystem? hs, hcallbacks]
    have hcallback : v'.callback? j = w'.callback? j := congrArg (Option.map _) (hinstance j)
    rw [hsaved, hcallback]
    exact h.taken j c hc
  · refine ⟨howned.trans hsheer.owned, hrefs.trans hsheer.refArgs, ?_, fun x => ?_⟩
    · rw [hcollaborators, hsheer.events]
    · rw [hhooks, hu.exports]
      exact hsheer.sound x

/-- A hook may be taken out of its slot, and put back. -/
theorem remount (h : Veils k own kept w w') (hs : w'.subsystem? k = some s) (hm : m.Sound k) :
    Veils k own kept w (w'.remount k x s m) := by
  obtain ⟨t, ht, hsheer⟩ := h.layer
  obtain rfl : s = t := Option.some.inj (hs.symm.trans ht)
  refine ⟨h.plain, ⟨h.looks.host, h.looks.instances⟩, h.natives, h.callbacks, h.proper, fun j c hc => ?_, _,
    subsystem?_remount hs m, hsheer.owned, hsheer.refArgs, hsheer.events, fun y => ?_⟩
  · have hsaved : (w'.remount k x s m).saved? k j = w'.saved? k j := by
      rw [saved?_of_subsystem? (subsystem?_remount hs m), saved?_of_subsystem? hs]
    rw [hsaved]
    exact h.taken j c hc
  · show Mount.Sound k ⟨(s.hooks.set m.hook x).get y, (w'.exports.set m.slot x).get y⟩
    rw [PerExport.get_set, PerExport.get_set]
    split
    · exact hm
    · exact hsheer.sound y

/-- The callback of one instance changes, and what is kept for it. -/
theorem exchange (h : Veils k own kept w w') (ha : w'.instance? i = some a) (hs : w'.subsystem? k = some s)
    {d : Callback} {r : Keyed InstanceId Callback}
    (hself : ∀ c, own i = some c → d = c ∧ r.get? i = none ∨ d = .intercept k ∧ r.get? i = some c ∧ kept' i)
    (hothers : ∀ j, j ≠ i → r.get? j = s.callbacks.get? j ∧ (kept j → kept' j)) :
    Veils k own kept' w ((w'.setInstance i (a.withCallback d)).setSubsystem k { s with callbacks := r }) := by
  have hs₁ : (w'.setInstance i (a.withCallback d)).subsystem? k = some s := hs
  obtain ⟨t, ht, hsheer⟩ := h.layer
  obtain rfl : s = t := Option.some.inj (hs.symm.trans ht)
  refine ⟨h.plain, ⟨h.looks.host, fun j => ?_⟩, h.natives, h.callbacks, h.proper, fun j c hc => ?_, _,
    (subsystem?_setSubsystem hs₁ _ k).trans (if_pos rfl), hsheer.owned, hsheer.refArgs, hsheer.events, hsheer.sound⟩
  · show ((w'.setInstance i (a.withCallback d)).instance? j).map _ = _
    rw [instance?_setInstance ha, ← h.looks.instances]
    split
    · rename_i hj
      rw [hj, ha]
      rfl
    · rfl
  · rw [saved?_setSubsystem hs₁, if_pos rfl]
    show (w'.setInstance i (a.withCallback d)).callback? j = _ ∧ _ ∨
      (w'.setInstance i (a.withCallback d)).callback? j = _ ∧ _
    rw [callback?_setInstance ha]
    by_cases hj : j = i
    · subst hj
      rw [if_pos rfl]
      exact (hself c hc).imp (fun h => ⟨congrArg some h.1, h.2⟩) fun h => ⟨congrArg some h.1, h.2⟩
    · rw [if_neg hj, (hothers j hj).1, ← saved?_of_subsystem? hs]
      exact (h.taken j c hc).imp id fun h => ⟨h.1, h.2.1, (hothers j hj).2 h.2.2⟩

theorem isSome_layer (h : Veils k own kept w w') : (w'.subsystem? k).isSome := by
  obtain ⟨s, hs, -⟩ := h.layer
  rw [hs]
  rfl

/-- An instance whose callback is told is there. -/
theorem instance?_of_own (h : Veils k own kept w w') (hc : own i = some c) : ∃ b, w'.instance? i = some b := by
  have hcallback := h.callbacks i
  rw [hc] at hcallback
  obtain ⟨a, ha, -⟩ := Option.map_eq_some_iff.1 hcallback
  obtain ⟨c', ha'⟩ := h.looks.instance? ha
  exact ⟨_, ha'⟩

/-- The layer takes the callback of an instance, if it has not taken it already. -/
theorem swapped (h : Veils k own kept w w') (hc : own i = some c) :
    ∃ u, Act.swapCallback k i (.intercept k) w' = some ((), u) ∧ Veils k own (fun j => kept j ∨ j = i) w u := by
  obtain ⟨s, hs, -⟩ := h.layer
  obtain ⟨b, hb⟩ := h.instance?_of_own hc
  let r := if s.callbacks.contains i then s.callbacks else s.callbacks.insert i b.callback
  have hswap : Act.swapCallback k i (.intercept k) w' =
      some ((), (w'.setInstance i (b.withCallback (.intercept k))).setSubsystem k { s with callbacks := r }) := by
    have hput : Act.onInstance i (fun a => (a.callback, { a with callback := .intercept k })) w' =
        some (b.callback, w'.setInstance i (b.withCallback (.intercept k))) := congrArg (Option.map _) hb
    unfold Act.swapCallback
    rw [Act.bind_of_some hput]
    refine (congrArg (Option.map _) (show (w'.setInstance i _).subsystem? k = some s from hs)).trans ?_
    show some ((), World.setSubsystem _ k (if s.callbacks.contains i then s else _)) = _
    cases hcontains : s.callbacks.contains i <;> simp only [r, hcontains] <;> rfl
  obtain ⟨c₀, hc₀, -, hsaved, -⟩ := Act.swapCallback_spec hswap
  have hr : ∀ j, r.get? j = if j = i then some ((w'.saved? k i).getD c₀) else w'.saved? k j := fun j => by
    rw [← hsaved, saved?_setSubsystem (show (w'.setInstance i _).subsystem? k = some s from hs), if_pos rfl]
  refine ⟨_, hswap, h.exchange hb hs (fun c' hc' => .inr ⟨rfl, ?_, .inr rfl⟩) fun j hj => ⟨?_, .inl⟩⟩
  · rw [hr, if_pos rfl]
    -- either the instance has its own callback now, or that is kept already
    rcases h.taken i c' hc' with ⟨hown, hnone⟩ | ⟨-, hsome, -⟩
    · rw [hnone, Option.getD_none, ← hc₀, hown]
    · rw [hsome, Option.getD_some]
  · rw [hr, if_neg hj, saved?_of_subsystem? hs]

/-- The layer gives an instance its callback back, if it has taken it. -/
theorem restored (h : Veils k own kept w w') (hc : own i = some c) :
    ∃ r u, Act.restoreCallback k i w' = some (r, u) ∧ Veils k own (fun j => kept j ∧ j ≠ i) w u := by
  obtain ⟨s, hs, -⟩ := h.layer
  obtain ⟨b, hb⟩ := h.instance?_of_own hc
  have hb₁ : ∀ t, (w'.setSubsystem k t).instance? i = some b := fun _ => hb
  have htake : Act.takeCallback k i w' =
      some (w'.saved? k i, w'.setSubsystem k { s with callbacks := s.callbacks.erase i }) := by
    rw [saved?_of_subsystem? hs]
    exact congrArg (Option.map _) hs
  have hothers : ∀ j, j ≠ i → (s.callbacks.erase i).get? j = s.callbacks.get? j ∧ (kept j → kept j ∧ j ≠ i) :=
    fun j hj => ⟨by rw [Keyed.get?_erase, if_neg hj], fun h => ⟨h, hj⟩⟩
  have herased : (s.callbacks.erase i).get? i = none := by rw [Keyed.get?_erase, if_pos rfl]
  unfold Act.restoreCallback
  rw [Act.bind_of_some htake]
  rcases h.taken i c hc with ⟨hown, hnone⟩ | ⟨-, hsome, -⟩
  · -- the instance has its own callback
    rw [hnone]
    refine ⟨false, _, rfl, ?_⟩
    have hself : w'.setInstance i (b.withCallback b.callback) = w' := setInstance_self hb
    have := h.exchange hb hs (d := b.callback) (fun c' hc' => .inl ⟨?_, herased⟩) hothers
    · rwa [hself] at this
    · have hcallback : w'.callback? i = some b.callback := congrArg (Option.map _) hb
      rw [hcallback] at hown
      exact Option.some.inj (hown.trans (hc.symm.trans hc'))
  · rw [hsome]
    have hput : Act.onInstance i (fun a => (true, { a with callback := c }))
        (w'.setSubsystem k { s with callbacks := s.callbacks.erase i }) =
          some (true, (w'.setSubsystem k { s with callbacks := s.callbacks.erase i }).setInstance i (b.withCallback c)) :=
      congrArg (Option.map _) (hb₁ _)
    exact ⟨true, _, hput, h.exchange hb hs
      (fun c' hc' => .inl ⟨Option.some.inj (hc.symm.trans hc'), herased⟩) hothers⟩

/-- At the first native call of an instance whose callback is taken, the layer gives it back and puts its hook back. -/
theorem forwarded (h : Veils k own kept w w') (hc : own i = some c) (htaken : w'.callback? i = some (.intercept k)) :
    ∃ u₁ u₂ u₃, Act.takeCallback k i w' = some (some c, u₁) ∧ Act.reattachExec k u₁ = some ((), u₂) ∧
      Act.onInstance i (fun a => ((), { a with callback := c })) u₂ = some ((), u₃) ∧ Veils k own kept w u₃ := by
  obtain ⟨s, hs, hsheer⟩ := h.layer
  obtain ⟨b, hb⟩ := h.instance?_of_own hc
  have hkept : w'.saved? k i = some c := by
    rcases h.taken i c hc with ⟨hown, -⟩ | ⟨-, hsome, -⟩
    · -- no instance has a callback of the layer for its own
      rw [htaken] at hown
      exact absurd (hc.trans hown.symm) (h.proper i k)
    · exact hsome
  let t : Subsystem := { s with callbacks := s.callbacks.erase i }
  have htake : Act.takeCallback k i w' = some (some c, w'.setSubsystem k t) := by
    rw [← hkept, saved?_of_subsystem? hs]
    exact congrArg (Option.map _) hs
  have ht : (w'.setSubsystem k t).subsystem? k = some t := (subsystem?_setSubsystem hs t k).trans (if_pos rfl)
  have hreattach : Act.reattachExec k (w'.setSubsystem k t) = some ((), (w'.setSubsystem k t).remount k .exec t
      (Mount.reattach ⟨t.hooks.exec, w'.exports.exec⟩)) := onMount_eq_remount ht _
  have hgiven : Veils k own kept w _ := h.exchange (d := c) hb hs
    (fun c' hc' => .inl ⟨Option.some.inj (hc.symm.trans hc'), by rw [Keyed.get?_erase, if_pos rfl]⟩)
    fun j hj => ⟨by rw [Keyed.get?_erase, if_neg hj], id⟩
  have ht' : ((w'.setInstance i (b.withCallback c)).setSubsystem k t).subsystem? k = some t :=
    (subsystem?_setSubsystem (w := w'.setInstance i (b.withCallback c)) hs t k).trans (if_pos rfl)
  refine ⟨_, _, _, htake, hreattach, congrArg (Option.map _) (show World.instance? _ i = some b from hb), ?_⟩
  exact hgiven.remount (x := .exec) ht' (hsheer.sound .exec).reattach.1

end Veils

end World

namespace Act

theorem track_unseen (k : SubsystemId) : Track (Unseen k : World σ → World σ → Prop) where
  refl w := ⟨rfl, rfl, rfl, fun s hs => ⟨s, hs, rfl, rfl, rfl, rfl, rfl⟩⟩
  trans := by
    intro u v w h h'
    refine ⟨h'.instances.trans h.instances, h'.host.trans h.host, h'.exports.trans h.exports, fun s hs => ?_⟩
    obtain ⟨t, ht, h₁, h₂, h₃, h₄, h₅⟩ := h.layer s hs
    obtain ⟨t', ht', h₁', h₂', h₃', h₄', h₅'⟩ := h'.layer t ht
    exact ⟨t', ht', h₁'.trans h₁, h₂'.trans h₂, h₃'.trans h₃, h₄'.trans h₄, h₅'.trans h₅⟩

theorem unseen_hold (k : SubsystemId) (f : Nat → Nat) :
    (onSubsystem k fun s => ((), { s with holds := f s.holds }) : Act σ Unit).Keeps (Unseen k) :=
  .onSubsystem fun _ _ hs => .setSubsystem hs ⟨rfl, rfl, rfl, rfl, rfl⟩

theorem framing_unseen (k : SubsystemId) : Framing (Unseen k : World σ → World σ → Prop) where
  track := track_unseen k
  setContexts _ hs := .setSubsystem hs ⟨rfl, rfl, rfl, rfl, rfl⟩
  setDepth _ hs := .setSubsystem hs ⟨rfl, rfl, rfl, rfl, rfl⟩
  collect _ := .onSubsystem fun _ _ hs => .setSubsystem hs ⟨rfl, rfl, rfl, rfl, rfl⟩
  entered w _ _ := .record w _
  left w _ _ := .record w _
  popWithoutFrame w _ := .record w _

end Act

namespace Machine

theorem unseen_openCall (i : InstanceId) : (openCall k i : Act σ Unit).Keeps (Unseen k) :=
  .bind (Act.track_unseen k) (Act.unseen_hold k (· + 1)) fun _ => keeps_openFrame (Act.framing_unseen k) k i

theorem unseen_closeCall (i : InstanceId) : (closeCall k i : Act σ Unit).Keeps (Unseen k) :=
  .bind (Act.track_unseen k) (keeps_closeFrame (Act.framing_unseen k) k i) fun _ => Act.unseen_hold k (· - 1)

/-! ## Calls behind the layer -/

variable {d : Activity} {slot : Option Cell} {index : Cell} {r : Run σ ExecReply} {calls calls' : Calls σ}

/-- What a call that is passed on answers, as long as the machine's own entry mirrors it, and what is seen afterwards. -/
theorem mirrors_passOn (hw : Veils k own kept w w') (hc : own i = some c)
    (hinner : ∀ {kept v v'}, Veils k own kept v v' → v'.entry .exec = .plain →
      r.Mirrors d v (calls (.exec i slot index)) v' fun q u u' => q.status ≠ .error .sleep ∧ Veils k own kept u u') :
    r.Mirrors d w (passOn calls k i slot index) w' fun q u u' => q.status ≠ .error .sleep ∧ Veils k own kept u u' := by
  obtain ⟨s, hs, hsheer⟩ := hw.layer
  have hget : Act.getSubsystem k w' = some (s, w') := congrArg (Option.map _) hs
  refine .aside hget ?_
  cases hattached : s.hooks.exec.attached with
  | false =>
    -- the hook is not in its slot
    rw [if_neg nofun]
    refine hinner hw ?_
    rcases hw.entry_cases .exec with hentry | ⟨t, hserved, -⟩
    · exact hentry
    · obtain rfl : s = t := Option.some.inj (hs.symm.trans hserved.layer)
      exact absurd (hattached.symm.trans hserved.attached) nofun
  | true =>
    rw [if_pos rfl]
    -- on the way down the layer takes the callback and its hook out
    obtain ⟨u, hswap, hu⟩ := hw.swapped hc
    refine .aside hswap ?_
    obtain ⟨t, ht, hsheer'⟩ := hu.layer
    have hdetached := (hsheer'.sound .exec).detach
    refine .aside (onMount_eq_remount ht Mount.detach) ?_
    have hout := hu.remount (x := .exec) ht hdetached.1
    refine .bind_right ((hinner hout ?_).mono fun q u₁ u₁' hq => ?_)
    · -- its hook replaced the machine's own entry, which is in the slot now
      have hslot := hdetached.1.slot
      rw [hdetached.2] at hslot
      show ((u.exports.set _ .exec).get .exec).effective _ = _
      rw [PerExport.get_set, if_pos rfl]
      show (Mount.detach ⟨t.hooks.get .exec, u.exports.get .exec⟩).2.slot.effective _ = _
      rw [hslot]
      rfl
    · -- on the way up it puts back what it has not put back already
      obtain ⟨t₁, ht₁, hsheer₁⟩ := hq.2.layer
      have hback : ∀ took, ((Mount.giveBack ⟨t₁.hooks.exec, u₁'.exports.exec⟩ took)).Sound k := by
        intro took
        unfold Mount.giveBack
        split
        · exact (hsheer₁.sound .exec).reattach.1
        · exact hsheer₁.sound .exec
      refine .aside (onMount_eq_remount ht₁ _) ?_
      obtain ⟨restored, u₂, hrestore, hu₂⟩ := (hq.2.remount (x := .exec) ht₁ (hback _)).restored hc
      exact .aside hrestore (.pure ⟨hq.1, hu₂.mono fun j hj => hj.1.resolve_right hj.2⟩)

/-- An intercepted call, if the machine's own entry mirrors the call that is passed on. -/
theorem mirrors_intercepted (host : Host σ) (hindex : ExecIndex.IsPublic index) (hw : Veils k own kept w w')
    (hc : own i = some c)
    (hinner : ∀ {kept v v'}, Veils k own kept v v' → v'.entry .exec = .plain →
      r.Mirrors d v (calls (.exec i slot index)) v' fun q u u' => q.status ≠ .error .sleep ∧ Veils k own kept u u') :
    r.Mirrors d w (intercepted host calls k i slot index) w' fun q u u' =>
      q.status ≠ .error .sleep ∧ Veils k own kept u u' := by
  rw [intercepted_public hindex]
  obtain ⟨_, u, hopen, -⟩ := answers_openCall (i := i) w' hw.isSome_layer
  have hu := hw.unseen (unseen_openCall i hopen)
  refine .aside hopen (.bind_right ((mirrors_passOn hu hc hinner).mono fun q v v' hq => ?_))
  rw [settle_of_ne host hq.1, pure_bind]
  obtain ⟨_, u', hclose, -⟩ := answers_closeCall (i := i) v' hq.2.isSome_layer
  exact .aside hclose (.pure ⟨hq.1, hq.2.unseen (unseen_closeCall i hclose)⟩)

/-- While a layer is kept going, it can be seen no more than before. -/
theorem mirrors_holding {r r' : Run σ α} (hw : Veils k own kept w w')
    (h : ∀ {u}, Veils k own kept w u → (∀ j, u.callback? j = w'.callback? j) →
      r.Mirrors d w r' u fun _ => Veils k own kept) :
    r.Mirrors d w (holding k r') w' fun _ => Veils k own kept := by
  obtain ⟨s, hs, -⟩ := hw.layer
  have hhold : Act.onSubsystem k (fun s => ((), { s with holds := s.holds + 1 })) w' = some ((), _) :=
    congrArg (Option.map _) hs
  refine .aside hhold (.bind_right ((h (hw.unseen (Act.unseen_hold k (· + 1) hhold)) fun _ => rfl).mono fun q v v' hv => ?_))
  obtain ⟨t, ht, -⟩ := hv.layer
  have hrelease : Act.onSubsystem k (fun s => ((), { s with holds := s.holds - 1 })) v' = some ((), _) :=
    congrArg (Option.map _) ht
  exact .aside hrelease (.pure (hv.unseen (Act.unseen_hold k (· - 1) hrelease)))

/-- The first native call of a call that is being passed on. -/
theorem mirrors_forwardNative {r : Run σ (Except Status Cell)} {params : List Cell} (hw : Veils k own kept w w')
    (hc : own i = some c) (htaken : w'.callback? i = some (.intercept k))
    (hinner : ∀ {v'}, Veils k own kept w v' →
      r.Mirrors d w (calls (.dispatch c i index params)) v' fun _ => Veils k own kept) :
    r.Mirrors d w (forwardNative calls k i index params) w' fun _ => Veils k own kept := by
  refine mirrors_holding hw fun {u} hu hcallbacks => ?_
  obtain ⟨u₁, u₂, u₃, htake, hback, hput, hu₃⟩ := hu.forwarded hc ((hcallbacks i).trans htaken)
  exact .aside htake (.aside hback (.aside hput (hinner hu₃)))

/-! ## Calls of any depth -/

section

variable {host : Host σ} (hhost : host.Unaware)
include hhost

/-- An execute call meets the machine's own entry in the second world, or that entry one level deeper. -/
theorem mirrors_exec {n : Nat} (hcalls : ∀ kept, Echoes (Veils k own kept) calls (enter host n))
    (hcalls' : ∀ kept, Echoes (Veils k own kept) calls (enter host (n + 1))) (hindex : -2 ≤ index.val)
    (hw : Veils k own kept w w') : (plainExec host.confined calls i slot index).Mirrors .machine w
      (enter host (n + 1 + 1) (.exec i slot index)) w' fun q v v' => q.status ≠ .error .sleep ∧ Veils k own kept v v' := by
  rcases hw.entry_cases .exec with hentry | ⟨s, hserved, -⟩
  · have hplain := mirrors_plainExec (d := .machine) likeness_veils hhost (hcalls' kept) hw i slot index
    exact hplain.congr (fun _ => rfl) fun fuel => enter_of_plain hentry (n + 1) i slot index .machine fuel
  · refine Run.Mirrors.congr (e := .machine) ?_ (fun _ => rfl) fun fuel =>
      enter_of_detour hserved.entry (n + 1) i slot index .machine fuel
    cases hc : own i with
    | none =>
      -- there is no such instance
      have hnone : w.instance? i = none := by
        have hcallback := hw.callbacks i
        rw [hc] at hcallback
        exact Option.map_eq_none_iff.1 hcallback
      have hget : Act.getInstance i w = none := congrArg (Option.map _) hnone
      exact .of_cut fun fuel => ⟨_, w, Run.bind_of_cut (Run.act_of_none hget .machine fuel)⟩
    | some c =>
      refine mirrors_intercepted host (ExecIndex.isPublic_of_le hindex) hw hc fun {kept v v'} hv hentry => ?_
      have hplain := mirrors_plainExec (d := .machine) likeness_veils hhost (hcalls kept) hv i slot index
      exact hplain.congr (fun _ => rfl) fun fuel => enter_of_plain hentry n i slot index .machine fuel

/-- A native call goes through the callback of the instance in the second world, or through it one level deeper. -/
theorem mirrors_call {n : Nat} (hcalls : ∀ kept, Echoes (Veils k own kept) calls (enter host n))
    (hcalls' : ∀ kept, Echoes (Veils k own kept) calls (enter host (n + 1))) (hw : Veils k own kept w w')
    {b : Instance} (hb : w.instance? i = some b) (hc : w'.callback? i = some c) (params : List Cell) :
    (dispatch host.confined calls b.callback i index params).Mirrors .machine w
      (enter host (n + 1 + 1) (.dispatch c i index params)) w' fun _ => Veils k own kept := by
  have hown : own i = some b.callback := by
    rw [← hw.callbacks i, World.callback?, hb]
    rfl
  have hproper : ∀ l, b.callback ≠ .intercept l := fun l hl => hw.proper i l (hl ▸ hown)
  rcases hw.taken i b.callback hown with ⟨hsame, -⟩ | ⟨htaken, -⟩
  · obtain rfl : c = b.callback := Option.some.inj (hc.symm.trans hsame)
    exact mirrors_dispatch (d := .machine) likeness_veils hhost (hcalls' kept) hw hproper i index params
  · obtain rfl : c = .intercept k := Option.some.inj (hc.symm.trans htaken)
    have halive : w'.isAlive k = true := by
      obtain ⟨s, hs, hsheer⟩ := hw.layer
      unfold World.isAlive
      rw [hs]
      show (s.owned || _) = true
      rw [hsheer.owned, Bool.true_or]
    refine Run.Mirrors.congr (e := .machine) ?_ (fun _ => rfl) fun fuel =>
      enter_of_intercept halive (n + 1) i index params .machine fuel
    refine mirrors_forwardNative hw hown htaken fun {v'} hv => ?_
    exact mirrors_dispatch (d := .machine) likeness_veils hhost (hcalls kept) hv hproper i index params

/-- The calls of unaware code do behind the layer what they do without it, if they may nest twice as deep. -/
theorem echoes_enter (depth : Nat) : ∀ depth', 2 * depth ≤ depth' → ∀ kept,
    Echoes (Veils k own kept) (enter host.confined depth) (enter host depth') := by
  -- what is known of the calls one level deeper makes it known of these; behind the layer these are one or two levels
  induction depth with
  | zero =>
    intro depth' _ kept
    refine ⟨fun hw i slot index _ d => .of_cut fun fuel => ⟨_, _, rfl⟩, fun hw i index params d => ?_⟩
    exact mirrors_instance likeness_veils hw fun _ _ _ _ => .of_cut fun fuel => ⟨_, _, rfl⟩
  | succ depth ih =>
    intro depth' hdepth kept
    obtain ⟨n, rfl⟩ : ∃ n, depth' = n + 1 + 1 := ⟨depth' - 2, by omega⟩
    have hcalls := ih n (by omega)
    have hcalls' := ih (n + 1) (by omega)
    refine ⟨fun {w w'} hw i slot index hindex d => ?_, fun {w w'} hw i index params d => ?_⟩
    · -- in the first world an execute call is one of the machine's own entry
      refine (mirrors_exec hhost hcalls hcalls' hindex hw).congr (fun fuel => ?_) fun _ => rfl
      exact enter_of_plain (hw.entry_plain .exec) depth i slot index d fuel
    · -- the two instances differ in the callback that they have at most
      refine mirrors_instance likeness_veils hw fun b c hb hb' => ?_
      have hc : w'.callback? i = some c := congrArg (Option.map _) hb'
      exact (mirrors_call hhost hcalls hcalls' hw hb hc params).congr (fun _ => rfl) fun _ => rfl

end

end Machine

/-! ## Calls without the layer -/

/-- One world, behind a hook layer of another. -/
def World.Unveiled (k : SubsystemId) (own : InstanceId → Option Callback) (kept : InstanceId → Prop) (w w' : World σ) :
    Prop :=
  w' = w ∧ ∃ v, Veils k own kept w v

theorem World.likeness_unveiled : Likeness (Unveiled k own kept : World σ → World σ → Prop) where
  looks := by
    rintro w _ ⟨rfl, -⟩
    exact .refl _
  remember := by
    rintro w _ ⟨rfl, v, hv⟩ change
    exact ⟨rfl, _, likeness_veils.remember hv change⟩
  perform := by
    rintro w _ ⟨rfl, v, hv⟩ ids resume o ho r u he
    obtain ⟨u', -, hu⟩ := likeness_veils.perform hv ids resume ho r u he
    exact ⟨u, he, rfl, u', hu⟩
  natives := by
    rintro w _ ⟨rfl, v, hv⟩ i a ha
    exact hv.natives i a ha

namespace Machine

/-- Unaware code that confines itself is over as confined code is. -/
theorem echoes_confined {host : Host σ} (hhost : host.Unaware) (depth : Nat) :
    Echoes (Unveiled k own kept) (enter host.confined depth) (enter host depth) := by
  induction depth with
  | zero =>
    refine ⟨fun hw i slot index _ d => .of_cut fun fuel => ⟨_, _, rfl⟩, fun hw i index params d => ?_⟩
    exact mirrors_instance likeness_unveiled hw fun _ _ _ _ => .of_cut fun fuel => ⟨_, _, rfl⟩
  | succ depth ih =>
    constructor
    · rintro w _ ⟨rfl, v, hv⟩ i slot index - d
      have hplain := mirrors_plainExec (d := .machine) likeness_unveiled hhost ih ⟨rfl, v, hv⟩ i slot index
      exact hplain.congr (fun fuel => enter_of_plain (hv.entry_plain .exec) depth i slot index d fuel)
        fun fuel => enter_of_plain (hv.entry_plain .exec) depth i slot index d fuel
    · rintro w _ ⟨rfl, v, hv⟩ i index params d
      refine mirrors_instance likeness_unveiled ⟨rfl, v, hv⟩ fun b c hb hb' => ?_
      have hsame : b = b.withCallback c := Option.some.inj (hb.symm.trans hb')
      obtain rfl : b.callback = c := congrArg Instance.callback hsame
      have hproper : ∀ l, b.callback ≠ .intercept l := fun l hl => hv.proper i l (by
        rw [← hv.callbacks i, World.callback?, hb, ← hl]
        rfl)
      exact mirrors_dispatch (d := .machine) likeness_unveiled hhost ih ⟨rfl, v, hv⟩ hproper i index params

end Machine

/-! ## A layer over a world -/

namespace World

/-- The second world is the first with a hook layer that follows no references and answers no callbacks. Any of its hooks
may be in their slots, which hold the machine's own entries in the first world; it has not taken any callback. All natives
are the host's, and no callback is another layer's. -/
structure Overlaid (k : SubsystemId) (w w' : World σ) : Prop where
  plain : w.exports = .const .plain
  host : w'.host = w.host
  instances : w'.instances = w.instances
  natives : ∀ i a, w.instance? i = some a → ∀ n ∈ a.natives, n.2.isHost = true
  proper : ∀ i l, w.callback? i ≠ some (.intercept l)
  layer : ∃ s, w'.subsystem? k = some s ∧ s.Sheer k w'.exports
  saved : ∀ i, (w.instance? i).isSome → w'.saved? k i = none

theorem Overlaid.veils (h : Overlaid k w w') : Veils k w.callback? (fun _ => False) w w' := by
  have hinstance : ∀ i, w'.instance? i = w.instance? i := fun i => congrArg (·[i.index]?) h.instances
  refine ⟨h.plain, ⟨h.host, fun i => by rw [hinstance]⟩, h.natives, fun _ => rfl, h.proper, fun i c hc => ?_, h.layer⟩
  refine .inl ⟨(congrArg (Option.map _) (hinstance i)).trans hc, h.saved i ?_⟩
  obtain ⟨a, ha, -⟩ := Option.map_eq_some_iff.1 hc
  rw [ha]
  rfl

/-- Where no callback is taken, instances are the same in both worlds. -/
theorem Veils.overlaid (h : Veils k own (fun _ => False) w w') : Overlaid k w w' := by
  have htaken : ∀ i a, w.instance? i = some a → w'.instance? i = some a ∧ w'.saved? k i = none := by
    intro i a ha
    obtain ⟨c, ha'⟩ := h.looks.instance? ha
    have hown : own i = some a.callback := by
      rw [← h.callbacks i, World.callback?, ha]
      rfl
    rcases h.taken i a.callback hown with ⟨hsame, hnone⟩ | ⟨-, -, hkept⟩
    · rw [World.callback?, ha'] at hsame
      obtain rfl : c = a.callback := Option.some.inj hsame
      exact ⟨ha', hnone⟩
    · exact hkept.elim
  have hinstances : w'.instances = w.instances := by
    refine Array.ext_getElem? fun n => ?_
    show w'.instance? ⟨n⟩ = w.instance? ⟨n⟩
    cases ha : w.instance? ⟨n⟩ with
    | none =>
      have hlooks := h.looks.instances ⟨n⟩
      rw [ha] at hlooks
      exact Option.map_eq_none_iff.1 hlooks
    | some a => exact (htaken ⟨n⟩ a ha).1
  refine ⟨h.plain, h.looks.host, hinstances, h.natives, fun i l => ?_, h.layer, fun i hi => ?_⟩
  · rw [h.callbacks]
    exact h.proper i l
  · obtain ⟨a, ha⟩ := Option.isSome_iff_exists.1 hi
    exact (htaken i a ha).2

/-- A layer that was just made over the machine's own entries. -/
theorem overlaid_newSubsystem {config : Config} {collaborators : Collaborators} (hplain : w.exports = .const .plain)
    (hnatives : ∀ i a, w.instance? i = some a → ∀ n ∈ a.natives, n.2.isHost = true)
    (hproper : ∀ i l, w.callback? i ≠ some (.intercept l)) (hrefs : config.refArgs = false)
    (hevents : collaborators.events = .unsupported) (h : Act.newSubsystem config collaborators w = some (k, w')) :
    Overlaid k w w' := by
  cases h
  let s : Subsystem := .new ⟨w.subsystems.size⟩ w.exports config collaborators
  have hs : World.subsystem? { w with subsystems := w.subsystems.push s } ⟨w.subsystems.size⟩ = some s :=
    Array.getElem?_push_size
  refine ⟨hplain, rfl, rfl, hnatives, hproper, ⟨_, hs, rfl, hrefs, hevents, fun x => ?_⟩, fun i _ => ?_⟩
  · -- its hooks are out of their slots, and replace the machine's own entries
    show Mount.Sound _ ⟨(w.exports.map (Hook.new _)).get x, w.exports.get x⟩
    rw [hplain, PerExport.get_map, PerExport.get_const]
    exact ⟨rfl, rfl, nofun, rfl⟩
  · exact saved?_of_subsystem? hs i

/-- Any of the hooks may be switched on or off. -/
theorem Overlaid.toggleAll (h : Overlaid k w w') {on : Bool} {exports : List Export} {n : Nat}
    (he : Act.toggleAll k on exports w' = some (n, v')) : Overlaid k w v' := by
  induction exports generalizing w' n with
  | nil =>
    cases he
    exact h
  | cons x rest ih =>
    obtain ⟨⟨changed, u⟩, htoggle, he⟩ := Option.bind_eq_some_iff.1 he
    obtain ⟨⟨m, u'⟩, hrest, eq⟩ := Option.bind_eq_some_iff.1 he
    cases eq
    obtain ⟨s, hs, hsheer⟩ := h.layer
    have hremounted := (onMount_eq_remount hs fun m => m.toggle on).symm.trans htoggle
    cases hremounted
    exact ih (h.veils.remount hs ((hsheer.sound x).toggle on).1).overlaid hrest

end World

namespace Machine

/-- Interception is transparent to unaware code. Let a world be like another but for a hook layer that follows no references
and answers no callbacks, of whose hooks any are in their slots. An execute call of an index from -2 up, of code that cannot
tell such worlds apart, is to be over on the machine's own entries, where no body leaves off work on registers, statuses and
memory below the addresses of pooled strings, calls of natives, and execute calls of such indices, and none answers that it
is suspended. Then the same call behind the layer is over with the same answer; memory, registers and errors are the same,
and every instance has the callback that it had. -/
theorem transparent_exec {host : Host σ} (hhost : host.Unaware) (hw : Overlaid k w w') {slot : Option Cell}
    {index : Cell} (hindex : -2 ≤ index.val) {depth : Nat} {d : Activity} {fuel left : Nat} {r : ExecReply}
    (hover : enter host.confined depth (.exec i slot index) d w fuel = .done r v left) :
    enter host depth (.exec i slot index) d w fuel = .done r v left ∧
      ∀ depth', 2 * depth ≤ depth' → ∃ v', enter host depth' (.exec i slot index) d w' fuel = .done r v' left ∧
        Overlaid k v v' ∧ ∀ j, v'.callback? j = w'.callback? j := by
  have hveils := hw.veils
  refine ⟨?_, fun depth' hdepth => ?_⟩
  · obtain ⟨u, hdone, -, rfl, -⟩ := ((echoes_confined hhost depth).exec ⟨rfl, w', hveils⟩ i slot hindex d) _ _ _ _ hover
    exact hdone
  · obtain ⟨v', hdone, -, hv⟩ := ((echoes_enter hhost depth depth' hdepth _).exec hveils i slot hindex d) _ _ _ _ hover
    have hoverlaid := hv.overlaid
    refine ⟨v', hdone, hoverlaid, fun j => ?_⟩
    -- both have the callbacks of the world without the layer
    calc v'.callback? j
      _ = v.callback? j := congrArg (fun instances => (instances[j.index]?).map Instance.callback) hoverlaid.instances
      _ = w.callback? j := hv.callbacks j
      _ = w'.callback? j :=
        (congrArg (fun instances => (instances[j.index]?).map Instance.callback) hw.instances).symm

/-- The first function of a script calls a native, which extends the heap, writes a cell there, executes the second function
by name, and answers the cell. -/
def unawareHost : Host Unit :=
  { Host.scripted fun code i => if code = ⟨0⟩ then Program.callNamed i "native" [] else .done (.error .index) with
    native := fun _ i _ => do
      match ← Program.perform (.allot i 2) with
      | .ok address =>
        let _ ← Program.perform (.poke i address (.ofNat 7))
        let _ ← Program.executeNamed i "second"
        Program.perform (.peek i address)
      | .error s => .done (.error s) }

/-- A world in which that script is loaded. -/
def unawareWorld : World Unit :=
  { World.initial .drop () with
    instances := #[{ Instance.new 8 with
      functions := [("first", ⟨0⟩), ("second", ⟨1⟩)]
      natives := [("native", .host ⟨0⟩)] }] }

theorem unaware_unawareHost : unawareHost.Unaware := by
  refine ⟨fun code i => ?_, fun code i params answer => ?_, fun _ _ _ _ => trivial⟩
  · show Program.Unaware (ite _ _ _)
    split
    · intro index
      cases index with
      | none => trivial
      | some index => exact fun _ => trivial
    · trivial
  · cases answer with
    | error s => trivial
    | ok address =>
      intro poked found
      cases found with
      | error s => exact fun _ => trivial
      | ok index => exact fun _ _ => trivial

/-- Two of the hooks are switched on. -/
theorem transparent_exec_native :
    ∃ w r v v' left, (do
        let k ← Act.newSubsystem .standard ⟨.host, .host, .unsupported⟩
        Act.toggleAll k true [.exec, .measure]) unawareWorld = some (2, w) ∧
      enter unawareHost 3 (.exec ⟨0⟩ (some 1) 0) .outside unawareWorld 20 = .done r v left ∧
      enter unawareHost 6 (.exec ⟨0⟩ (some 1) 0) .outside w 20 = .done r v' left ∧
      r.slot = some (.ofNat 7) ∧ Overlaid ⟨0⟩ v v' := by
  have hinstance : ∀ i a, unawareWorld.instance? i = some a →
      a.callback = .standard ∧ a.natives = [("native", .host ⟨0⟩)] := by
    rintro ⟨_ | n⟩ a ha
    · cases ha
      exact ⟨rfl, rfl⟩
    · cases ha
  obtain ⟨w₁, hmade⟩ : ∃ w₁, Act.newSubsystem .standard ⟨.host, .host, .unsupported⟩ unawareWorld = some (⟨0⟩, w₁) :=
    ⟨_, rfl⟩
  have hw₁ : Overlaid ⟨0⟩ unawareWorld w₁ := by
    refine overlaid_newSubsystem rfl (fun i a ha n hn => ?_) (fun i l hl => ?_) rfl rfl hmade
    · rw [(hinstance i a ha).2, List.mem_singleton] at hn
      rw [hn]
      rfl
    · obtain ⟨a, ha, hcallback⟩ := Option.map_eq_some_iff.1 hl
      rw [(hinstance i a ha).1] at hcallback
      cases hcallback
  obtain ⟨w, htoggled⟩ : ∃ w, Act.toggleAll ⟨0⟩ true [.exec, .measure] w₁ = some (2, w) := by
    cases hmade
    exact ⟨_, rfl⟩
  have hover : (enter unawareHost.confined 3 (.exec ⟨0⟩ (some 1) 0) .outside unawareWorld 20).done?.any (fun r =>
      decide (r.1.slot = some (.ofNat 7))) = true := by decide +kernel
  obtain ⟨r, v, left, hover, hslot⟩ := Outcome.exists_done hover
  obtain ⟨hplain, hbehind⟩ := transparent_exec unaware_unawareHost (hw₁.toggleAll htoggled) (by decide) hover
  obtain ⟨v', hdone, hoverlaid, -⟩ := hbehind 6 (by decide)
  exact ⟨w, r, v, v', left, (Act.bind_of_some hmade).trans htoggled, hplain, hdone, of_decide_eq_true hslot, hoverlaid⟩

end Machine

end Interpose

import Interpose.Proofs.Stacking
import Interpose.Proofs.Upkeep

/-!
# Operations on stacked hook layers

Passing a call on takes the last hook in place out of the slot and diverts native calls of the instance, and both are
undone afterwards, or by the first native call. Everything else that happens leaves hooks and callbacks alone, as long
as host code does (`Operation.leavesHooks`): such a change is told by `World.Stands`.

Main statements: `World.Descended.down` and `World.Descended.up` for the way of a call through a layer, `World.AtRest.stack`
for layers that were just installed, and `Operation.stands_perform`.
-/

namespace Interpose

variable {σ α : Type}

namespace World

/-! ## Changes beside hooks -/

/-- The slot holds what it held, and no hook layer differs in what decides whether calls go through it. -/
structure SameStations (w w' : World σ) : Prop where
  slot : w'.exports.exec = w.exports.exec
  stations : ∀ k, w'.station? k = w.station? k

/-- Nor do callbacks differ, those of instances and those that are kept. -/
structure Stands (w w' : World σ) : Prop extends SameStations w w' where
  saved : ∀ k i, w'.saved? k i = w.saved? k i
  callbacks : ∀ i, w'.callback? i = w.callback? i ∨ w.callback? i = none ∧ w'.callback? i = some .standard

theorem SameStations.refl (w : World σ) : SameStations w w :=
  ⟨rfl, fun _ => rfl⟩

theorem SameStations.trans {u v w : World σ} (h : SameStations u v) (h' : SameStations v w) : SameStations u w :=
  ⟨h'.slot.trans h.slot, fun k => (h'.stations k).trans (h.stations k)⟩

theorem SameStations.setSubsystem {w : World σ} {k : SubsystemId} {s t : Subsystem} (h : w.subsystem? k = some s)
    (ht : t.station = s.station) : SameStations w (w.setSubsystem k t) := by
  refine ⟨rfl, fun l => ?_⟩
  rw [station?_setSubsystem h, ht]
  split
  · rename_i hl
    rw [hl, station?_of_subsystem? h]
  · rfl

theorem Layered.same {n m : Nat} {w w' : World σ} (h : Layered n m w) (hs : SameStations w w') : Layered n m w' :=
  h.of_same hs.slot hs.stations

theorem Stands.refl (w : World σ) : Stands w w :=
  ⟨.refl w, fun _ _ => rfl, fun _ => .inl rfl⟩

theorem Stands.trans {u v w : World σ} (h : Stands u v) (h' : Stands v w) : Stands u w where
  toSameStations := h.toSameStations.trans h'.toSameStations
  saved k i := (h'.saved k i).trans (h.saved k i)
  callbacks i := by
    rcases h.callbacks i with hi | ⟨hnone, hsome⟩
    · rw [← hi]
      exact h'.callbacks i
    · rcases h'.callbacks i with hi' | ⟨hnone', -⟩
      · exact .inr ⟨hnone, hi'.trans hsome⟩
      · rw [hsome] at hnone'
        cases hnone'

theorem Stands.setSubsystem {w : World σ} {k : SubsystemId} {s t : Subsystem} (h : w.subsystem? k = some s)
    (ht : t.station = s.station) (hc : t.callbacks = s.callbacks) : Stands w (w.setSubsystem k t) := by
  refine ⟨.setSubsystem h ht, fun l i => ?_, fun _ => .inl rfl⟩
  rw [saved?_setSubsystem h, hc]
  split
  · rename_i hl
    rw [hl, saved?_of_subsystem? h]
  · rfl

theorem Stands.setInstance {w : World σ} {i : InstanceId} {a b : Instance} (h : w.instance? i = some a)
    (hc : b.callback = a.callback) : Stands w (w.setInstance i b) := by
  refine ⟨⟨rfl, fun _ => rfl⟩, fun _ _ => rfl, fun j => .inl ?_⟩
  rw [callback?_setInstance h, hc]
  split
  · rename_i hj
    rw [hj, World.callback?, h]
    rfl
  · rfl

theorem Stands.of_eq {w w' : World σ} (he : w'.exports.exec = w.exports.exec) (hs : w'.subsystems = w.subsystems)
    (hi : w'.instances = w.instances) : Stands w w' := by
  have hsub : ∀ k, w'.subsystem? k = w.subsystem? k := fun k => by unfold subsystem?; rw [hs]
  refine ⟨⟨he, fun k => ?_⟩, fun k i => ?_, fun i => .inl ?_⟩
  · rw [station?, hsub, station?]
  · rw [saved?, hsub, saved?]
  · unfold callback? instance?
    rw [hi]

theorem Stands.record (w : World σ) (e : Event) : Stands w (w.record e) :=
  .of_eq rfl rfl rfl

end World

namespace Act

open World

theorem track_stands : Track (Stands : World σ → World σ → Prop) :=
  ⟨.refl, .trans⟩

theorem track_sameStations : Track (SameStations : World σ → World σ → Prop) :=
  ⟨.refl, .trans⟩

theorem stands_onSubsystem {k : SubsystemId} {f : Subsystem → α × Subsystem}
    (hs : ∀ s, (f s).2.station = s.station) (hc : ∀ s, (f s).2.callbacks = s.callbacks) :
    (onSubsystem k f : Act σ α).Keeps Stands :=
  .onSubsystem fun _ s h => .setSubsystem h (hs s) (hc s)

theorem stands_onPool (k : SubsystemId) (f : Pool → α × Pool) : (onPool k f : Act σ α).Keeps Stands :=
  stands_onSubsystem (fun _ => rfl) fun _ => rfl

theorem stands_onContexts (k : SubsystemId) (f : Contexts → α × Contexts) : (onContexts k f : Act σ α).Keeps Stands :=
  stands_onSubsystem (fun _ => rfl) fun _ => rfl

theorem stands_record (e : Event) : (record e : Act σ Unit).Keeps Stands :=
  .record fun w => .record w e

/-- Working on a hook of another export. -/
theorem stands_onMount {k : SubsystemId} {x : Export} (hx : x ≠ .exec) (f : Mount → α × Mount) :
    (onMount k x f : Act σ α).Keeps Stands := by
  intro w a w' h
  obtain ⟨s, hs, e⟩ := Option.map_eq_some_iff.1 h
  cases e
  have hset : Stands w
      (w.setSubsystem k { s with hooks := s.hooks.set (f ⟨s.hooks.get x, w.exports.get x⟩).2.hook x }) := by
    refine .setSubsystem hs ?_ rfl
    cases x <;> first | rfl | exact absurd rfl hx
  refine hset.trans (.of_eq ?_ rfl rfl)
  cases x <;> first | rfl | exact absurd rfl hx

theorem stands_requestAwait (k : SubsystemId) (i : InstanceId) (task : TaskId) (result : Cell) :
    (requestAwait k i task result : Act σ Status).Keeps Stands :=
  keeps_request track_stands (stands_onContexts k _) fun w _ => .record w _

theorem stands_requestDetach (k : SubsystemId) (i : InstanceId) (marker : ReclaimMarker) (result : Cell) :
    (requestDetach k i marker result : Act σ Status).Keeps Stands :=
  keeps_request track_stands (stands_onContexts k _) fun w _ => .record w _

theorem framing_stands : Framing (Stands : World σ → World σ → Prop) where
  track := track_stands
  setContexts _ hs := .setSubsystem hs rfl rfl
  setDepth _ hs := .setSubsystem hs rfl rfl
  collect k := stands_onPool k _
  entered w _ _ := .record w _
  left w _ _ := .record w _
  popWithoutFrame w _ := .record w _

theorem mild_stands : Mild (Stands : World σ → World σ → Prop) where
  track := track_stands
  setInstance := .setInstance
  addInstance w a ha := by
    have hquiet := Quiet.newInstance w a ha
    exact ⟨⟨rfl, fun _ => rfl⟩, fun _ _ => rfl, hquiet.callbacks⟩
  setPool hs _ := .setSubsystem hs rfl rfl
  removeString k id := by
    refine .bind track_stands (stands_onPool k _) fun r => ?_
    cases r with
    | ok s => exact .bind track_stands (stands_record _) fun _ => .pure track_stands _
    | error e => exact .pure track_stands _
  setRefArgs _ hs := .setSubsystem hs rfl rfl
  tasks := .of_parts track_stands (fun _ _ => .of_eq rfl rfl rfl) (fun _ _ => .of_eq rfl rfl rfl) fun w e _ => .record w e
  setHost _ _ := .of_eq rfl rfl rfl
  tell w e _ := .record w e
  past hx hcall := by
    refine .bind track_stands (stands_onMount hx _) fun took => ?_
    refine .bind track_stands hcall fun a => ?_
    exact .bind track_stands (stands_onMount hx _) fun _ => .pure track_stands a

theorem sameStations_onInstance (i : InstanceId) (f : Instance → α × Instance) :
    (onInstance i f : Act σ α).Keeps SameStations :=
  .onInstance fun _ _ _ => ⟨rfl, fun _ => rfl⟩

theorem sameStations_swapCallback (k : SubsystemId) (i : InstanceId) (callback : Callback) :
    (swapCallback k i callback : Act σ Unit).Keeps SameStations := by
  refine .bind track_sameStations (sameStations_onInstance i _) fun current => ?_
  refine .onSubsystem fun w s hs => .setSubsystem hs ?_
  dsimp only
  split <;> rfl

theorem sameStations_takeCallback (k : SubsystemId) (i : InstanceId) :
    (takeCallback k i : Act σ (Option Callback)).Keeps SameStations :=
  .onSubsystem fun _ _ hs => .setSubsystem hs rfl

theorem sameStations_restoreCallback (k : SubsystemId) (i : InstanceId) :
    (restoreCallback k i : Act σ Bool).Keeps SameStations := by
  refine .bind track_sameStations (sameStations_takeCallback k i) fun kept => ?_
  cases kept with
  | some callback => exact sameStations_onInstance i _
  | none => exact .pure track_sameStations _

/-! ## Other layers -/

section

variable {k l : SubsystemId} {w w' : World σ}

theorem saved?_onSubsystem {f : Subsystem → α × Subsystem} {a : α} (h : onSubsystem k f w = some (a, w')) (hl : l ≠ k)
    (j : InstanceId) : w'.saved? l j = w.saved? l j := by
  obtain ⟨s, hs, eq⟩ := Option.map_eq_some_iff.1 h
  cases eq
  rw [saved?_setSubsystem hs, if_neg hl]

theorem saved?_onInstance {i : InstanceId} {f : Instance → α × Instance} {a : α} (h : onInstance i f w = some (a, w'))
    (l : SubsystemId) (j : InstanceId) : w'.saved? l j = w.saved? l j := by
  obtain ⟨b, -, eq⟩ := Option.map_eq_some_iff.1 h
  cases eq
  rfl

theorem callback?_onInstance {i : InstanceId} {c : Callback}
    (h : onInstance i (fun a => ((), { a with callback := c })) w = some ((), w')) (j : InstanceId) :
    w'.callback? j = if j = i then some c else w.callback? j := by
  obtain ⟨b, hb, eq⟩ := Option.map_eq_some_iff.1 h
  cases eq
  exact callback?_setInstance hb _ j

theorem saved?_onMount {x : Export} {f : Mount → α × Mount} {a : α} (h : onMount k x f w = some (a, w'))
    (l : SubsystemId) (j : InstanceId) : w'.saved? l j = w.saved? l j :=
  (callbacks_onMount h).2.1 j

theorem callback?_onMount {x : Export} {f : Mount → α × Mount} {a : α} (h : onMount k x f w = some (a, w'))
    (j : InstanceId) : w'.callback? j = w.callback? j :=
  (callbacks_onMount (k := k) h).1 j

theorem saved?_swapCallback {i : InstanceId} {callback : Callback} (h : swapCallback k i callback w = some ((), w'))
    (hl : l ≠ k) (j : InstanceId) : w'.saved? l j = w.saved? l j := by
  obtain ⟨⟨c, w₁⟩, h₁, h₂⟩ := Option.bind_eq_some_iff.1 h
  exact (saved?_onSubsystem h₂ hl j).trans (saved?_onInstance h₁ l j)

/-- Giving back a callback that is kept. -/
theorem restoreCallback_of_kept {i : InstanceId} {c : Callback} {restored : Bool}
    (h : restoreCallback k i w = some (restored, w')) (hkept : w.saved? k i = some c) :
    (∀ j, w'.callback? j = if j = i then some c else w.callback? j) ∧
      (∀ j, w'.saved? k j = if j = i then none else w.saved? k j) ∧
      ∀ l ≠ k, ∀ j, w'.saved? l j = w.saved? l j := by
  obtain ⟨⟨kept, w₁⟩, h₁, h₂⟩ := Option.bind_eq_some_iff.1 h
  obtain ⟨htaken, hcallback₁, hsaved₁, -⟩ := takeCallback_spec h₁
  rw [hkept] at htaken
  subst htaken
  obtain ⟨b, hb, eq⟩ := Option.map_eq_some_iff.1 h₂
  cases eq
  refine ⟨fun j => ?_, hsaved₁, fun l hl j => saved?_onSubsystem h₁ hl j⟩
  rw [callback?_setInstance hb, hcallback₁]

/-- Where none is kept, nothing is given back. -/
theorem restoreCallback_of_none {i : InstanceId} {restored : Bool}
    (h : restoreCallback k i w = some (restored, w')) (hnone : w.saved? k i = none) :
    (∀ j, w'.callback? j = w.callback? j) ∧ ∀ l j, w'.saved? l j = w.saved? l j := by
  obtain ⟨⟨kept, w₁⟩, h₁, h₂⟩ := Option.bind_eq_some_iff.1 h
  obtain ⟨htaken, hcallback₁, hsaved₁, -⟩ := takeCallback_spec h₁
  rw [hnone] at htaken
  subst htaken
  cases h₂
  refine ⟨hcallback₁, fun l j => ?_⟩
  by_cases hl : l = k
  · subst hl
    rw [hsaved₁]
    split
    · rename_i hj
      rw [hj, hnone]
    · rfl
  · exact saved?_onSubsystem h₁ hl j

end

end Act

/-! ## The way of a call through a layer -/

namespace World

/-- The layers from the `m`-th on, of `n`, are passing a call of instance `i` on. -/
structure Descended (n m : Nat) (i : InstanceId) (own : InstanceId → Option Callback) (w : World σ) : Prop where
  stacked : Layered n m w
  diverted : Diverted n m i own w

variable {n m : Nat} {i : InstanceId} {own : InstanceId → Option Callback} {w w₁ w₂ : World σ}

theorem Descended.atRest (h : Descended n n i own w) : AtRest n own w :=
  h.diverted.atRest h.stacked

theorem AtRest.descended (h : AtRest n own w) (i : InstanceId) : Descended n n i own w :=
  ⟨h.stacked, h.diverted i⟩

theorem Descended.of_stands {w' : World σ} (h : Descended n m i own w) (hs : Stands w w')
    (hfresh : ∀ l, m ≤ l → l < n → w'.frames ⟨l⟩ i = w.frames ⟨l⟩ i) : Descended n m i own w' :=
  ⟨h.stacked.same hs.toSameStations, h.diverted.of_same hs.callbacks hs.saved hfresh⟩

theorem AtRest.of_stands {w' : World σ} (h : AtRest n own w) (hs : Stands w w') : AtRest n own w' :=
  ((h.descended ⟨0⟩).of_stands hs fun _ hn hl => absurd hl (Nat.not_lt.2 hn)).atRest

/-- The next layer takes its hook out of the slot and diverts the instance. -/
theorem Descended.down {took : Bool} (h : Descended n (m + 1) i own w) (hm : m < n)
    (hfresh : ∃ f fs, w.frames ⟨m⟩ i = f :: fs ∧ f.reason = .none)
    (hswap : Act.swapCallback ⟨m⟩ i (.intercept ⟨m⟩) w = some ((), w₁))
    (hborrow : Act.borrow ⟨m⟩ .exec w₁ = some (took, w₂)) :
    took = true ∧ ∃ own', (∀ j c, own j = some c → own' j = some c) ∧ Descended n m i own' w₂ := by
  have hstacked₁ : Layered n (m + 1) w₁ := h.stacked.same (Act.sameStations_swapCallback _ i _ hswap)
  obtain ⟨htook, hstacked₂⟩ := hstacked₁.borrow hm hborrow
  obtain ⟨c, hc, hcallback, hsaved, -⟩ := Act.swapCallback_spec hswap
  -- taking the hook out afterwards has nothing to do with callbacks
  have hcallback₂ : ∀ j, w₂.callback? j = w₁.callback? j := fun j => Act.callback?_onMount hborrow j
  have hsaved₂ : ∀ l j, w₂.saved? l j = w₁.saved? l j := fun l j => Act.saved?_onMount hborrow l j
  obtain ⟨own', hown, hdiverted⟩ : ∃ own', _ ∧ Diverted n m i own' w₂ := h.diverted.taken hm hfresh
    ⟨c, hc, fun j => (hcallback₂ j).trans (hcallback j), fun j => (hsaved₂ ⟨m⟩ j).trans (hsaved j)⟩
    (fun l hl j => (hsaved₂ ⟨l⟩ j).trans (Act.saved?_swapCallback hswap (fun e => hl (congrArg SubsystemId.index e)) j))
    fun l => ((Act.still_onMount ⟨m⟩ .exec _ hborrow).frames i).trans
      ((Act.still_swapCallback ⟨m⟩ i _ hswap).frames i)
  exact ⟨htook, own', hown, hstacked₂, hdiverted⟩

/-- The layer that passed the call on last puts its hook back and gives the instance its callback back. -/
theorem Descended.up {restored : Bool} (h : Descended n m i own w) (hm : m < n)
    (hback : Act.reattachExec ⟨m⟩ w = some ((), w₁)) (hrestore : Act.restoreCallback ⟨m⟩ i w₁ = some (restored, w₂)) :
    Descended n (m + 1) i own w₂ := by
  have hstacked₁ := h.stacked.reattach hm hback
  refine ⟨hstacked₁.same (Act.sameStations_restoreCallback _ i hrestore), ?_⟩
  obtain ⟨c, hc, -, hkept⟩ := h.diverted.kept hm
  obtain ⟨hcallback, hsaved, hothers⟩ :=
    Act.restoreCallback_of_kept hrestore ((Act.saved?_onMount hback ⟨m⟩ i).trans hkept)
  refine h.diverted.back hm (fun j => ?_) (fun j => ?_) (fun l hl j => ?_) fun l => ?_
  · rw [hcallback, Act.callback?_onMount hback, hkept]
  · rw [hsaved, Act.saved?_onMount hback]
  · rw [hothers ⟨l⟩ (fun e => hl (congrArg SubsystemId.index e)), Act.saved?_onMount hback]
  · exact ((Act.still_restoreCallback ⟨m⟩ i hrestore).frames i).trans ((Act.still_onMount ⟨m⟩ .exec _ hback).frames i)

/-- Where that was done already, nothing is left to be done. -/
theorem AtRest.up {restored : Bool} (h : AtRest n own w) (hm : m < n)
    (hback : Act.reattachExec ⟨m⟩ w = some ((), w₁)) (hrestore : Act.restoreCallback ⟨m⟩ i w₁ = some (restored, w₂)) :
    AtRest n own w₂ := by
  have hstacked₁ := h.stacked.reattach_of_attached hm hback
  have hnone : w₁.saved? ⟨m⟩ i = none := by
    rw [Act.saved?_onMount hback, (h.diverted i).saved m hm i, if_neg fun hi => absurd hm (Nat.not_lt.2 hi.2)]
  obtain ⟨hcallback, hsaved⟩ := Act.restoreCallback_of_none hrestore hnone
  refine ⟨hstacked₁.same (Act.sameStations_restoreCallback _ i hrestore), fun j => ?_⟩
  refine (h.diverted j).of_same (fun j => .inl ?_) (fun k j => ?_) fun l hn hl => absurd hl (Nat.not_lt.2 hn)
  · rw [hcallback, Act.callback?_onMount hback]
  · rw [hsaved, Act.saved?_onMount hback]

/-- The first native call of the instance: the layer that it goes through puts its hook back and gives the callback back
that it kept. -/
theorem Descended.forward {kept : Option Callback} (h : Descended n m i own w) (hm : m < n)
    (htake : Act.takeCallback ⟨m⟩ i w = some (kept, w₁)) :
    ∃ c, own i = some c ∧ kept = some (c.divert n (m + 1)) ∧ ∀ w₂ w₃, Act.reattachExec ⟨m⟩ w₁ = some ((), w₂) →
      Act.onInstance i (fun a => ((), { a with callback := c.divert n (m + 1) })) w₂ = some ((), w₃) →
      Descended n (m + 1) i own w₃ := by
  obtain ⟨c, hc, -, hkept⟩ := h.diverted.kept hm
  obtain ⟨htaken, hcallback₁, hsaved₁, -⟩ := Act.takeCallback_spec htake
  refine ⟨c, hc, htaken.trans hkept, fun w₂ w₃ hback hput => ?_⟩
  have hstacked₂ := (h.stacked.same (Act.sameStations_takeCallback _ i htake)).reattach hm hback
  refine ⟨hstacked₂.same (Act.sameStations_onInstance i _ hput), ?_⟩
  refine h.diverted.back hm (fun j => ?_) (fun j => ?_) (fun l hl j => ?_) fun l => ?_
  · rw [Act.callback?_onInstance hput, Act.callback?_onMount hback, hcallback₁, hkept]
  · rw [Act.saved?_onInstance hput, Act.saved?_onMount hback, hsaved₁]
  · rw [Act.saved?_onInstance hput, Act.saved?_onMount hback,
      Act.saved?_onSubsystem htake fun e => hl (congrArg SubsystemId.index e)]
  · exact ((Act.still_onInstance i _ hput).frames i).trans (((Act.still_onMount ⟨m⟩ .exec _ hback).frames i).trans
      ((Act.still_takeCallback ⟨m⟩ i htake).frames i))

/-! ## Layers that were just installed -/

theorem Layered.size (h : Layered n m w) : w.subsystems.size = n := by
  have hthere : ∀ l, l < w.subsystems.size ↔ l < n := by
    intro l
    have hstation := congrArg Option.isSome (h.stations ⟨l⟩)
    unfold station? subsystem? at hstation
    rw [Option.isSome_map] at hstation
    have hsome : (w.subsystems[l]?).isSome = true ↔ l < w.subsystems.size := by simp
    rw [← hsome, hstation]
    split <;> simp_all
  have hle := hthere w.subsystems.size
  have hge := hthere n
  omega

end World

namespace Act

theorem subsystem?_newSubsystem {config : Config} {collaborators : Collaborators} {k : SubsystemId} {w w' : World σ}
    (h : newSubsystem config collaborators w = some (k, w')) : k = ⟨w.subsystems.size⟩ ∧ w'.exports = w.exports ∧
      (∀ i, w'.callback? i = w.callback? i) ∧
      ∀ l, w'.subsystem? l = if l = k then some (.new k w.exports config collaborators) else w.subsystem? l := by
  cases h
  refine ⟨rfl, rfl, fun _ => rfl, fun l => ?_⟩
  show (w.subsystems.push _)[l.index]? = _
  rw [Array.getElem?_push]
  simp only [← World.subsystemId_eq (k := l)]
  rfl

/-- Switching hooks of other exports. -/
theorem stands_toggleAll (k : SubsystemId) (on : Bool) {xs : List Export} (hxs : .exec ∉ xs) :
    (toggleAll k on xs : Act σ Nat).Keeps World.Stands := by
  induction xs with
  | nil => exact .pure track_stands _
  | cons x rest ih =>
    have hx : x ≠ .exec := fun hx => hxs (hx ▸ List.mem_cons_self)
    refine .bind track_stands (stands_onMount hx _) fun changed => ?_
    exact .bind track_stands (ih fun hrest => hxs (List.mem_cons_of_mem x hrest)) fun n => .pure track_stands _

/-- Installing a layer switches its execute hook on, and then others. -/
theorem install_spec {k : SubsystemId} {changed : Nat} {w w' : World σ} (h : install k w = some (changed, w')) :
    ∃ first v, toggle k .exec true w = some (first, v) ∧ World.Stands v w' := by
  obtain ⟨⟨s, u⟩, hs, h⟩ := Option.bind_eq_some_iff.1 h
  obtain ⟨t, -, eq⟩ := Option.map_eq_some_iff.1 hs
  cases eq
  have hwanted : s.wantedExports =
      .exec :: [.resolve, .measure, .lookup].filter fun x => x != .measure || s.config.lengthHook := rfl
  dsimp only at h
  rw [hwanted] at h
  obtain ⟨⟨first, v⟩, hfirst, h⟩ := Option.bind_eq_some_iff.1 h
  obtain ⟨⟨more, v'⟩, hmore, eq⟩ := Option.bind_eq_some_iff.1 h
  cases eq
  exact ⟨first, v, hfirst, stands_toggleAll k true (by simp) hmore⟩

end Act

namespace World

variable {n : Nat} {own : InstanceId → Option Callback} {w w₁ w₂ : World σ}

/-- A layer that is made and switched on goes on top of those that are there. -/
theorem Layered.layer_made {config : Config} {collaborators : Collaborators} {first : Bool} (h : Layered n n w)
    (hevents : collaborators.events = .unsupported) (hexports : w₁.exports = w.exports)
    (hlayers : ∀ l, w₁.subsystem? l = if l = ⟨n⟩ then some (.new ⟨n⟩ w.exports config collaborators) else w.subsystem? l)
    (htoggle : Act.toggle ⟨n⟩ .exec true w₁ = some (first, w₂)) : Layered (n + 1) (n + 1) w₂ := by
  have hnewest : w₁.subsystem? ⟨n⟩ = some (.new ⟨n⟩ w.exports config collaborators) := (hlayers ⟨n⟩).trans (if_pos rfl)
  -- the hook found the detours of the others in the slot
  have hinstalled : Mount.toggle ⟨Hook.new ⟨n⟩ w.exports.exec, w₁.exports.exec⟩ true =
      (true, ⟨(Station.over n true).hook, .stack (n + 1)⟩) := by
    rw [hexports, h.slot]
    rfl
  have hmade : (Subsystem.new ⟨n⟩ w.exports config collaborators).hooks.get .exec = .new ⟨n⟩ w.exports.exec := rfl
  obtain ⟨s, hs, hlayers'⟩ := Act.subsystem?_onMount htoggle
  obtain rfl := Option.some.inj (hnewest.symm.trans hs)
  refine ⟨?_, fun l => ?_⟩
  · obtain ⟨t, ht, eq⟩ := Option.map_eq_some_iff.1 htoggle
    obtain rfl := Option.some.inj (hnewest.symm.trans ht)
    cases eq
    exact congrArg (fun r => r.2.slot) hinstalled
  · unfold station?
    rw [hlayers', hlayers]
    by_cases hl : l = ⟨n⟩
    · subst hl
      rw [if_pos rfl, if_pos (Nat.lt_succ_self n), decide_eq_true (Nat.lt_succ_self n)]
      refine congrArg some ?_
      have hhook := congrArg (fun r => r.2.hook) hinstalled
      rw [Subsystem.station, hmade]
      show Station.mk _ true collaborators.events = _
      rw [hevents]
      exact congrArg (Station.mk · true .unsupported) hhook
    · rw [if_neg hl, if_neg hl]
      have hne : l.index ≠ n := fun e => hl (subsystemId_eq.1 e)
      have hlt : l.index < n + 1 ↔ l.index < n := by omega
      simp only [hlt]
      exact h.stations l

/-- A layer that is made and installed goes on top of those that are there, and keeps no callback. -/
theorem AtRest.layer {config : Config} {collaborators : Collaborators} {k : SubsystemId} {changed : Nat}
    (h : AtRest n own w) (hevents : collaborators.events = .unsupported)
    (hnew : Act.newSubsystem config collaborators w = some (k, w₁)) (hinstall : Act.install k w₁ = some (changed, w₂)) :
    AtRest (n + 1) own w₂ := by
  obtain ⟨hk, hexports, hcallbacks, hlayers⟩ := Act.subsystem?_newSubsystem hnew
  rw [h.stacked.size] at hk
  subst hk
  obtain ⟨first, v, htoggle, hstands⟩ := Act.install_spec hinstall
  -- the other hooks have no part in this
  suffices hv : AtRest (n + 1) own v from hv.of_stands hstands
  refine Descended.atRest (i := ⟨0⟩) ⟨h.stacked.layer_made hevents hexports hlayers htoggle, ?_⟩
  have hcallback : ∀ j, v.callback? j = w.callback? j := fun j =>
    (Act.callback?_onMount htoggle j).trans (hcallbacks j)
  refine ⟨fun j c hc => ?_, fun j k hj => ?_, fun l hl j => ?_, fun hn => absurd hn (Nat.lt_irrefl _),
    fun l hn hl => absurd hl (Nat.not_lt.2 hn)⟩
  · have := (h.diverted j).callbacks j c hc
    rw [if_pos rfl, Callback.divert_self] at this
    rw [hcallback, Callback.divert_self, ite_self, this]
  · rw [hcallback] at hj
    exact absurd ((h.diverted j).proper j k hj).2 (Nat.lt_irrefl n)
  · rw [if_neg fun hj => absurd hl (Nat.not_lt.2 hj.2), Act.saved?_onMount htoggle, saved?, hlayers]
    split
    · rfl
    · rename_i hne
      have hlt : l < n := by
        have : l ≠ n := fun e => hne (congrArg SubsystemId.mk e)
        omega
      exact ((h.diverted j).saved l hlt j).trans (if_neg fun hj => absurd hlt (Nat.not_lt.2 hj.2))

/-- All hooks are in place once layers were made and installed one after another. -/
theorem AtRest.stack {layers : List (Config × Collaborators)} (hevents : ∀ l ∈ layers, l.2.events = .unsupported)
    (h : AtRest n own w) (hstack : Act.stack layers w = some ((), w₁)) : AtRest (n + layers.length) own w₁ := by
  induction layers generalizing n w with
  | nil =>
    cases hstack
    exact h
  | cons layer rest ih =>
    -- making a layer never fails
    obtain ⟨⟨changed, v⟩, hinstall, hrest⟩ := Option.bind_eq_some_iff.1 hstack
    have hv := h.layer (hevents layer List.mem_cons_self) rfl hinstall
    have hw₁ := ih (fun l hl => hevents l (List.mem_cons_of_mem layer hl)) hv hrest
    rwa [List.length_cons, Nat.add_comm rest.length, ← Nat.add_assoc]

end World

/-! ## What host code asks for -/

/-- Whether an operation leaves hooks and callbacks alone: it neither makes nor switches nor drops a hook layer, it works
on no callbacks, and it has no instance forgotten. -/
def Operation.leavesHooks : Operation → Bool
  | newSubsystem _ _ | drop _ | install _ | uninstall _ | installAll _ | toggle _ _ _ | unload _ _ => false
  | swapCallback _ _ _ | takeCallback _ _ | restoreCallback _ _ | forgetCallback _ _ => false
  | _ => true

theorem Operation.leavesHooks_of_isQuiet {o : Operation} (h : o.isQuiet = true) : o.leavesHooks = true := by
  cases o <;> first | rfl | cases h

open Act in
/-- What is kept across mild operations, frames, notices and requests to suspend is kept by code that leaves hooks alone. -/
theorem Operation.keeps_of_leavesHooks {R : World σ → World σ → Prop} (M : Mild R) (F : Framing R)
    (hnotice : ∀ w n, R w (w.record (.notice n))) (hasked : ∀ w e, e.asks = true → R w (w.record e))
    (ids : CallbackIds σ) (resume : Resume σ) {o : Operation} (h : o.leavesHooks = true) :
    (o.perform ids resume).Keeps R := by
  by_cases hquiet : o.isQuiet = true
  · exact M.perform ids resume hquiet fun k _ => F.collect k
  cases o with
  | requestAwait l i task result => exact keeps_request M.track (F.onContexts l _) fun w _ => hasked w _ rfl
  | requestDetach l i marker result => exact keeps_request M.track (F.onContexts l _) fun w _ => hasked w _ rfl
  | pushFrame l i => exact F.onContexts l fun c => c.push i
  | popFrame l i => exact F.popFrame l i
  | setFrame l i f =>
    unfold perform
    exact F.onContexts l _
  | removeFrames l i => exact F.onContexts l fun c => c.remove i
  | notify n => exact .record fun w => hnotice w n
  | newSubsystem | drop | install | uninstall | installAll | toggle | unload => cases h
  | swapCallback | takeCallback | restoreCallback | forgetCallback => cases h
  | _ => exact absurd rfl hquiet

theorem Operation.stands_perform (ids : CallbackIds σ) (resume : Resume σ) {o : Operation} (h : o.leavesHooks = true) :
    (o.perform ids resume).Keeps World.Stands :=
  keeps_of_leavesHooks Act.mild_stands Act.framing_stands (fun w _ => .record w _) (fun w e _ => .record w e) ids resume h

end Interpose

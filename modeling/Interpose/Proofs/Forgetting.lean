import Interpose.Proofs.PoolMoments
import Interpose.Proofs.Stocks

/-!
# What is forgotten of an instance

An instance that is unloaded from a hook layer is forgotten there: it has no frames any more, no callback is kept for it,
and it has no addresses bound. Nothing else changes, in the layer or elsewhere (`World.Unloads`).

What was forgotten does not come back by itself. From then on no address of the pool leads the instance anywhere, until it
is given to the instance again. The journal does not tell of all that is done with a pool, so what happened between two
worlds is listed here with both: the entries that were written, and the operations on the pool in between (`World.Since`).

Main statements: `Act.unload_spec`, `World.Since.resolve?_of_unloaded`, and `Machine.since_moments` for the moments of a run.
-/

namespace Interpose

open World

variable {σ α β : Type} {k l : SubsystemId} {i : InstanceId}

/-! ## Unloading -/

/-- The second collection is the first without what is under a key. -/
def Keyed.Without {κ ν : Type} [DecidableEq κ] (m : Keyed κ ν) (key : κ) (m' : Keyed κ ν) : Prop :=
  ∀ other, m'.get? other = if other = key then none else m.get? other

namespace Pool

/-- Forgetting takes the bindings of one instance away, and touches nothing else in the pool. -/
theorem forget_spec (p : Pool) (i : InstanceId) :
    ∃ bindings, (p.forget i).2 = { p with bindings } ∧ p.bindings.Without i bindings := by
  unfold forget
  cases hbound : p.bindings.get? i with
  | some bound => exact ⟨p.bindings.erase i, rfl, p.bindings.get?_erase i⟩
  | none =>
    refine ⟨p.bindings, rfl, fun other => ?_⟩
    split
    · rename_i hother
      rw [hother, hbound]
    · rfl

/-- Without its bindings, no address leads an instance anywhere. -/
theorem resolve?_without {p : Pool} {bindings : Keyed InstanceId (Keyed Cell Unit)}
    (h : p.bindings.Without i bindings) (j : InstanceId) (address : Cell) :
    ({ p with bindings } : Pool).resolve? j address = if j = i then none else p.resolve? j address := by
  unfold resolve? isBound
  rw [h j]
  by_cases hj : j = i
  · rw [if_pos hj, if_pos hj]
    cases Address.decode? address <;> rfl
  · rw [if_neg hj, if_neg hj]
    rfl

end Pool

namespace World

/-- The pool of a hook layer; a layer that is not there yet begins with an empty one. -/
def pool (w : World σ) (k : SubsystemId) : Pool :=
  ((w.stock? k).map Stock.pool).getD .empty

theorem pool_of_subsystem? {w : World σ} {s : Subsystem} (h : w.subsystem? k = some s) : w.pool k = s.pool := by
  rw [pool, stock?_of_subsystem? h]
  rfl

/-- What unloading an instance from a layer makes of a world. -/
structure Unloads (k : SubsystemId) (i : InstanceId) (w w' : World σ) : Prop where
  /-- In three collections of the layer there is nothing under the instance any more, and the journal tells of it. All the
  rest is as it was: the strings and their references, the hooks, the count of calls, the other layers, the instances. -/
  changed : ∃ s frameStacks callbacks bindings, w.subsystem? k = some s ∧
    w' = (w.setSubsystem k { s with
      contexts := ⟨frameStacks⟩
      callbacks
      pool := { s.pool with bindings } }).record (.unloaded k i (s.callbacks.contains i)) ∧
    s.contexts.frameStacks.Without i frameStacks ∧ s.callbacks.Without i callbacks ∧ s.pool.bindings.Without i bindings
  /-- So the instance has no frames any more, and the others have theirs. -/
  frames : ∀ j, w'.frames k j = if j = i then [] else w.frames k j
  /-- No callback is kept for it, and those that are kept for others are kept. -/
  saved : ∀ j, w'.saved? k j = if j = i then none else w.saved? k j
  /-- No address of the pool leads it anywhere, and those of others lead where they led. -/
  resolves : ∀ j address, (w'.pool k).resolve? j address = if j = i then none else (w.pool k).resolve? j address

/-- What is forgotten shows in what is looked up. -/
theorem Unloads.of_changed {w : World σ} {s : Subsystem} {frameStacks : Keyed InstanceId (List Frame)}
    {callbacks : Keyed InstanceId Callback} {bindings : Keyed InstanceId (Keyed Cell Unit)}
    (hs : w.subsystem? k = some s) (hframes : s.contexts.frameStacks.Without i frameStacks)
    (hcallbacks : s.callbacks.Without i callbacks) (hbindings : s.pool.bindings.Without i bindings) :
    Unloads k i w ((w.setSubsystem k { s with
      contexts := ⟨frameStacks⟩
      callbacks
      pool := { s.pool with bindings } }).record (.unloaded k i (s.callbacks.contains i))) := by
  have hafter : ∀ t e, ((w.setSubsystem k t).record e).subsystem? k = some t := fun t e =>
    (subsystem?_setSubsystem hs t k).trans (if_pos rfl)
  refine ⟨⟨s, frameStacks, callbacks, bindings, hs, rfl, hframes, hcallbacks, hbindings⟩, fun j => ?_, fun j => ?_,
    fun j address => ?_⟩
  · rw [frames_of_subsystem? (hafter _ _), frames_of_subsystem? hs, Contexts.frames, hframes j, Contexts.frames]
    split <;> rfl
  · rw [saved?, hafter, Option.bind_some, hcallbacks j, saved?, hs, Option.bind_some]
  · rw [pool_of_subsystem? (hafter _ _), pool_of_subsystem? hs, Pool.resolve?_without hbindings]

end World

namespace Act

/-- Working on a layer that was just put in its place. -/
theorem onSubsystem_setSubsystem {w : World σ} {s : Subsystem} (hs : w.subsystem? k = some s) (t : Subsystem)
    (f : Subsystem → α × Subsystem) : onSubsystem k f (w.setSubsystem k t) = some ((f t).1, w.setSubsystem k (f t).2) := by
  unfold onSubsystem
  rw [subsystem?_setSubsystem hs, if_pos rfl, Option.map_some, setSubsystem_setSubsystem]

/-- First the frames are forgotten, then the callback, then the addresses. -/
theorem unload_eq {w : World σ} {s : Subsystem} (hs : w.subsystem? k = some s) (i : InstanceId) : unload k i w =
    some ((), (w.setSubsystem k { s with
      contexts := ⟨s.contexts.frameStacks.erase i⟩
      callbacks := s.callbacks.erase i
      pool := (s.pool.forget i).2 }).record (.unloaded k i (s.callbacks.contains i))) := by
  have hremove : onContexts k (fun c => c.remove i) w = some (s.contexts.frameStacks.contains i,
      w.setSubsystem k { s with contexts := ⟨s.contexts.frameStacks.erase i⟩ }) := congrArg (Option.map _) hs
  unfold unload forgetCallback onPool
  rw [bind_of_some hremove, bind_of_some (onSubsystem_setSubsystem hs _ _),
    bind_of_some (onSubsystem_setSubsystem hs _ _)]
  rfl

/-- Whatever the layer has under way, unloading an instance comes to this. -/
theorem unload_spec {w : World σ} {s : Subsystem} (hs : w.subsystem? k = some s) (i : InstanceId) :
    ∃ w', unload k i w = some ((), w') ∧ Unloads k i w w' := by
  obtain ⟨bindings, hforget, hbindings⟩ := s.pool.forget_spec i
  refine ⟨_, unload_eq hs i, ?_⟩
  rw [hforget]
  exact .of_changed hs (s.contexts.frameStacks.get?_erase i) (s.callbacks.get?_erase i) hbindings

end Act

/-! ## What happened -/

/-- One thing that happened to a hook layer, as far as its pool and the journal tell. -/
inductive Happening
  /-- Something was written into the journal, other than that this layer forgot an instance. -/
  | told (e : Event)
  /-- An operation on the pool was performed. -/
  | pooled (a : Pool.Action)
  /-- The layer forgot an instance, with or without a callback kept for it. -/
  | unloaded (i : InstanceId) (kept : Bool)

namespace Happening

/-- What is written into the journal. -/
def event? (k : SubsystemId) : Happening → Option Event
  | told e => some e
  | pooled _ => none
  | unloaded i kept => some (.unloaded k i kept)

/-- What is done with the pool. -/
def action? : Happening → Option Pool.Action
  | told _ => none
  | pooled a => some a
  | unloaded i _ => some (.forget i)

/-- What is done with the pool in a row. -/
def actions (hs : List Happening) : List Pool.Action :=
  hs.filterMap action?

theorem actions_append (hs hs' : List Happening) : actions (hs ++ hs') = actions hs ++ actions hs' :=
  List.filterMap_append

/-- Binding is something that is done with the pool. -/
theorem exists_of_actions {hs : List Happening} {first rest : List Pool.Action} {id : StringId} {part : Part}
    (h : actions hs = first ++ .bind i id part :: rest) :
    ∃ before later, hs = before ++ .pooled (.bind i id part) :: later ∧ actions before = first := by
  obtain ⟨before, others, rfl, hbefore, hothers⟩ := List.filterMap_eq_append_iff.1 h
  obtain ⟨skipped, x, later, rfl, hskipped, hx, -⟩ := List.filterMap_eq_cons_iff.1 hothers
  refine ⟨before ++ skipped, later, ?_, ?_⟩
  · cases x with
    | pooled a =>
      cases hx
      simp
    | told e => cases hx
    | unloaded j kept => cases hx
  · rw [actions_append, show actions before = first from hbefore, actions,
      List.filterMap_eq_nil_iff.2 hskipped, List.append_nil]

end Happening

namespace World

/-- What happened to a layer since the world `u`. -/
structure Since (k : SubsystemId) (u : World σ) (hs : List Happening) (w : World σ) : Prop where
  journal : w.events = u.events ++ hs.filterMap (Happening.event? k)
  pool : (u.pool k).GoesOn (Happening.actions hs) (w.pool k)
  /-- Whenever the journal tells that the layer forgot an instance, its pool did. -/
  forgot : ∀ i kept, .told (.unloaded k i kept) ∉ hs

/-- Whatever happened until the world `w`, some more has happened until `w'`. -/
def Extends (k : SubsystemId) (w w' : World σ) : Prop :=
  ∀ u hs, Since k u hs w → ∃ later, Since k u (hs ++ later) w'

namespace Since

variable {u w w' : World σ} {hs before later : List Happening} {kept : Bool} {address : Cell}

theorem refl (w : World σ) : Since k w [] w :=
  ⟨(List.append_nil _).symm, .refl _, fun _ _ => List.not_mem_nil⟩

/-- Every entry of the journal that tells of forgetting is one of the things that happened. -/
theorem exists_of_unloaded (h : Since k u hs w) {told rest : List Event}
    (hevents : w.events = u.events ++ (told ++ .unloaded k i kept :: rest)) :
    ∃ before later, hs = before ++ .unloaded i kept :: later ∧ before.filterMap (Happening.event? k) = told ∧
      later.filterMap (Happening.event? k) = rest := by
  have hsplit : hs.filterMap (Happening.event? k) = told ++ .unloaded k i kept :: rest :=
    List.append_cancel_left (h.journal.symm.trans hevents)
  obtain ⟨before, others, rfl, hbefore, hothers⟩ := List.filterMap_eq_append_iff.1 hsplit
  -- what is not told in between was done with the pool
  obtain ⟨skipped, x, later, rfl, hskipped, hx, hlater⟩ := List.filterMap_eq_cons_iff.1 hothers
  refine ⟨before ++ skipped, later, ?_, ?_, hlater⟩
  · cases x with
    | unloaded j kept =>
      cases hx
      simp
    | told e =>
      cases hx
      exact absurd (by simp) (h.forgot i kept)
    | pooled a => cases hx
  · rw [List.filterMap_append, hbefore, List.filterMap_eq_nil_iff.2 hskipped, List.append_nil]

/-- Since it was forgotten, no address leads an instance anywhere that was not given to it since. -/
theorem resolve?_of_unloaded (h : Since k u (before ++ .unloaded i kept :: later) w)
    (hnever : ∀ first id part rest, later = first ++ .pooled (.bind i id part) :: rest →
      (((u.pool k).after (Happening.actions (before ++ .unloaded i kept :: first))).perform (.bind i id part)).1 ≠
        .ok address) :
    (w.pool k).resolve? i address = none := by
  -- for the pool, the entry is an operation like any other
  have hactions : ∀ hs, Happening.actions (before ++ .unloaded i kept :: hs) =
      Happening.actions before ++ .forget i :: Happening.actions hs := fun hs => Happening.actions_append before _
  have hpool := h.pool
  rw [hactions] at hpool
  refine hpool.resolve?_of_forgotten fun first id part rest hsplit => ?_
  obtain ⟨start, others, hlater, hstart⟩ := Happening.exists_of_actions hsplit
  rw [← hstart, ← hactions]
  exact hnever start id part others hlater

/-- More happens. -/
theorem append (h : Since k u hs w) (hjournal : w'.events = w.events ++ later.filterMap (Happening.event? k))
    (hpool : (u.pool k).GoesOn (Happening.actions hs ++ Happening.actions later) (w'.pool k))
    (hforgot : ∀ i kept, .told (.unloaded k i kept) ∉ later) : Since k u (hs ++ later) w' where
  journal := by rw [hjournal, h.journal, List.filterMap_append, List.append_assoc]
  pool := by rwa [Happening.actions_append]
  forgot i kept hmem := (List.mem_append.1 hmem).elim (h.forgot i kept) (hforgot i kept)

end Since

end World

/-! ## Operations -/

namespace Act

theorem track_extends (k : SubsystemId) : Track (Extends k : World σ → World σ → Prop) where
  refl w u hs h := ⟨[], by simpa using h⟩
  trans huv hvw u hs h := by
    obtain ⟨first, hfirst⟩ := huv u hs h
    obtain ⟨second, hsecond⟩ := hvw u _ hfirst
    exact ⟨first ++ second, by simpa using hsecond⟩

/-- Nothing happens to the pool, and nothing is told. -/
theorem extends_of_same {w w' : World σ} (hpool : w'.pool k = w.pool k) (hj : w'.events = w.events) : Extends k w w' :=
  fun u hs h => ⟨[], h.append (by simp [hj]) (by simpa [Happening.actions, hpool] using h.pool) (by simp)⟩

theorem extends_record (w : World σ) {e : Event} (he : ∀ i kept, e ≠ .unloaded k i kept) : Extends k w (w.record e) := by
  refine fun u hs h => ⟨[.told e], h.append (events_record w e) ?_ fun i kept hmem => ?_⟩
  · show (u.pool k).GoesOn (Happening.actions hs ++ []) (w.pool k)
    rw [List.append_nil]
    exact h.pool
  · exact he i kept (Happening.told.inj (List.mem_singleton.1 hmem)).symm

theorem pool_setSubsystem {w : World σ} {s : Subsystem} (hs : w.subsystem? l = some s) (t : Subsystem) :
    (w.setSubsystem l t).pool k = if k = l then t.pool else w.pool k := by
  rw [World.pool, stock?_setSubsystem hs]
  split <;> rfl

/-- Operations on the pool. -/
theorem extends_setPool {kind : Pool.Action → Prop} {w : World σ} {s : Subsystem} {q : Pool}
    (hs : w.subsystem? l = some s) (hq : s.pool.Leads kind q) : Extends k w (w.setSubsystem l { s with pool := q }) := by
  by_cases hl : k = l
  · subst hl
    intro u hs' h
    have hgoes := h.pool
    rw [pool_of_subsystem? hs] at hgoes
    -- the operations that lead to the new pool are what happened, and none of them is told
    obtain ⟨later, hlater⟩ := hgoes.leads hq
    have hactions : Happening.actions (later.map .pooled) = later := by
      simp [Happening.actions, List.filterMap_map, Function.comp_def, Happening.action?]
    refine ⟨later.map .pooled, h.append ?_ ?_ (by simp)⟩
    · simp [List.filterMap_map, Function.comp_def, Happening.event?]
    · rw [hactions, pool_setSubsystem hs, if_pos rfl]
      exact hlater
  · exact extends_of_same (by rw [pool_setSubsystem hs, if_neg hl]) rfl

theorem extends_pool (l : SubsystemId) (a : Pool.Action) :
    (onPool l fun p => p.perform a : Act σ a.Reply).Keeps (Extends k) := by
  refine .onSubsystem fun w s hs => ?_
  have hleads : s.pool.Leads (fun _ => True) (s.pool.perform a).2 := .perform .refl trivial
  exact extends_setPool hs hleads

theorem extends_removeString (l : SubsystemId) (id : StringId) :
    (removeString l id : Act σ (Except PoolError CellString)).Keeps (Extends k) := by
  refine .bind (track_extends k) (extends_pool l _) fun r => ?_
  cases r with
  | ok s => exact .bind (track_extends k) (.record fun w => extends_record w nofun) fun _ => .pure (track_extends k) _
  | error e => exact .pure (track_extends k) _

/-- Unloading is told, and the pool is told. -/
theorem extends_unload (l : SubsystemId) (i : InstanceId) : (unload l i : Act σ Unit).Keeps (Extends k) := by
  intro w u w' hunload
  obtain ⟨⟨listed, w₁⟩, hremove, -⟩ := Option.bind_eq_some_iff.1 hunload
  obtain ⟨s, hs, -⟩ := Option.map_eq_some_iff.1 hremove
  rw [unload_eq hs] at hunload
  cases hunload
  by_cases hl : k = l
  · subst hl
    -- both at once: the operation on the pool and the entry that tells of it
    refine fun v hs' h => ⟨[.unloaded i (s.callbacks.contains i)], h.append (events_record ..) ?_ (by simp)⟩
    have hgoes := h.pool.perform (.forget i)
    rw [pool_of_subsystem? hs] at hgoes
    show (v.pool k).GoesOn (Happening.actions hs' ++ [.forget i]) ((w.setSubsystem k _).pool k)
    rw [pool_setSubsystem hs, if_pos rfl]
    exact hgoes
  · -- another layer forgets the instance
    have hsame : ∀ t, (w.setSubsystem l t).pool k = w.pool k := fun t => by rw [pool_setSubsystem hs, if_neg hl]
    refine (track_extends k).trans (extends_of_same (hsame _) rfl) (extends_record _ ?_)
    rintro j kept ⟨⟩
    exact hl rfl

/-- Whatever has to do with neither layers nor the journal. -/
theorem extends_beside {w w' : World σ} (hs : w'.subsystems = w.subsystems) (hj : w'.journal = w.journal) :
    Extends k w w' := by
  refine extends_of_same ?_ (congrArg Array.toList hj)
  unfold World.pool World.stock? subsystem?
  rw [hs]

theorem extends_sameStock {w w' : World σ} (h : SameStock w w') : Extends k w w' := by
  refine extends_of_same ?_ h.events
  unfold World.pool
  rw [h.layers]

theorem keepsTasks_extends (k : SubsystemId) : KeepsTasks (Extends k : World σ → World σ → Prop) :=
  .of_parts (track_extends k) (fun _ _ => extends_beside rfl rfl) (fun _ _ => extends_beside rfl rfl) fun w e he =>
    extends_record w (by rintro i kept rfl; cases he)

theorem extends_tell (w : World σ) {e : Event} (he : e.isUnloading = false) : Extends k w (w.record e) :=
  extends_record w (by rintro i kept rfl; cases he)

theorem upkeep_extends (k : SubsystemId) : Upkeep (Extends k : World σ → World σ → Prop) :=
  .of_stocks (track_extends k) extends_sameStock extends_setPool extends_removeString (keepsTasks_extends k)
    fun w _ _ he => extends_tell w he

theorem aloof_extends (k : SubsystemId) : Aloof (Extends k : World σ → World σ → Prop) :=
  .of_stocks (track_extends k) extends_sameStock extends_setPool extends_removeString (keepsTasks_extends k)
    fun w _ _ he => extends_tell w he

/-- What host code asks for is something that happens. -/
theorem extends_perform (ids : CallbackIds σ) (resume : Resume σ) (o : Operation) :
    (o.perform ids resume).Keeps (Extends k) := by
  cases o with
  | newSubsystem config collaborators =>
    intro w l w' h
    obtain ⟨hnone, hstock, -, -, hjournal⟩ := stock?_newSubsystem h
    refine extends_of_same ?_ (congrArg Array.toList hjournal)
    unfold World.pool
    rw [hstock]
    split
    · -- the new layer has an empty pool
      rename_i hk
      rw [hk, hnone]
      rfl
    · rfl
  | _ =>
    exact (aloof_extends k).perform (upkeep_extends k) extends_unload ids resume trivial fun l _ => extends_pool l .collect

end Act

/-! ## Runs -/

namespace Machine

theorem framing_extends (k : SubsystemId) : Act.Framing (Extends k : World σ → World σ → Prop) where
  track := Act.track_extends k
  setContexts _ hs := (Act.upkeep_extends k).setContexts _ hs
  setDepth _ hs := Act.extends_of_same (by rw [Act.pool_setSubsystem hs]; split <;> simp [pool_of_subsystem?, *]) rfl
  collect l := Act.extends_pool l .collect
  entered w _ _ := Act.extends_tell w rfl
  left w _ _ := Act.extends_tell w rfl
  popWithoutFrame w _ := Act.extends_tell w rfl

theorem regimeOfHappenings (host : Host σ) (k : SubsystemId) : Regime host (Extends k) fun _ r => Run.Flows (Extends k) r := by
  have U := Act.upkeep_extends (σ := σ) k
  have F := framing_extends (σ := σ) k
  have C := composes_flows U.track
  refine C.regime (Act.aloof_extends k) (fun o _ => Act.extends_perform _ _ o) host.uses_operations_true
    (fun w e he => Act.extends_tell w (by cases e <;> first | rfl | cases he)) U.requestAwait U.requestDetach
    fun l i h => ?_
  refine C.bind (C.act (keeps_openFrame F l i)) fun _ => ?_
  exact C.bind h fun a => C.bind (C.act (keeps_closeFrame F l i)) fun _ => C.pure a

/-- Between two moments of a run something happened, whatever it was. -/
theorem since_moments (host : Host σ) (k : SubsystemId) (p : Program σ α) (depth : Nat) (d : Activity) (w : World σ)
    {n m : Nat} (hnm : n ≤ m) :
    ∃ hs, Since k (p.run host (enter host depth) d w n).world hs (p.run host (enter host depth) d w m).world := by
  have G := regimeOfHappenings host k
  have hflows : (p.run host (enter host depth)).Flows (Extends k) :=
    G.toComposes.program G.aloof.toMild (fun o _ => Act.extends_perform _ _ o) (G.enter depth) p.uses_operations_true
  obtain ⟨hs, h⟩ := hflows.moments d w hnm _ [] (.refl _)
  exact ⟨hs, h⟩

end Machine

end Interpose

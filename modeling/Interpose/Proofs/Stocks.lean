import Interpose.Proofs.FrameRuns
import Interpose.Proofs.PoolOperations
import Interpose.Proofs.SteadyRuns

/-!
# What execute calls do not work with

Apart from its count of calls, a hook layer has a pool and the systems it hands work to; and there are the tasks. This is
all that is left of a world when the instances, the hooks, the frames and the callbacks are left out. A relation that
looks at nothing else, and at the journal, is steady as soon as it holds across the operations on pools and on tasks and
across single entries.

Main statements: `Act.Steady.of_stocks`, and `Machine.restocked_openFrame` and `Machine.restocked_closeFrame` for what the
opening and the closing of frames do.
-/

namespace Interpose

variable {σ α : Type}

/-- An entry of the journal that tells what happened to calls that are counted, to strings or to tasks. -/
def Event.ofStocks : Event → Bool
  | .entered _ _ | .left _ _ | .resumed _ _ | .stringRemoved _ _ | .taskRemoved _ => true
  | _ => false

/-- An entry of the journal that tells that an instance was unloaded. -/
def Event.isUnloading : Event → Bool
  | .unloaded _ _ _ => true
  | _ => false

/-- The part of a hook layer that is looked at. -/
structure Stock where
  pool : Pool
  execDepth : Nat
  collaborators : Collaborators

def Subsystem.stock (s : Subsystem) : Stock where
  pool := s.pool
  execDepth := s.execDepth
  collaborators := s.collaborators

namespace World

/-- The part of a hook layer that is looked at. -/
def stock? (w : World σ) (k : SubsystemId) : Option Stock :=
  (w.subsystem? k).map Subsystem.stock

theorem stock?_of_subsystem? {w : World σ} {k : SubsystemId} {s : Subsystem} (h : w.subsystem? k = some s) :
    w.stock? k = some s.stock :=
  congrArg (Option.map Subsystem.stock) h

theorem execDepth_eq (w : World σ) (k : SubsystemId) : w.execDepth k = ((w.stock? k).map Stock.execDepth).getD 0 := by
  unfold execDepth stock?
  rw [Option.map_map]
  rfl

theorem stock?_setSubsystem {w : World σ} {l : SubsystemId} {s : Subsystem} (h : w.subsystem? l = some s)
    (t : Subsystem) (k : SubsystemId) : (w.setSubsystem l t).stock? k = if k = l then some t.stock else w.stock? k := by
  unfold stock?
  rw [subsystem?_setSubsystem h]
  split <;> rfl

/-- The worlds differ at most in what is not looked at. -/
structure SameStock (w w' : World σ) : Prop where
  layers : ∀ k, w'.stock? k = w.stock? k
  tasks : w'.tasks = w.tasks
  resumer : w'.resumer = w.resumer
  journal : w'.journal = w.journal

/-- Nothing is changed but instances, slots and the host's own state. -/
theorem SameStock.beside {w w' : World σ} (hs : w'.subsystems = w.subsystems) (ht : w'.tasks = w.tasks)
    (hr : w'.resumer = w.resumer) (hj : w'.journal = w.journal) : w.SameStock w' :=
  ⟨fun k => by unfold stock? subsystem?; rw [hs], ht, hr, hj⟩

theorem SameStock.setSubsystem {w : World σ} {l : SubsystemId} {s t : Subsystem} (h : w.subsystem? l = some s)
    (ht : t.stock = s.stock) : w.SameStock (w.setSubsystem l t) := by
  refine ⟨fun k => ?_, rfl, rfl, rfl⟩
  rw [stock?_setSubsystem h, ht]
  split
  · rename_i hk
    rw [hk, stock?_of_subsystem? h]
  · rfl

theorem SameStock.events {w w' : World σ} (h : w.SameStock w') : w'.events = w.events :=
  congrArg Array.toList h.journal

end World

open World

namespace Act

theorem sameStock_onMount {l : SubsystemId} {x : Export} {f : Mount → α × Mount} {w w' : World σ} {a : α}
    (h : onMount l x f w = some (a, w')) : w.SameStock w' := by
  obtain ⟨s, hs, e⟩ := Option.map_eq_some_iff.1 h
  cases e
  have hset : w.SameStock
      (w.setSubsystem l { s with hooks := s.hooks.set (f ⟨s.hooks.get x, w.exports.get x⟩).2.hook x }) :=
    .setSubsystem hs rfl
  exact ⟨hset.layers, rfl, rfl, rfl⟩

/-- A new layer has an empty pool, and no calls are under way. -/
theorem stock?_newSubsystem {config : Config} {collaborators : Collaborators} {w w' : World σ} {k : SubsystemId}
    (h : newSubsystem config collaborators w = some (k, w')) :
    w.stock? k = none ∧ (∀ l, w'.stock? l = if l = k then some ⟨.empty, 0, collaborators⟩ else w.stock? l) ∧
      w'.tasks = w.tasks ∧ w'.resumer = w.resumer ∧ w'.journal = w.journal := by
  cases h
  refine ⟨?_, fun l => ?_, rfl, rfl, rfl⟩
  · unfold World.stock? subsystem?
    rw [Array.getElem?_eq_none (Nat.le_refl _)]
    rfl
  · unfold World.stock?
    have hpush : ∀ s : Subsystem, ({ w with subsystems := w.subsystems.push s } : World σ).subsystem? l =
        if l.index = w.subsystems.size then some s else w.subsystem? l := fun s => Array.getElem?_push
    rw [hpush]
    by_cases hl : l = ⟨w.subsystems.size⟩
    · rw [if_pos (congrArg SubsystemId.index hl), if_pos hl]
      rfl
    · rw [if_neg (fun he => hl (congrArg SubsystemId.mk he)), if_neg hl]

section

variable {R : World σ → World σ → Prop} (t : Track R) (hsame : ∀ {w w'}, SameStock w w' → R w w')
  (hpool : ∀ {w : World σ} {l : SubsystemId} {s : Subsystem} {q : Pool}, w.subsystem? l = some s →
    s.pool.LeadsGently q → R w (w.setSubsystem l { s with pool := q }))
  (hremove : ∀ l id, (removeString l id : Act σ (Except PoolError CellString)).Keeps R) (htasks : KeepsTasks R)
  (htell : ∀ (w : World σ) (e : Event), e.ofStocks = false → e.isUnloading = false → R w (w.record e))
include t hsame hpool hremove htasks htell

/-- A relation that looks at nothing but stocks, tasks and the journal, and does not mind most of its entries. -/
theorem Upkeep.of_stocks : Upkeep R where
  track := t
  setInstance _ _ := hsame (.beside rfl rfl rfl rfl)
  addInstance _ _ _ := hsame (.beside rfl rfl rfl rfl)
  setPool := hpool
  removeString := hremove
  setRefArgs _ hs := hsame (.setSubsystem hs rfl)
  tasks := htasks
  setHost _ _ := hsame (.beside rfl rfl rfl rfl)
  tell w e he := htell w e (by cases e <;> first | rfl | cases he) (by cases e <;> first | rfl | cases he)
  past {α l x call} _ hcall := by
    have hmount : ∀ {β : Type} (f : Mount → β × Mount), (onMount l x f : Act σ β).Keeps R := fun f _ _ _ h =>
      hsame (sameStock_onMount h)
    exact .bind t (hmount _) fun took => .bind t hcall fun a => .bind t (hmount _) fun _ => .pure t a
  setContexts _ hs := hsame (.setSubsystem hs rfl)
  disown hs := hsame (.setSubsystem hs rfl)
  toggle l x on _ _ _ h := hsame (sameStock_onMount h)
  asked w e he := htell w e (by cases e <;> first | rfl | cases he) (by cases e <;> first | rfl | cases he)

theorem Aloof.of_stocks : Aloof R where
  toMild := (Upkeep.of_stocks t hsame hpool hremove htasks htell).toMild
  putInstance _ _ := hsame (.beside rfl rfl rfl rfl)
  setCallbacks _ hs := hsame (.setSubsystem hs rfl)
  setHolds _ hs := hsame (.setSubsystem hs rfl)
  execHook _ _ _ _ _ h := hsame (sameStock_onMount h)
  callbackLost w _ := htell w _ rfl rfl

omit htell in
/-- If it does not mind that instances are unloaded either, it is steady. -/
theorem Steady.of_stocks (htell : ∀ (w : World σ) (e : Event), e.ofStocks = false → R w (w.record e)) : Steady R :=
  have U : Upkeep R := .of_stocks t hsame hpool hremove htasks fun w e he _ => htell w e he
  have A : Aloof R := .of_stocks t hsame hpool hremove htasks fun w e he _ => htell w e he
  { U, A with
    unloaded := fun w l i kept => htell w _ rfl
    handsOver := fun w e he => htell w e (by cases e <;> first | rfl | cases he) }

end

end Act

/-! ## Frames -/

/-- The stock when a call began: it is counted. -/
def Stock.entered (x : Stock) : Stock :=
  { x with execDepth := x.execDepth + 1 }

/-- The stock when a call is over: it is counted no longer, and with the last one the temporary strings are collected. -/
def Stock.left (x : Stock) : Stock :=
  { x with
    execDepth := x.execDepth - 1
    pool := if x.execDepth = 1 then x.pool.collect.2 else x.pool }

/-- One layer has another stock than before, and the tasks are as they were. -/
structure World.Restocked (l : SubsystemId) (x y : Stock) (w w' : World σ) : Prop where
  before : w.stock? l = some x
  after : ∀ k, w'.stock? k = if k = l then some y else w.stock? k
  tasks : w'.tasks = w.tasks
  resumer : w'.resumer = w.resumer

namespace World.Restocked

variable {l : SubsystemId} {x y z : Stock} {u v w : World σ}

theorem trans (h : Restocked l x y u v) (h' : Restocked l y z v w) : Restocked l x z u w := by
  refine ⟨h.before, fun k => ?_, h'.tasks.trans h.tasks, h'.resumer.trans h.resumer⟩
  rw [h'.after, h.after]
  split <;> rfl

theorem record (h : Restocked l x y v w) (e : Event) : Restocked l x y v (w.record e) :=
  ⟨h.before, h.after, h.tasks, h.resumer⟩

/-- The stock that a layer has is known. -/
theorem stock? (h : Restocked l x y v w) : w.stock? l = some y := by
  rw [h.after, if_pos rfl]

end World.Restocked

/-- Working on a layer, when its stock is known. -/
theorem World.Restocked.onSubsystem {l : SubsystemId} {x y : Stock} {u w w' : World σ} (h : Restocked l x y u w)
    {f : Subsystem → α × Subsystem} {a : α} (he : Act.onSubsystem l f w = some (a, w')) (g : Stock → Stock)
    (hg : ∀ s, (f s).2.stock = g s.stock) : Restocked l x (g y) u w' := by
  obtain ⟨s, hs, e⟩ := Option.map_eq_some_iff.1 he
  cases e
  have hy : s.stock = y := Option.some.inj ((stock?_of_subsystem? hs).symm.trans h.stock?)
  refine h.trans ⟨h.stock?, fun k => ?_, rfl, rfl⟩
  rw [stock?_setSubsystem hs, hg, hy]

/-- A string is removed if it is there, and that is told. -/
theorem Act.removeString_spec {l : SubsystemId} {id : StringId} {r : Except PoolError CellString} {w w' : World σ}
    (h : removeString l id w = some (r, w')) :
    ∃ x, Restocked l x { x with pool := (x.pool.perform (.remove id)).2 } w w' ∧
      w'.events = w.events ++ if x.pool.contains id then [.stringRemoved l id] else [] := by
  obtain ⟨⟨r₁, w₁⟩, h₁, h⟩ := Option.bind_eq_some_iff.1 h
  have hevents := events_onSubsystem h₁
  obtain ⟨s, hs, e⟩ := Option.map_eq_some_iff.1 h₁
  have hr : (s.pool.perform (.remove id)).1 = r₁ := congrArg Prod.fst e
  have hw : w.setSubsystem l { s with pool := (s.pool.perform (.remove id)).2 } = w₁ := congrArg Prod.snd e
  have hrestocked : Restocked l s.stock { s.stock with pool := (s.pool.perform (.remove id)).2 } w w₁ := by
    rw [← hw]
    exact ⟨stock?_of_subsystem? hs, stock?_setSubsystem hs _, rfl, rfl⟩
  refine ⟨s.stock, ?_⟩
  cases hc : s.stock.pool.contains id with
  | false =>
    have hsame : s.pool.perform (.remove id) = _ := (Pool.perform_of_not_contains hc).2.1
    rw [hsame] at hr
    subst hr
    cases h
    exact ⟨hrestocked, by simp [hevents]⟩
  | true =>
    obtain ⟨e, he⟩ := Pool.contains_iff.1 hc
    have hsame : s.pool.perform (.remove id) = _ := Pool.perform_remove he
    rw [hsame] at hr
    subst hr
    cases h
    exact ⟨hrestocked.record _, by simp [hevents]⟩

/-- Working on a layer works on one that exists. -/
theorem Act.restocked_of_onSubsystem {l : SubsystemId} {w w' : World σ} {f : Subsystem → α × Subsystem} {a : α}
    (he : onSubsystem l f w = some (a, w')) : ∃ x, Restocked l x x w w := by
  obtain ⟨s, hs, -⟩ := Option.map_eq_some_iff.1 he
  have hx := stock?_of_subsystem? hs
  refine ⟨s.stock, hx, fun k => ?_, rfl, rfl⟩
  split
  · rename_i hk
    rw [hk, hx]
  · rfl

namespace Machine

variable {l : SubsystemId} {i : InstanceId} {w w' : World σ}

theorem restocked_openFrame (h : openFrame l i w = some ((), w')) : ∃ x, Restocked l x x.entered w w' := by
  obtain ⟨⟨n, w₁⟩, h₁, h⟩ := Option.bind_eq_some_iff.1 h
  obtain ⟨⟨u, w₂⟩, h₂, h⟩ := Option.bind_eq_some_iff.1 h
  cases h
  obtain ⟨x, hx⟩ := Act.restocked_of_onSubsystem h₁
  -- the frame is no part of the stock, the count is
  have hpushed : Restocked l x x w w₁ := hx.onSubsystem h₁ id fun _ => rfl
  exact ⟨x, (hpushed.onSubsystem h₂ Stock.entered fun _ => rfl).record _⟩

theorem restocked_popFrame {f : Option Frame} (h : Act.popFrame l i w = some (f, w')) : ∃ x, Restocked l x x w w' := by
  obtain ⟨⟨f', w₁⟩, h₁, h⟩ := Option.bind_eq_some_iff.1 h
  obtain ⟨x, hx⟩ := Act.restocked_of_onSubsystem h₁
  have hpopped : Restocked l x x w w₁ := hx.onSubsystem h₁ id fun _ => rfl
  cases f' with
  | some g =>
    cases h
    exact ⟨x, hpopped⟩
  | none =>
    cases h
    exact ⟨x, hpopped.record _⟩

theorem restocked_closeFrame (h : closeFrame l i w = some ((), w')) : ∃ x, Restocked l x x.left w w' := by
  obtain ⟨⟨f, w₁⟩, h₁, h⟩ := Option.bind_eq_some_iff.1 h
  obtain ⟨⟨before, w₂⟩, h₂, h⟩ := Option.bind_eq_some_iff.1 h
  have h : (if before = 1 then do
      let _ ← Act.onPool l Pool.collect
      pure ()
    else pure () : Act σ Unit) (w₂.record (.left l i)) = some ((), w') := h
  obtain ⟨x, hpopped⟩ := restocked_popFrame h₁
  -- the call that is over was counted
  have hbefore : before = x.execDepth := by
    obtain ⟨s, hs, e⟩ := Option.map_eq_some_iff.1 h₂
    cases e
    exact congrArg Stock.execDepth (Option.some.inj ((stock?_of_subsystem? hs).symm.trans hpopped.stock?))
  have hcounted : Restocked l x { x with execDepth := x.execDepth - 1 } w w₂ :=
    hpopped.onSubsystem h₂ (fun y => { y with execDepth := y.execDepth - 1 }) fun _ => rfl
  refine ⟨x, ?_⟩
  unfold Stock.left
  rw [hbefore] at h
  by_cases hlast : x.execDepth = 1
  · rw [if_pos hlast] at h ⊢
    obtain ⟨⟨n, w₃⟩, h₃, h⟩ := Option.bind_eq_some_iff.1 h
    cases h
    exact (hcounted.record _).onSubsystem h₃ (fun y => { y with pool := y.pool.collect.2 }) fun _ => rfl
  · rw [if_neg hlast] at h ⊢
    cases h
    exact hcounted.record _

end Machine

end Interpose

import Interpose.Proofs.FrameRuns
import Interpose.Proofs.Hooks
import Interpose.World.Layers

/-!
# Hook layers one over the other

Hook layers that are made and installed one after another have each replaced the detour of the one before. A call goes
through all of them, the last one first: each takes its own hook out of the slot while it passes the call on, and has the
instance call natives through itself in the meantime, so that the call meets the next layer, and the machine's own entry
in the end. Hooks and callbacks are in step all the while. If the layers from the `m`-th on are passing a call of an
instance on, then the slot holds what the first `m` put there (`World.Layered`), the callback of the instance is that of
layer `m`, and each layer keeps the callback of the next one, the last of them that of the instance (`World.Diverted`).

Main statements: `World.AtRest.stack` for layers that were just installed, and a lemma for every step up and down.
-/

namespace Interpose

variable {σ α : Type}

/-! ## Stacks of hooks -/

/-- What the slot of the execute export holds when `n` layers were installed one over the other. -/
def Entry.stack : Nat → Entry
  | 0 => plain
  | n + 1 => detour ⟨n⟩ (stack n)

/-- The part of a hook layer that decides what calls make of it, but for its callbacks. -/
structure Station where
  hook : Hook
  owned : Bool
  events : EventSource

/-- A layer over `l` others whose execute hook is switched on. It has an owner, and answers no callbacks. -/
def Station.over (l : Nat) (attached : Bool) : Station where
  hook := ⟨.stack l, .stack (l + 1), true, attached⟩
  owned := true
  events := .unsupported

def Subsystem.station (s : Subsystem) : Station where
  hook := s.hooks.exec
  owned := s.owned
  events := s.collaborators.events

/-- Makes hook layers and installs them, one after another. -/
def Act.stack : List (Config × Collaborators) → Act σ Unit
  | [] => pure ()
  | (config, collaborators) :: rest => do
    let k ← newSubsystem config collaborators
    let _ ← install k
    stack rest

namespace World

/-- The part of a hook layer that decides what calls make of it, but for its callbacks. -/
def station? (w : World σ) (k : SubsystemId) : Option Station :=
  (w.subsystem? k).map Subsystem.station

/-- Of `n` hook layers, installed one over the other, the first `m` have their execute hooks in place. -/
structure Layered (n m : Nat) (w : World σ) : Prop where
  slot : w.exports.exec = .stack m
  stations : ∀ k, w.station? k = if k.index < n then some (.over k.index (decide (k.index < m))) else none

theorem station?_of_subsystem? {w : World σ} {k : SubsystemId} {s : Subsystem} (h : w.subsystem? k = some s) :
    w.station? k = some s.station :=
  congrArg (Option.map Subsystem.station) h

theorem station?_setSubsystem {w : World σ} {k : SubsystemId} {s : Subsystem} (h : w.subsystem? k = some s)
    (t : Subsystem) (l : SubsystemId) :
    (w.setSubsystem k t).station? l = if l = k then some t.station else w.station? l := by
  unfold station?
  rw [subsystem?_setSubsystem h]
  split <;> rfl

section

variable {n m l : Nat} {w w' : World σ}

theorem Layered.of_same (h : Layered n m w) (hslot : w'.exports.exec = w.exports.exec)
    (hstations : ∀ k, w'.station? k = w.station? k) : Layered n m w' :=
  ⟨hslot.trans h.slot, fun k => (hstations k).trans (h.stations k)⟩

theorem Layered.layer (h : Layered n m w) (hl : l < n) :
    ∃ s, w.subsystem? ⟨l⟩ = some s ∧ s.station = .over l (decide (l < m)) :=
  Option.map_eq_some_iff.1 ((h.stations ⟨l⟩).trans (if_pos hl))

theorem Layered.attached (h : Layered n m w) (hl : l < n) (hm : l < m) :
    ∃ s, w.subsystem? ⟨l⟩ = some s ∧ s.hooks.exec.attached = true := by
  obtain ⟨s, hs, hstation⟩ := h.layer hl
  have hattached : s.hooks.exec.attached = decide (l < m) := congrArg (fun t => t.hook.attached) hstation
  exact ⟨s, hs, hattached.trans (decide_eq_true hm)⟩

theorem Layered.isAlive (h : Layered n m w) (hl : l < n) : w.isAlive ⟨l⟩ = true := by
  obtain ⟨s, hs, hstation⟩ := h.layer hl
  have howned : s.owned = true := congrArg Station.owned hstation
  unfold World.isAlive
  rw [hs]
  show (s.owned || decide (0 < s.holds)) = true
  rw [howned, Bool.true_or]

/-- A call meets the last layer that has its hook in place. -/
theorem Layered.entry (h : Layered n m w) (hm : m ≤ n) : w.entry .exec = .stack m := by
  show w.exports.exec.effective w.isAlive = _
  rw [h.slot]
  cases m with
  | zero => rfl
  | succ m =>
    rw [Entry.stack, Entry.effective, h.isAlive hm]
    rfl

/-- What working on the hook of one layer makes of the stack. -/
theorem Layered.of_mount (m' : Nat) {f : Mount → α × Mount} {a b : α} (h : Layered n m w) (hl : l < n)
    (he : Act.onMount ⟨l⟩ .exec f w = some (a, w'))
    (hf : f ⟨(Station.over l (decide (l < m))).hook, .stack m⟩ =
      (b, ⟨(Station.over l (decide (l < m'))).hook, .stack m'⟩))
    (hothers : ∀ j, j ≠ l → (j < m' ↔ j < m)) : a = b ∧ Layered n m' w' := by
  obtain ⟨s, hs, hstation⟩ := h.layer hl
  obtain ⟨t, ht, eq⟩ := Option.map_eq_some_iff.1 he
  obtain rfl : s = t := Option.some.inj (hs.symm.trans ht)
  have hhook : s.hooks.exec = (Station.over l (decide (l < m))).hook := congrArg Station.hook hstation
  have hresult : f ⟨s.hooks.get .exec, w.exports.get .exec⟩ =
      (b, ⟨(Station.over l (decide (l < m'))).hook, .stack m'⟩) := by
    rw [← hf, ← hhook, ← h.slot]
    rfl
  simp only [hresult] at eq
  cases eq
  refine ⟨rfl, rfl, fun k => ?_⟩
  show (w.setSubsystem ⟨l⟩ _).station? k = _
  rw [station?_setSubsystem hs]
  split
  · rename_i hk
    subst hk
    rw [if_pos hl]
    have howned : s.owned = true := congrArg Station.owned hstation
    have hevents : s.collaborators.events = .unsupported := congrArg Station.events hstation
    simp only [Subsystem.station, PerExport.set, howned, hevents]
    rfl
  · rename_i hk
    have hkl : k.index ≠ l := fun e => hk (subsystemId_eq.1 e)
    rw [h.stations k]
    simp only [hothers k.index hkl]

/-- The last hook in place is taken out of the slot. -/
theorem Layered.borrow {took : Bool} (h : Layered n (m + 1) w) (hm : m < n)
    (he : Act.borrow ⟨m⟩ .exec w = some (took, w')) : took = true ∧ Layered n m w' := by
  refine h.of_mount m hm he ?_ fun j hj => by omega
  simp [Mount.detach, Station.over]

/-- The next hook is put back into the slot. -/
theorem Layered.reattach (h : Layered n m w) (hm : m < n)
    (he : Act.reattachExec ⟨m⟩ w = some ((), w')) : Layered n (m + 1) w' := by
  refine (h.of_mount (m + 1) (b := ()) hm he ?_ fun j hj => by omega).2
  simp [Mount.reattach, Mount.attach, Station.over]

/-- A hook that is in place stays there. -/
theorem Layered.reattach_of_attached (h : Layered n n w) (hm : m < n)
    (he : Act.reattachExec ⟨m⟩ w = some ((), w')) : Layered n n w' := by
  refine (h.of_mount n (b := ()) hm he ?_ fun j hj => Iff.rfl).2
  simp [Mount.reattach, Mount.attach, Station.over, hm]

end

/-! ## Callbacks meanwhile -/

end World

/-- The callback that an instance has while its calls are passed on by the layers from the `l`-th on, of `n`; it is its
own if these are none. -/
def Callback.divert (own : Callback) (n l : Nat) : Callback :=
  if l < n then .intercept ⟨l⟩ else own

theorem Callback.divert_of_lt {n l : Nat} (h : l < n) (own : Callback) : own.divert n l = .intercept ⟨l⟩ :=
  if_pos h

theorem Callback.divert_self (own : Callback) (n : Nat) : own.divert n n = own :=
  if_neg (Nat.lt_irrefl n)

namespace World

/-- The layers from the `m`-th on, of `n`, are passing a call of instance `i` on, and nobody has asked for anything in
it. No other instance has its callback taken. What `own` tells are the callbacks that instances have of their own. -/
structure Diverted (n m : Nat) (i : InstanceId) (own : InstanceId → Option Callback) (w : World σ) : Prop where
  callbacks : ∀ j c, own j = some c → w.callback? j = some (if j = i then c.divert n m else c)
  proper : ∀ j k, w.callback? j = some (.intercept k) → j = i ∧ m < n
  saved : ∀ l < n, ∀ j, w.saved? ⟨l⟩ j = if j = i ∧ m ≤ l then (own i).map (·.divert n (l + 1)) else none
  known : m < n → ∃ c, own i = some c ∧ ∀ k, c ≠ .intercept k
  fresh : ∀ l, m ≤ l → l < n → ∃ f fs, w.frames ⟨l⟩ i = f :: fs ∧ f.reason = .none

/-- All hooks are in place, and no callback is taken. -/
structure AtRest (n : Nat) (own : InstanceId → Option Callback) (w : World σ) : Prop where
  stacked : Layered n n w
  diverted : ∀ i, Diverted n n i own w

section

variable {n m l : Nat} {i : InstanceId} {own own' : InstanceId → Option Callback} {w w' : World σ}

/-- If no layer passes a call on, it does not matter of which instance. -/
theorem Diverted.anyone (h : Diverted n n i own w) (j : InstanceId) : Diverted n n j own w where
  callbacks k c hc := by
    have := h.callbacks k c hc
    rw [Callback.divert_self, ite_self] at this
    rw [Callback.divert_self, ite_self, this]
  proper k l hk := absurd (h.proper k l hk).2 (Nat.lt_irrefl n)
  saved l hl k := by
    rw [h.saved l hl k, if_neg fun hi => absurd hl (Nat.not_lt.2 hi.2), if_neg fun hi => absurd hl (Nat.not_lt.2 hi.2)]
  known hn := absurd hn (Nat.lt_irrefl n)
  fresh l hn hl := absurd hl (Nat.not_lt.2 hn)

theorem Diverted.atRest (h : Diverted n n i own w) (hs : Layered n n w) : AtRest n own w :=
  ⟨hs, h.anyone⟩

/-- Callbacks that are not told need not be known. -/
theorem Diverted.forget (h : Diverted n m i own' w) (hown : ∀ j c, own j = some c → own' j = some c)
    (hknown : m < n → (own i).isSome) : Diverted n m i own w where
  callbacks j c hc := h.callbacks j c (hown j c hc)
  proper := h.proper
  saved l hl j := by
    rw [h.saved l hl j]
    split
    · rename_i hj
      obtain ⟨c, hc⟩ := Option.isSome_iff_exists.1 (hknown (Nat.lt_of_le_of_lt hj.2 hl))
      rw [hc, hown i c hc]
    · rfl
  known hm := by
    obtain ⟨c, hc⟩ := Option.isSome_iff_exists.1 (hknown hm)
    obtain ⟨c', hc', hproper⟩ := h.known hm
    rw [hown i c hc] at hc'
    cases hc'
    exact ⟨c, hc, hproper⟩
  fresh := h.fresh

theorem AtRest.forget (h : AtRest n own' w) (hown : ∀ j c, own j = some c → own' j = some c) : AtRest n own w :=
  ⟨h.stacked, fun i => (h.diverted i).forget hown fun hn => absurd hn (Nat.lt_irrefl n)⟩

/-- The callback that an instance has, as far as it is told, comes from one of its own. -/
theorem Diverted.learn (h : Diverted n m i own w) {c : Callback} (hc : w.callback? i = some c) :
    ∃ own' c', (∀ j c, own j = some c → own' j = some c) ∧ own' i = some c' ∧ (∀ k, c' ≠ .intercept k) ∧
      c = c'.divert n m ∧ Diverted n m i own' w := by
  by_cases hm : m < n
  · obtain ⟨c', hown, hproper⟩ := h.known hm
    have := h.callbacks i c' hown
    rw [if_pos rfl, hc] at this
    exact ⟨own, c', fun _ _ h => h, hown, hproper, Option.some.inj this, h⟩
  · -- it has its own callback now
    have hproper : ∀ k, c ≠ .intercept k := fun k hk => hm (h.proper i k (hk ▸ hc)).2
    have hdivert : ∀ c : Callback, c.divert n m = c := fun c => if_neg hm
    refine ⟨fun j => if j = i then some c else own j, c, fun j c' hj => ?_, if_pos rfl, hproper, (hdivert c).symm, ?_⟩
    · show (if j = i then some c else own j) = some c'
      split
      · rename_i hji
        have := h.callbacks j c' hj
        rw [if_pos hji, hdivert, hji, hc] at this
        exact this
      · exact hj
    · refine ⟨fun j c' hj => ?_, h.proper, fun l hl j => ?_, fun hn => absurd hn hm, h.fresh⟩
      · split at hj
        · rename_i hji
          cases hj
          rw [if_pos hji, hdivert, hji, hc]
        · rename_i hji
          rw [h.callbacks j c' hj]
      · have hml : ¬ m ≤ l := fun hml => hm (Nat.lt_of_le_of_lt hml hl)
        rw [h.saved l hl j, if_neg fun hj => hml hj.2, if_neg fun hj => hml hj.2]

/-! ## What callbacks have no part in -/

/-- Neither the callbacks of instances nor those that are kept differ, nor the frames of one instance. -/
theorem Diverted.of_same (h : Diverted n m i own w)
    (hcallbacks : ∀ j, w'.callback? j = w.callback? j ∨ w.callback? j = none ∧ w'.callback? j = some .standard)
    (hsaved : ∀ k j, w'.saved? k j = w.saved? k j)
    (hfresh : ∀ l, m ≤ l → l < n → w'.frames ⟨l⟩ i = w.frames ⟨l⟩ i) : Diverted n m i own w' where
  callbacks j c hc := by
    have hj := h.callbacks j c hc
    rcases hcallbacks j with he | ⟨hnone, -⟩
    · rw [he, hj]
    · rw [hj] at hnone
      cases hnone
  proper j k hj := by
    rcases hcallbacks j with he | ⟨-, hsome⟩
    · exact h.proper j k (he ▸ hj)
    · rw [hsome] at hj
      cases hj
  saved l hl j := (hsaved ⟨l⟩ j).trans (h.saved l hl j)
  known := h.known
  fresh l hm hl := by
    rw [hfresh l hm hl]
    exact h.fresh l hm hl

/-! ## Taking and giving back a callback -/

/-- The next layer takes the callback of the instance and keeps it. -/
theorem Diverted.taken (h : Diverted n (m + 1) i own w) (hm : m < n)
    (hfresh : ∃ f fs, w.frames ⟨m⟩ i = f :: fs ∧ f.reason = .none)
    (hcallbacks : ∃ c, w.callback? i = some c ∧
      (∀ j, w'.callback? j = if j = i then some (.intercept ⟨m⟩) else w.callback? j) ∧
      ∀ j, w'.saved? ⟨m⟩ j = if j = i then some ((w.saved? ⟨m⟩ i).getD c) else w.saved? ⟨m⟩ j)
    (hothers : ∀ l ≠ m, ∀ j, w'.saved? ⟨l⟩ j = w.saved? ⟨l⟩ j) (hframes : ∀ l, w'.frames ⟨l⟩ i = w.frames ⟨l⟩ i) :
    ∃ own', (∀ j c, own j = some c → own' j = some c) ∧ Diverted n m i own' w' := by
  obtain ⟨c, hc, hcallback, hsaved⟩ := hcallbacks
  obtain ⟨own', c', hown, hc', hproper, hdivert, h'⟩ := h.learn hc
  refine ⟨own', hown, fun j d hd => ?_, fun j k hj => ?_, fun l hl j => ?_, fun _ => ⟨c', hc', hproper⟩, fun l hml hl => ?_⟩
  · rw [hcallback]
    split
    · rw [Callback.divert_of_lt hm]
    · rename_i hj
      rw [h'.callbacks j d hd, if_neg hj]
  · rw [hcallback] at hj
    split at hj
    · rename_i hji
      exact ⟨hji, hm⟩
    · rename_i hji
      exact absurd (h'.proper j k hj).1 hji
  · by_cases hlm : l = m
    · subst hlm
      -- nothing was kept here before
      have hnone : ∀ j, w.saved? ⟨l⟩ j = none := fun j =>
        (h'.saved l hl j).trans (if_neg fun hj => absurd hj.2 (Nat.not_succ_le_self l))
      rw [hsaved, hnone, hnone]
      by_cases hji : j = i
      · rw [if_pos hji, if_pos ⟨hji, Nat.le_refl l⟩, hc', Option.getD_none, hdivert]
        rfl
      · rw [if_neg hji, if_neg fun hj => hji hj.1]
    · rw [hothers l hlm, h'.saved l hl j]
      have hle : m + 1 ≤ l ↔ m ≤ l := by omega
      simp only [hle]
  · rw [hframes]
    by_cases hlm : l = m
    · exact hlm ▸ hfresh
    · exact h'.fresh l (by omega) hl

/-- The layer that took the callback last keeps what the instance had then. -/
theorem Diverted.kept (h : Diverted n m i own w) (hm : m < n) :
    ∃ c, own i = some c ∧ (∀ k, c ≠ .intercept k) ∧ w.saved? ⟨m⟩ i = some (c.divert n (m + 1)) := by
  obtain ⟨c, hc, hproper⟩ := h.known hm
  refine ⟨c, hc, hproper, ?_⟩
  rw [h.saved m hm i, if_pos ⟨rfl, Nat.le_refl m⟩, hc]
  rfl

/-- The layer that took the callback last gives it back to the instance. -/
theorem Diverted.back (h : Diverted n m i own w) (hm : m < n)
    (hcallback : ∀ j, w'.callback? j = if j = i then w.saved? ⟨m⟩ i else w.callback? j)
    (hsaved : ∀ j, w'.saved? ⟨m⟩ j = if j = i then none else w.saved? ⟨m⟩ j)
    (hothers : ∀ l ≠ m, ∀ j, w'.saved? ⟨l⟩ j = w.saved? ⟨l⟩ j) (hframes : ∀ l, w'.frames ⟨l⟩ i = w.frames ⟨l⟩ i) :
    Diverted n (m + 1) i own w' := by
  obtain ⟨c, hc, hproper, hkept⟩ := h.kept hm
  refine ⟨fun j d hd => ?_, fun j k hj => ?_, fun l hl j => ?_, fun _ => ⟨c, hc, hproper⟩, fun l hml hl => ?_⟩
  · rw [hcallback]
    split
    · rename_i hj
      subst hj
      rw [hc] at hd
      cases hd
      exact hkept
    · rename_i hj
      rw [h.callbacks j d hd, if_neg hj]
  · rw [hcallback] at hj
    split at hj
    · rename_i hji
      refine ⟨hji, ?_⟩
      rw [hkept, Callback.divert] at hj
      split at hj
      · assumption
      · exact absurd (Option.some.inj hj) (hproper k)
    · rename_i hji
      exact absurd (h.proper j k hj).1 hji
  · by_cases hlm : l = m
    · subst hlm
      have hl' : ¬ (j = i ∧ l + 1 ≤ l) := fun hj => Nat.not_succ_le_self l hj.2
      rw [hsaved, if_neg hl']
      split
      · rfl
      · rename_i hji
        rw [h.saved l hl j, if_neg fun hj => hji hj.1]
    · rw [hothers l hlm, h.saved l hl j]
      have hle : m ≤ l ↔ m + 1 ≤ l := by omega
      simp only [hle]
  · rw [hframes]
    exact h.fresh l (by omega) hl

end

end World

end Interpose

import Mathlib.Data.List.Basic
import Interpose.Hook

/-!
# The history of a hook

A hook is switched on and off, and put back into its slot, while any number of calls are being passed on past it. Each of
these calls took the hook out of its slot when it began, or found it out already; each gives the hook back when it is
over, and they may be over in any order. Of all this the hook itself remembers two flags only, and a call only whether it
took the hook.

What keeps the two in step is an invariant on the calls under way: a hook that is switched on and out of its slot is
missed by one of them (`Usage.Orderly.missed`), and that call will put it back.

Main statement: `Usage.lawful`, what holds of a hook after any history.
-/

namespace Interpose

/-- No detour is the entry that it replaced. -/
theorem Entry.detour_ne (k : SubsystemId) (found : Entry) : Entry.detour k found ≠ found := by
  intro h
  have hsize := congrArg sizeOf h
  simp at hsize

namespace Mount

/-- Moving a hook into its slot or out of it does not switch it. -/
theorem wanted_attach (m : Mount) : m.attach.2.hook.wanted = m.hook.wanted := by
  unfold attach
  split <;> rfl

theorem wanted_detach (m : Mount) : m.detach.2.hook.wanted = m.hook.wanted := by
  unfold detach
  split <;> rfl

theorem wanted_reattach (m : Mount) : m.reattach.hook.wanted = m.hook.wanted := by
  unfold reattach
  split
  · exact m.wanted_attach
  · rfl

end Mount

/-- A hook with its slot, and the calls that are being passed on: for each of them whether it took the hook out of the
slot. -/
structure Usage where
  mount : Mount
  passing : List Bool

namespace Usage

/-- What is done with a hook. -/
inductive Step
  | install
  | remove
  | reattach
  /-- A call begins to be passed on. -/
  | borrow
  /-- One of the calls that are being passed on is over. -/
  | giveBack (position : Nat)

/-- A step that switches the hook, and whether it switches it on. -/
def Step.switch? : Step → Option Bool
  | install => some true
  | remove => some false
  | _ => none

/-- Whether the last step that switched the hook switched it on. A hook is made switched off. -/
def lastSwitch (steps : List Step) : Bool :=
  (steps.filterMap Step.switch?).getLast?.getD false

/-- A hook that was just made over the entry that was found in the slot. -/
def fresh (k : SubsystemId) (found : Entry) : Usage where
  mount := ⟨Hook.new k found, found⟩
  passing := []

/-- The hook after one of the calls is over. Where no call is at the position, none is. -/
def giveBack (u : Usage) (position : Nat) : Usage :=
  match u.passing[position]? with
  | some took => ⟨u.mount.giveBack took, u.passing.eraseIdx position⟩
  | none => u

/-- The hook after a step. -/
def after (u : Usage) : Step → Usage
  | .install => { u with mount := u.mount.install.2 }
  | .remove => { u with mount := u.mount.remove.2 }
  | .reattach => { u with mount := u.mount.reattach }
  | .borrow => ⟨u.mount.detach.2, u.mount.detach.1 :: u.passing⟩
  | .giveBack position => u.giveBack position

/-- The hook after steps in a row. -/
def run (u : Usage) (steps : List Step) : Usage :=
  steps.foldl after u

/-- The entries that a call through the slot goes through, as far as past `bound` detours. A detour takes its hook out of
the slot and passes the call on through the slot; `within` is what is done with the hook before that. -/
def entries (within : List Step) : (bound : Nat) → Usage → List Entry
  | 0, _ => []
  | bound + 1, u =>
    if u.mount.slot = u.mount.hook.detour then
      u.mount.slot :: entries within bound ((u.run within).after .borrow)
    else [u.mount.slot]

/-! ## What every step keeps -/

/-- A hook that is in its slot exactly while it says so, and only while it is switched on; if it is switched on and out of
its slot, a call that took it is still being passed on. -/
structure Orderly (k : SubsystemId) (found : Entry) (u : Usage) : Prop where
  replaced : u.mount.hook.replaced = found
  detour : u.mount.hook.detour = .detour k found
  slot : u.mount.slot = if u.mount.hook.attached then .detour k found else found
  wanted : u.mount.hook.attached = true → u.mount.hook.wanted = true
  missed : u.mount.hook.wanted = true → u.mount.hook.attached = false → true ∈ u.passing

variable {k : SubsystemId} {found : Entry} {u : Usage}

theorem orderly_fresh (k : SubsystemId) (found : Entry) : (fresh k found).Orderly k found :=
  ⟨rfl, rfl, rfl, nofun, nofun⟩

/-- Writing the detour of a hook that is switched on: nobody misses it then, whoever is being passed on. -/
theorem Orderly.attach (h : u.Orderly k found) (passing : List Bool) :
    Orderly k found ⟨(Mount.attach { u.mount with hook := { u.mount.hook with wanted := true } }).2, passing⟩ := by
  unfold Mount.attach
  cases ha : u.mount.hook.attached with
  | true =>
    have hslot : u.mount.slot = .detour k found := by
      rw [h.slot, ha]
      rfl
    exact ⟨h.replaced, h.detour, by simp [ha, hslot], fun _ => rfl, fun _ hout => by simp [ha] at hout⟩
  | false => exact ⟨h.replaced, h.detour, h.detour, fun _ => rfl, nofun⟩

/-- Putting a hook back changes nothing if it is switched off, since then it is not in its slot. -/
theorem Orderly.reattach (h : u.Orderly k found) (passing : List Bool) :
    Orderly k found ⟨u.mount.reattach, passing⟩ := by
  unfold Mount.reattach
  cases hw : u.mount.hook.wanted with
  | true =>
    -- the flag that switching on sets is set already
    have hsame : ({ u.mount with hook := { u.mount.hook with wanted := true } } : Mount) = u.mount := by
      rw [← hw]
    have hattach := h.attach passing
    rw [hsame] at hattach
    exact hattach
  | false =>
    refine ⟨h.replaced, h.detour, h.slot, h.wanted, fun hon => ?_⟩
    have hoff : u.mount.hook.wanted = true := hon
    rw [hw] at hoff
    cases hoff

/-- A call that takes the hook out of its slot is the one that misses it. -/
theorem Orderly.borrow (h : u.Orderly k found) : (u.after .borrow).Orderly k found := by
  show Orderly k found ⟨u.mount.detach.2, u.mount.detach.1 :: u.passing⟩
  unfold Mount.detach
  cases ha : u.mount.hook.attached with
  | true => exact ⟨h.replaced, h.detour, h.replaced, nofun, fun _ _ => List.mem_cons_self ..⟩
  | false =>
    have hmissed : u.mount.hook.wanted = true → true ∈ u.passing := fun hw => h.missed hw ha
    exact ⟨h.replaced, h.detour, h.slot, h.wanted, fun hw _ => List.mem_cons_of_mem _ (hmissed hw)⟩

theorem Orderly.remove (h : u.Orderly k found) : (u.after .remove).Orderly k found := by
  show Orderly k found ⟨(Mount.detach { u.mount with hook := { u.mount.hook with wanted := false } }).2, u.passing⟩
  unfold Mount.detach
  cases ha : u.mount.hook.attached with
  -- switched off, the hook is neither in its slot nor missed
  | true => exact ⟨h.replaced, h.detour, h.replaced, nofun, nofun⟩
  | false =>
    have hslot : u.mount.slot = found := by
      rw [h.slot, ha]
      rfl
    exact ⟨h.replaced, h.detour, by simp [ha, hslot], fun hin => by simp [ha] at hin, nofun⟩

theorem Orderly.giveBack (h : u.Orderly k found) (position : Nat) : (u.giveBack position).Orderly k found := by
  unfold Usage.giveBack
  cases hp : u.passing[position]? with
  | none => exact h
  | some took =>
    cases took with
    | true => exact h.reattach _
    | false =>
      refine ⟨h.replaced, h.detour, h.slot, h.wanted, fun hw ha => ?_⟩
      -- the call that is over did not take the hook, so whoever misses it is still there
      obtain ⟨other, hother⟩ := List.mem_iff_getElem?.1 (h.missed hw ha)
      have hne : other ≠ position := by
        intro he
        rw [he, hp] at hother
        cases hother
      exact List.mem_eraseIdx_iff_getElem?.2 ⟨other, hne, hother⟩

/-- The step lemma. -/
theorem Orderly.after (h : u.Orderly k found) (s : Step) : (u.after s).Orderly k found := by
  cases s with
  | install => exact h.attach _
  | remove => exact h.remove
  | reattach => exact h.reattach _
  | borrow => exact h.borrow
  | giveBack position => exact h.giveBack position

theorem Orderly.run (h : u.Orderly k found) (steps : List Step) : (u.run steps).Orderly k found := by
  induction steps generalizing u with
  | nil => exact h
  | cons s rest ih => exact ih (h.after s)

/-! ## Whether the hook is switched on -/

/-- Only a step that switches the hook changes whether it is switched on. -/
theorem wanted_after (u : Usage) (s : Step) :
    (u.after s).mount.hook.wanted = s.switch?.getD u.mount.hook.wanted := by
  cases s with
  | install => exact Mount.wanted_attach _
  | remove => exact Mount.wanted_detach _
  | reattach => exact u.mount.wanted_reattach
  | borrow => exact u.mount.wanted_detach
  | giveBack position =>
    show (u.giveBack position).mount.hook.wanted = u.mount.hook.wanted
    unfold Usage.giveBack
    cases u.passing[position]? with
    | none => rfl
    | some took =>
      cases took with
      | true => exact u.mount.wanted_reattach
      | false => rfl

/-- After a run the hook is as the last switch left it, or as it was before if there was none. -/
theorem wanted_run (u : Usage) (steps : List Step) :
    (u.run steps).mount.hook.wanted = (steps.filterMap Step.switch?).getLast?.getD u.mount.hook.wanted := by
  induction steps generalizing u with
  | nil => rfl
  | cons s rest ih =>
    -- what the first step leaves is what counts if none of the others switches the hook
    have hrun : u.run (s :: rest) = (u.after s).run rest := rfl
    rw [hrun, ih, wanted_after]
    cases hs : s.switch? with
    | none => simp [hs]
    | some on => simp [hs, List.getLast?_cons]

/-- What is switched off stays so until it is switched on again. -/
theorem wanted_run_of_off {steps : List Step} (hsteps : ∀ s ∈ steps, s ≠ .install)
    (hoff : u.mount.hook.wanted = false) : (u.run steps).mount.hook.wanted = false := by
  induction steps generalizing u with
  | nil => exact hoff
  | cons s rest ih =>
    refine ih (fun t ht => hsteps t (List.mem_cons_of_mem s ht)) ?_
    rw [wanted_after]
    cases s with
    | install => exact absurd rfl (hsteps .install (List.mem_cons_self ..))
    | remove => rfl
    | reattach => exact hoff
    | borrow => exact hoff
    | giveBack position => exact hoff

/-! ## What holds of an orderly hook -/

theorem Orderly.slot_eq_detour_iff (h : u.Orderly k found) :
    u.mount.slot = .detour k found ↔ u.mount.hook.attached = true := by
  rw [h.slot]
  cases u.mount.hook.attached with
  | true => simp
  | false => simpa using (Entry.detour_ne k found).symm

/-- A hook that is switched off is not in its slot. -/
theorem Orderly.out_of_off (h : u.Orderly k found) (hoff : u.mount.hook.wanted = false) :
    u.mount.hook.attached = false := by
  cases ha : u.mount.hook.attached with
  | false => rfl
  | true =>
    have hon := h.wanted ha
    rw [hoff] at hon
    cases hon

/-- While no call is being passed on, nobody misses the hook. -/
theorem Orderly.settled (h : u.Orderly k found) (hp : u.passing = []) :
    u.mount.hook.attached = u.mount.hook.wanted := by
  cases hw : u.mount.hook.wanted with
  | false => exact h.out_of_off hw
  | true =>
    -- a hook that is out would be missed by a call, and there is none
    by_contra hout
    have hmissed := h.missed hw (Bool.eq_false_iff.2 hout)
    rw [hp] at hmissed
    cases hmissed

theorem Orderly.remove_eq_true_iff (h : u.Orderly k found) :
    u.mount.remove.1 = true ↔ u.mount.hook.wanted = true := by
  unfold Mount.remove Mount.detach
  cases ha : u.mount.hook.attached with
  | true => simp [h.wanted ha]
  | false => simp

theorem Orderly.install_eq_false_iff : u.mount.install.1 = false ↔ u.mount.hook.attached = true := by
  unfold Mount.install Mount.attach
  cases u.mount.hook.attached <;> simp

/-- Once a call has been passed on by the detour, the slot leads past the hook. -/
theorem Orderly.slot_borrow (h : u.Orderly k found) : (u.after .borrow).mount.slot = found := by
  have hborrow := h.borrow
  have hout : (u.after .borrow).mount.hook.attached = false := by
    show u.mount.detach.2.hook.attached = false
    unfold Mount.detach
    split
    · rfl
    · rename_i ha
      exact Bool.eq_false_iff.2 ha
  rw [hborrow.slot, hout]
  rfl

/-- A call that finds the replaced entry in the slot has reached it. -/
theorem Orderly.entries_of_slot (h : u.Orderly k found) (hslot : u.mount.slot = found) (within : List Step)
    (bound : Nat) : u.entries within (bound + 1) = [found] := by
  have hne : u.mount.slot ≠ u.mount.hook.detour := by
    rw [hslot, h.detour]
    exact (Entry.detour_ne k found).symm
  rw [entries, if_neg hne, hslot]

theorem Orderly.entries (h : u.Orderly k found) (within : List Step) (bound : Nat) :
    u.entries within (bound + 2) = if u.mount.hook.attached then [.detour k found, found] else [found] := by
  cases ha : u.mount.hook.attached with
  | false =>
    have hslot : u.mount.slot = found := by
      rw [h.slot, ha]
      rfl
    exact h.entries_of_slot hslot within (bound + 1)
  | true =>
    have hslot : u.mount.slot = .detour k found := h.slot_eq_detour_iff.2 ha
    -- whatever was done meanwhile, the detour passes the call on with its hook out of the slot
    have hwithin := h.run within
    have hrest := hwithin.borrow.entries_of_slot hwithin.slot_borrow within bound
    rw [Usage.entries, if_pos (hslot.trans h.detour.symm), hslot, hrest]
    rfl

/-! ## Every history -/

/-- What is known of a hook that was made over the entry `found`, after certain steps. -/
structure Law (k : SubsystemId) (found : Entry) (steps : List Step) (u : Usage) : Prop where
  /-- The slot holds the detour while the hook says that it is there, and the replaced entry otherwise. -/
  slot : u.mount.slot = if u.mount.hook.attached then .detour k found else found
  detour : u.mount.slot = .detour k found ↔ u.mount.hook.attached = true
  /-- It is there only while the hook is switched on. -/
  on : u.mount.hook.attached = true → u.mount.hook.wanted = true
  /-- The hook is as it was switched last. -/
  wanted : u.mount.hook.wanted = lastSwitch steps
  /-- While no call is being passed on, a hook that is switched on is in its slot. -/
  settled : u.passing = [] → u.mount.hook.attached = u.mount.hook.wanted
  /-- Switching the hook on answers whether the detour had to be written. -/
  install : u.mount.install.1 = false ↔ u.mount.hook.attached = true
  /-- Switching it off answers whether it was on. -/
  remove : u.mount.remove.1 = true ↔ u.mount.hook.wanted = true
  /-- A hook that was switched off does not come back before it is switched on, whatever calls are over meanwhile. -/
  removed : ∀ later : List Step, (∀ s ∈ later, s ≠ .install) → ((u.after .remove).run later).mount.slot = found
  /-- A call through the slot passes the detour at most once, and reaches the replaced entry. -/
  call : ∀ within bound,
    u.entries within (bound + 2) = if u.mount.hook.attached then [.detour k found, found] else [found]

/-- Whatever was done with a hook, and in whatever order the calls were over that were passed on meanwhile. -/
theorem lawful (k : SubsystemId) (found : Entry) (steps : List Step) :
    Law k found steps ((fresh k found).run steps) := by
  have h : ((fresh k found).run steps).Orderly k found := (orderly_fresh k found).run steps
  refine ⟨h.slot, h.slot_eq_detour_iff, h.wanted, wanted_run _ steps, h.settled, Orderly.install_eq_false_iff,
    h.remove_eq_true_iff, fun later hlater => ?_, h.entries⟩
  -- from the moment at which it was switched off on
  have hremoved := (h.after .remove).run later
  have hoff : (((fresh k found).run steps).after .remove).mount.hook.wanted = false := wanted_after _ .remove
  have hout := hremoved.out_of_off (wanted_run_of_off hlater hoff)
  rw [hremoved.slot, hout]
  rfl

/-- Two calls are being passed on, of which only the first took the hook; it ends first, and puts the hook back. -/
example : ((fresh ⟨0⟩ .plain).run [.install, .borrow, .borrow, .giveBack 1]).mount.slot = .detour ⟨0⟩ .plain := by
  rfl

end Usage

end Interpose

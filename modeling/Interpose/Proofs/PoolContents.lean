import Interpose.Proofs.PoolLives

/-!
# What all strings of a pool have in common

A property that every new string has, and that no operation takes from a string, every string of a pool has after any
operations (`Each.after`). The property is one of an entry, and the entry may stand in any place: this holds with any number
of strings, even with more of them than numbers.
-/

namespace Interpose

namespace Pool

variable {p q : Pool} {id : StringId} {e e' : Entry} {x : Option Entry} {slot other : Nat} {P : Entry → Prop}

/-- What stands in a place after one of them is written over. -/
theorem occupant_of_set (hslots : q.slots = p.slots.setIfInBounds slot x) (ho : q.occupant other = some e) :
    x = some e ∨ p.occupant other = some e := by
  rw [occupant, hslots, Array.getElem?_setIfInBounds] at ho
  split at ho
  · split at ho
    · exact .inl ho
    · cases ho
  · exact .inr ho

/-- Every string has a property. -/
def Each (P : Entry → Prop) (p : Pool) : Prop :=
  ∀ slot e, p.occupant slot = some e → P e

/-- An operation that gives a property to the string that it adds, and takes it from none. -/
structure Action.Grants (P : Entry → Prop) (a : Action) : Prop where
  adds : ∀ {e}, a.adds? = some e → P e
  leaves : ∀ {id e e'}, P e → e.after id a = some e' → P e'
  /-- A string that a collection ends is looked at once more, without its implicit reference. -/
  collects : a = .collect → ∀ {e}, P e → P e.dropImplicit

theorem each_empty : Each P empty := by
  intro slot e ho
  exact absurd (lt_size_of_occupant ho) (Nat.not_lt_zero slot)

namespace Each

theorem of_slots (h : Each P p) (hslots : q.slots = p.slots) : Each P q := by
  intro slot e ho
  rw [occupant, hslots] at ho
  exact h slot e ho

theorem entry? (h : Each P p) (he : p.entry? id = some e) : P e := by
  obtain ⟨slot, -, ho⟩ := entry?_eq_some.1 he
  exact h slot e ho

/-- Wherever a new string is put, it or an old one stands in each place. -/
theorem insert (h : Each P p) (hnew : P e) : Each P (p.insert e).2 := by
  intro slot f ho
  have hcases : some e = some f ∨ p.occupant slot = some f := by
    unfold Pool.insert at ho
    cases hfree : p.free with
    | cons next free =>
      rw [hfree] at ho
      exact occupant_of_set rfl ho
    | nil =>
      rw [hfree] at ho
      change (p.slots.push (some e))[slot]?.join = some f at ho
      rw [Array.getElem?_push] at ho
      split at ho
      · exact .inl ho
      · exact .inr ho
  rcases hcases with hsame | hold
  · cases hsame
    exact hnew
  · exact h slot f hold

theorem setEntry (h : Each P p) (hnew : P e) : Each P (p.setEntry id e) := by
  intro slot f ho
  unfold Pool.setEntry at ho
  split at ho
  · rcases occupant_of_set rfl ho with hsame | hold
    · cases hsame
      exact hnew
    · exact h _ f hold
  · exact h slot f ho

theorem discard (h : Each P p) (id : StringId) : Each P (p.discard id) := by
  cases hc : p.contains id with
  | false =>
    rw [discard_of_not_contains hc]
    exact h
  | true =>
    obtain ⟨old, hold⟩ := contains_iff.1 hc
    obtain ⟨slot, hslot, ho⟩ := entry?_eq_some.1 hold
    rw [discard_of_occupant hslot ho]
    intro other f hother
    rcases occupant_of_set rfl hother with hnone | hold
    · cases hnone
    · exact h other f hold

theorem collect (h : Each P p) (hcollects : ∀ {e}, P e → P e.dropImplicit) : Each P p.collect.2 := by
  -- every entry loses its implicit reference before the first one is discarded
  have hdiscard : ∀ (ids : List StringId) {p : Pool}, Each P p → Each P (ids.foldl Pool.discard p) := by
    intro ids
    induction ids with
    | nil => exact fun h => h
    | cons id ids ih => exact fun h => ih (h.discard id)
  have hwithout : Each P p.withoutImplicit := by
    intro slot e ho
    rw [occupant_withoutImplicit] at ho
    obtain ⟨before, hbefore, rfl⟩ := Option.map_eq_some_iff.1 ho
    exact hcollects (h slot before hbefore)
  exact hdiscard _ hwithout

theorem perform (h : Each P p) {a : Action} (ha : a.Grants P) : Each P (p.perform a).2 := by
  -- an operation on one string writes over its place or clears it; the others are told one by one
  cases htarget : a.target? with
  | some target =>
    cases hc : p.contains target with
    | false =>
      rw [perform_no_target htarget hc]
      exact h
    | true =>
      obtain ⟨e, he⟩ := contains_iff.1 hc
      rw [perform_target htarget he]
      cases hafter : e.after target a with
      | none => exact h.discard target
      | some left => exact h.setEntry (ha.leaves (h.entry? he) hafter)
  | none =>
    cases a with
    | add s | addPinned s => exact h.insert (ha.adds rfl)
    | bind i target part => exact h.of_slots (p.alike_bind i target part).slots
    | forget i => exact h.of_slots (p.alike_forget i).slots
    | collect => exact h.collect (ha.collects rfl)
    | setCache target | resetNull => exact h.of_slots rfl
    | _ => cases htarget

theorem after (h : Each P p) {actions : List Action} (hall : ∀ a ∈ actions, a.Grants P) : Each P (p.after actions) := by
  induction actions generalizing p with
  | nil => exact h
  | cons a actions ih =>
    exact ih (h.perform (hall a List.mem_cons_self)) fun b hb => hall b (List.mem_cons_of_mem a hb)

end Each

end Pool

end Interpose

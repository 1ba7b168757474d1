import Mathlib.Data.List.Perm.Basic
import Mathlib.Data.List.Perm.Lattice
import Interpose.Pool

/-!
# The entries of a pool

A pool keeps its strings in numbered places and remembers the places that became vacant. Seen from outside it is a map
from numbers to entries: `entry?`. Here stands what adding, overwriting, ending and collecting do to that map.

The equations rest on an invariant, `WellFormed`: exactly the vacant places are remembered, each once, and the other
places are counted. It needs room, for the number of a string is a cell.

Main statements: `WellFormed.entry?_insert`, `entry?_setEntry`, `entry?_discard` and `entry?_collect`, each with
its counterpart for `WellFormed`; and `WellFormed.length_ids`, by which the count is the number of strings.
-/

namespace Interpose

namespace StringId

/-- A place belongs to one number only, and every place that a number can belong to has one. -/
theorem slot?_eq_some {id : StringId} {slot : Nat} :
    id.slot? = some slot ↔ slot < 2147483647 ∧ id = ofSlot slot := by
  constructor
  · intro h
    have hupper := id.raw.upper
    unfold slot? at h
    split at h
    · rename_i hpositive
      have hslot : (id.raw.val - 1).toNat = slot := Option.some.inj h
      refine ⟨by omega, ?_⟩
      -- the cell is the place and one more, which does not wrap around
      have hraw : id.raw = (ofSlot slot).raw := by
        apply Cell.ext
        simp only [ofSlot, Cell.val_ofNat]
        omega
      exact congrArg StringId.mk hraw
    · cases h
  · rintro ⟨hslot, rfl⟩
    exact slot?_ofSlot hslot

theorem ofSlot_injective {slot other : Nat} (hslot : slot < 2147483647) (hother : other < 2147483647)
    (h : ofSlot slot = ofSlot other) : slot = other := by
  have hsame : (ofSlot slot).slot? = (ofSlot other).slot? := by rw [h]
  rw [slot?_ofSlot hslot, slot?_ofSlot hother] at hsame
  exact Option.some.inj hsame

theorem not_isNull_of_slot? {id : StringId} {slot : Nat} (h : id.slot? = some slot) : id.isNull = false := by
  unfold slot? at h
  split at h
  · rename_i hpositive
    unfold isNull
    rw [beq_eq_false_iff_ne]
    intro hnull
    rw [hnull] at hpositive
    simp at hpositive
  · cases h

end StringId

namespace Pool

variable {p q : Pool} {id : StringId} {e : Entry} {x : Option Entry} {slot : Nat}

/-- The entry in a place. -/
def occupant (p : Pool) (slot : Nat) : Option Entry :=
  p.slots[slot]?.join

/-- The places that are not vacant. -/
def occupied (p : Pool) : List Nat :=
  (List.range p.slots.size).filter fun slot => (p.occupant slot).isSome

/-- The most strings that a pool can hold: every one needs a number of its own, which is a positive cell. -/
def mostStrings : Nat := 2147483647

/-- A pool that remembers exactly its vacant places, each once, and counts the others. -/
structure WellFormed (p : Pool) : Prop where
  vacant : ∀ slot, slot ∈ p.free ↔ slot < p.slots.size ∧ p.occupant slot = none
  nodup : p.free.Nodup
  total : p.free.length + p.live = p.slots.size
  room : p.slots.size ≤ mostStrings

theorem wellFormed_empty : WellFormed empty :=
  ⟨by simp [empty], List.nodup_nil, rfl, by decide⟩

/-! ## Places and numbers -/

theorem entry?_eq (p : Pool) (id : StringId) : p.entry? id = id.slot?.bind p.occupant := rfl

theorem lt_size_of_occupant (h : p.occupant slot = some e) : slot < p.slots.size := by
  by_contra hout
  rw [occupant, Array.getElem?_eq_none (by omega)] at h
  cases h

theorem entry?_eq_some : p.entry? id = some e ↔ ∃ slot, id.slot? = some slot ∧ p.occupant slot = some e := by
  rw [entry?_eq, Option.bind_eq_some_iff]

theorem contains_iff : p.contains id = true ↔ ∃ e, p.entry? id = some e := by
  rw [contains, Option.isSome_iff_exists]

theorem contains_eq_false : p.contains id = false ↔ p.entry? id = none := by
  rw [contains, Option.isSome_eq_false_iff, Option.isNone_iff_eq_none]

/-- Two pools that differ in one place differ in the number of this place. -/
theorem entry?_of_occupant (hslot : slot < mostStrings)
    (h : ∀ other, q.occupant other = if other = slot then x else p.occupant other) (id : StringId) :
    q.entry? id = if id = .ofSlot slot then x else p.entry? id := by
  rw [entry?_eq, entry?_eq]
  cases hid : id.slot? with
  | none =>
    -- every place below the bound has a number, so a number without a place is not one of these
    have hne : id ≠ .ofSlot slot := by
      rintro rfl
      rw [StringId.slot?_ofSlot hslot] at hid
      cases hid
    rw [if_neg hne]
    rfl
  | some other =>
    obtain ⟨hother, rfl⟩ := StringId.slot?_eq_some.1 hid
    rw [Option.bind_some, Option.bind_some, h other]
    by_cases hsame : other = slot
    · rw [if_pos hsame, if_pos (congrArg _ hsame)]
    · rw [if_neg hsame, if_neg (fun heq => hsame (StringId.ofSlot_injective hother hslot heq))]

/-- Two pools with the same strings in the same places. -/
structure Alike (p q : Pool) : Prop where
  slots : q.slots = p.slots
  free : q.free = p.free
  live : q.live = p.live

theorem Alike.entry?_eq (h : p.Alike q) (id : StringId) : q.entry? id = p.entry? id := by
  have hoccupant : q.occupant = p.occupant := by
    funext slot
    rw [occupant, occupant, h.slots]
  rw [Pool.entry?_eq, Pool.entry?_eq, hoccupant]

namespace WellFormed

theorem alike (h : WellFormed p) (hq : p.Alike q) : WellFormed q := by
  obtain ⟨hvacant, hnodup, htotal, hroom⟩ := h
  obtain ⟨hslots, hfree, hlive⟩ := hq
  refine ⟨fun slot => ?_, hfree ▸ hnodup, ?_, hslots ▸ hroom⟩
  · rw [hfree, occupant, hslots]
    exact hvacant slot
  · rw [hfree, hlive, hslots]
    exact htotal

theorem not_mem_free (h : WellFormed p) (ho : p.occupant slot = some e) : slot ∉ p.free := by
  intro hfree
  have hvacant := ((h.vacant slot).1 hfree).2
  rw [ho] at hvacant
  cases hvacant

/-- The vacant places are those that are remembered. -/
theorem perm_free (h : WellFormed p) :
    p.free.Perm ((List.range p.slots.size).filter fun slot => !(p.occupant slot).isSome) := by
  refine (List.perm_ext_iff_of_nodup h.nodup (List.nodup_range.filter _)).2 fun slot => ?_
  rw [h.vacant, List.mem_filter, List.mem_range]
  simp

/-- The count is the number of places that are not vacant. -/
theorem length_occupied (h : WellFormed p) : p.occupied.length = p.live := by
  have hsplit := List.length_eq_length_filter_add (l := List.range p.slots.size)
    fun slot => (p.occupant slot).isSome
  have hvacant := h.perm_free.length_eq
  have htotal := h.total
  rw [List.length_range] at hsplit
  unfold occupied
  omega

end WellFormed

theorem mem_occupied : slot ∈ p.occupied ↔ ∃ e, p.occupant slot = some e := by
  rw [occupied, List.mem_filter, List.mem_range, Option.isSome_iff_exists]
  exact ⟨fun h => h.2, fun ⟨e, he⟩ => ⟨lt_size_of_occupant he, e, he⟩⟩

/-- A string that is there is counted. -/
theorem WellFormed.live_pos (h : WellFormed p) (ho : p.occupant slot = some e) : 0 < p.live := by
  rw [← h.length_occupied]
  exact List.length_pos_of_mem (mem_occupied.2 ⟨e, ho⟩)

/-- What stands in the places after one of them is overwritten. -/
theorem occupant_set (hslot : slot < p.slots.size) (hslots : q.slots = p.slots.setIfInBounds slot x) (other : Nat) :
    q.occupant other = if other = slot then x else p.occupant other := by
  rw [occupant, hslots, Array.getElem?_setIfInBounds]
  by_cases hsame : other = slot
  · subst hsame
    rw [if_pos rfl, if_pos hslot, if_pos rfl]
    rfl
  · rw [if_neg (Ne.symm hsame), if_neg hsame]
    rfl

/-! ## Adding -/

/-- The place of the string that is added next. -/
def nextSlot (p : Pool) : Nat :=
  p.free.headD p.slots.size

theorem insert_fst (p : Pool) (e : Entry) : (p.insert e).1 = .ofSlot p.nextSlot := by
  unfold insert nextSlot
  cases p.free <;> rfl

theorem bindings_insert (p : Pool) (e : Entry) : (p.insert e).2.bindings = p.bindings := by
  unfold insert
  cases p.free <;> rfl

theorem live_insert (p : Pool) (e : Entry) : (p.insert e).2.live = p.live + 1 := by
  unfold insert
  cases p.free <;> rfl

/-- Adding a string ends none, wherever it is put. -/
theorem contains_insert (e : Entry) (hc : p.contains id = true) : (p.insert e).2.contains id = true := by
  obtain ⟨old, hold⟩ := contains_iff.1 hc
  obtain ⟨slot, hslot, ho⟩ := entry?_eq_some.1 hold
  have hlt := lt_size_of_occupant ho
  have hoccupied : ∃ f, (p.insert e).2.occupant slot = some f := by
    unfold insert
    cases p.free with
    -- the new place is behind all others
    | nil => exact ⟨old, by rw [← ho, occupant, occupant, Array.getElem?_push, if_neg (Nat.ne_of_lt hlt)]⟩
    | cons next free =>
      -- nothing is known of the places that are remembered; were this one of them, the new string would stand in it
      by_cases hsame : slot = next
      · exact ⟨e, by rw [occupant_set (hsame ▸ hlt) rfl, if_pos hsame]⟩
      · exact ⟨old, by rw [occupant, Array.getElem?_setIfInBounds_ne (Ne.symm hsame)]; exact ho⟩
  obtain ⟨f, hf⟩ := hoccupied
  exact contains_iff.2 ⟨f, entry?_eq_some.2 ⟨slot, hslot, hf⟩⟩

namespace WellFormed

/-- As long as there are fewer strings than numbers, the next place has a number. -/
theorem nextSlot_lt (h : WellFormed p) (hroom : p.live < mostStrings) : p.nextSlot < mostStrings := by
  have htotal := h.total
  have hsize := h.room
  unfold nextSlot
  cases hfree : p.free with
  -- if no place is vacant, there are as many places as strings
  | nil =>
    rw [hfree, List.length_nil] at htotal
    rw [List.headD_nil]
    omega
  | cons slot free =>
    have hslot : slot < p.slots.size := ((h.vacant slot).1 (by simp [hfree])).1
    rw [List.headD_cons]
    omega

theorem occupant_nextSlot (h : WellFormed p) : p.occupant p.nextSlot = none := by
  unfold nextSlot
  cases hfree : p.free with
  | nil =>
    rw [List.headD_nil, occupant, Array.getElem?_eq_none (Nat.le_refl _)]
    rfl
  | cons slot free => exact ((h.vacant slot).1 (by simp [hfree])).2

theorem occupant_insert (h : WellFormed p) (e : Entry) (other : Nat) :
    (p.insert e).2.occupant other = if other = p.nextSlot then some e else p.occupant other := by
  unfold insert nextSlot
  cases hfree : p.free with
  | nil =>
    show (p.slots.push (some e))[other]?.join = _
    rw [Array.getElem?_push, List.headD_nil]
    split
    · rfl
    · rfl
  | cons slot free =>
    have hslot : slot < p.slots.size := ((h.vacant slot).1 (by simp [hfree])).1
    exact occupant_set hslot rfl other

/-- A string that is added gets a number that no other string has. -/
theorem entry?_insert_fst (h : WellFormed p) (hroom : p.live < mostStrings) (e : Entry) :
    p.entry? (p.insert e).1 = none := by
  rw [insert_fst, entry?_eq, StringId.slot?_ofSlot (h.nextSlot_lt hroom)]
  exact h.occupant_nextSlot

theorem isNull_insert_fst (h : WellFormed p) (hroom : p.live < mostStrings) (e : Entry) :
    (p.insert e).1.isNull = false := by
  rw [insert_fst]
  exact StringId.not_isNull_of_slot? (StringId.slot?_ofSlot (h.nextSlot_lt hroom))

theorem entry?_insert (h : WellFormed p) (hroom : p.live < mostStrings) (e : Entry) (id : StringId) :
    Pool.entry? (p.insert e).2 id = if id = (p.insert e).1 then some e else p.entry? id := by
  rw [insert_fst]
  exact entry?_of_occupant (h.nextSlot_lt hroom) (h.occupant_insert e) id

theorem insert (h : WellFormed p) (hroom : p.live < mostStrings) (e : Entry) : WellFormed (p.insert e).2 := by
  obtain ⟨hvacant, hnodup, htotal, hsize⟩ := h
  -- what is known of the next place is taken before the free places are split
  have hnext := WellFormed.nextSlot_lt ⟨hvacant, hnodup, htotal, hsize⟩ hroom
  have hoccupant := WellFormed.occupant_insert ⟨hvacant, hnodup, htotal, hsize⟩ e
  unfold nextSlot at hnext hoccupant
  unfold Pool.insert at hoccupant ⊢
  cases hfree : p.free with
  | nil =>
    simp only [hfree, List.length_nil, List.headD_nil] at hvacant htotal hnext hoccupant
    refine ⟨fun other => ?_, List.nodup_nil, ?_, ?_⟩
    · -- no place is vacant, and the new one is not either
      have hother := hvacant other
      simp only [hoccupant, Array.size_push, List.not_mem_nil, false_iff] at hother ⊢
      split
      · simp
      · rintro ⟨hlt, hnone⟩
        exact hother ⟨by omega, hnone⟩
    · simp only [List.length_nil, Array.size_push]
      omega
    · simp only [Array.size_push]
      omega
  | cons slot free =>
    simp only [hfree, List.length_cons, List.headD_cons] at hvacant hnodup htotal hnext hoccupant
    obtain ⟨hslot, hnodup⟩ := List.nodup_cons.1 hnodup
    refine ⟨fun other => ?_, hnodup, ?_, ?_⟩
    · -- the place in front is the only one that is vacant no longer
      have hother := hvacant other
      simp only [hoccupant, Array.size_setIfInBounds, List.mem_cons] at hother ⊢
      by_cases hsame : other = slot
      · simp [hsame, hslot]
      · simpa [hsame] using hother
    · simp only [Array.size_setIfInBounds]
      omega
    · simpa only [Array.size_setIfInBounds] using hsize

end WellFormed

/-! ## Changing an entry -/

theorem entry?_setEntry (h : p.contains id = true) (e : Entry) (other : StringId) :
    Pool.entry? (p.setEntry id e) other = if other = id then some e else p.entry? other := by
  obtain ⟨old, hold⟩ := contains_iff.1 h
  obtain ⟨slot, hslot, ho⟩ := entry?_eq_some.1 hold
  obtain ⟨hlt, rfl⟩ := StringId.slot?_eq_some.1 hslot
  have hsize := lt_size_of_occupant ho
  refine entry?_of_occupant hlt (occupant_set hsize ?_) other
  rw [setEntry, hslot]

theorem WellFormed.setEntry (h : WellFormed p) (hc : p.contains id = true) (e : Entry) :
    WellFormed (p.setEntry id e) := by
  obtain ⟨old, hold⟩ := contains_iff.1 hc
  obtain ⟨slot, hslot, ho⟩ := entry?_eq_some.1 hold
  have hoccupant : ∀ other, (p.setEntry id e).occupant other = if other = slot then some e else p.occupant other :=
    occupant_set (lt_size_of_occupant ho) (by rw [Pool.setEntry, hslot])
  have hfree := h.not_mem_free ho
  unfold Pool.setEntry at hoccupant ⊢
  rw [hslot] at hoccupant ⊢
  refine ⟨fun other => ?_, h.nodup, ?_, ?_⟩
  · rw [hoccupant, Array.size_setIfInBounds]
    by_cases hsame : other = slot
    · simp [hsame, hfree]
    · rw [if_neg hsame]
      exact h.vacant other
  · rw [Array.size_setIfInBounds]
    exact h.total
  · rw [Array.size_setIfInBounds]
    exact h.room

/-! ## Ending strings -/

/-- What becomes of a pool when one of its strings ends. -/
theorem discard_of_occupant (hslot : id.slot? = some slot) (ho : p.occupant slot = some e) :
    p.discard id =
      { p with
        slots := p.slots.setIfInBounds slot none
        free := slot :: p.free
        live := p.live - 1
        cache := if p.cache = some id then none else p.cache
        bindings := unbind p.bindings id } := by
  rw [occupant] at ho
  rw [discard, destroy?, hslot, Option.bind_some, ho]
  rfl

theorem destroy?_eq_none (h : p.contains id = false) : p.destroy? id = none := by
  have hnone := contains_eq_false.1 h
  rw [entry?_eq] at hnone
  rw [destroy?]
  cases hslot : id.slot? with
  | none => rfl
  | some slot =>
    rw [hslot, Option.bind_some, occupant] at hnone
    rw [Option.bind_some, hnone]
    rfl

theorem destroy?_eq_some (h : p.entry? id = some e) : p.destroy? id = some (e.string, p.discard id) := by
  obtain ⟨slot, hslot, ho⟩ := entry?_eq_some.1 h
  rw [discard_of_occupant hslot ho]
  rw [occupant] at ho
  rw [destroy?, hslot, Option.bind_some, ho]
  rfl

theorem discard_of_not_contains (h : p.contains id = false) : p.discard id = p := by
  rw [discard, destroy?_eq_none h]

theorem size_discard (p : Pool) (id : StringId) : (p.discard id).slots.size = p.slots.size := by
  cases hc : p.contains id with
  | false => rw [discard_of_not_contains hc]
  | true =>
    obtain ⟨e, he⟩ := contains_iff.1 hc
    obtain ⟨slot, hslot, ho⟩ := entry?_eq_some.1 he
    rw [discard_of_occupant hslot ho, Array.size_setIfInBounds]

theorem entry?_discard (p : Pool) (id other : StringId) :
    Pool.entry? (p.discard id) other = if other = id then none else p.entry? other := by
  cases hc : p.contains id with
  | false =>
    rw [discard_of_not_contains hc]
    split
    · rename_i hsame
      rw [hsame]
      exact contains_eq_false.1 hc
    · rfl
  | true =>
    obtain ⟨e, he⟩ := contains_iff.1 hc
    obtain ⟨slot, hslot, ho⟩ := entry?_eq_some.1 he
    have hdiscard := discard_of_occupant hslot ho
    obtain ⟨hlt, rfl⟩ := StringId.slot?_eq_some.1 hslot
    refine entry?_of_occupant hlt (occupant_set (lt_size_of_occupant ho) ?_) other
    rw [hdiscard]

theorem WellFormed.discard (h : WellFormed p) (id : StringId) : WellFormed (p.discard id) := by
  cases hc : p.contains id with
  | false =>
    rw [discard_of_not_contains hc]
    exact h
  | true =>
    obtain ⟨e, he⟩ := contains_iff.1 hc
    obtain ⟨slot, hslot, ho⟩ := entry?_eq_some.1 he
    have hsize := lt_size_of_occupant ho
    have hoccupant : ∀ other, (p.discard id).occupant other = if other = slot then none else p.occupant other :=
      occupant_set hsize (by rw [discard_of_occupant hslot ho])
    rw [discard_of_occupant hslot ho] at hoccupant ⊢
    refine ⟨fun other => ?_, ?_, ?_, ?_⟩
    · rw [hoccupant, Array.size_setIfInBounds, List.mem_cons, h.vacant]
      by_cases hsame : other = slot
      · simp [hsame, hsize]
      · simp [hsame]
    · exact List.nodup_cons.2 ⟨h.not_mem_free ho, h.nodup⟩
    · -- the string that ends was counted
      have hcounted := h.live_pos ho
      have htotal := h.total
      rw [List.length_cons, Array.size_setIfInBounds]
      show p.free.length + 1 + (p.live - 1) = p.slots.size
      omega
    · rw [Array.size_setIfInBounds]
      exact h.room

/-! ## What is left of a string -/

/-- Writes what is left of the entry of a string over it; if nothing is, the string ends. -/
def replace (p : Pool) (id : StringId) : Option Entry → Pool
  | some e => p.setEntry id e
  | none => p.discard id

theorem entry?_replace (h : p.contains id = true) (x : Option Entry) (other : StringId) :
    Pool.entry? (p.replace id x) other = if other = id then x else p.entry? other := by
  cases x with
  | some e => exact entry?_setEntry h e other
  | none => exact p.entry?_discard id other

theorem WellFormed.replace (h : WellFormed p) (hc : p.contains id = true) (x : Option Entry) :
    WellFormed (p.replace id x) := by
  cases x with
  | some e => exact h.setEntry hc e
  | none => exact h.discard id

/-- Writing an entry over itself changes nothing. -/
theorem setEntry_self (he : p.entry? id = some e) : p.setEntry id e = p := by
  obtain ⟨slot, hslot, ho⟩ := entry?_eq_some.1 he
  have hread : p.slots[slot]? = some (some e) := Option.join_eq_some_iff.1 ho
  obtain ⟨hsize, hsame⟩ := Array.getElem?_eq_some_iff.1 hread
  have hslots : p.slots.setIfInBounds slot (some e) = p.slots := by
    rw [Array.setIfInBounds, dif_pos hsize, ← hsame, Array.set_getElem_self]
  rw [setEntry, hslot]
  dsimp only
  rw [hslots]

/-- What was written over the entry of a string that ends does not matter. -/
theorem discard_setEntry (h : p.contains id = true) (e : Entry) : (p.setEntry id e).discard id = p.discard id := by
  obtain ⟨old, hold⟩ := contains_iff.1 h
  obtain ⟨slot, hslot, ho⟩ := entry?_eq_some.1 hold
  have hset : p.setEntry id e = { p with slots := p.slots.setIfInBounds slot (some e) } := by rw [setEntry, hslot]
  have hnew : (p.setEntry id e).occupant slot = some e := by
    rw [occupant_set (lt_size_of_occupant ho) (congrArg Pool.slots hset), if_pos rfl]
  rw [discard_of_occupant hslot hnew, discard_of_occupant hslot ho, hset, Array.setIfInBounds_setIfInBounds]

/-! ## Ending many strings -/

theorem entry?_foldl_discard (ids : List StringId) (p : Pool) (other : StringId) :
    Pool.entry? (ids.foldl discard p) other = if other ∈ ids then none else p.entry? other := by
  induction ids generalizing p with
  | nil => simp
  | cons id ids ih =>
    rw [List.foldl_cons, ih, entry?_discard]
    by_cases hin : other ∈ ids
    · simp [hin]
    · simp [hin]

theorem WellFormed.foldl_discard (h : WellFormed p) (ids : List StringId) : WellFormed (ids.foldl Pool.discard p) := by
  induction ids generalizing p with
  | nil => exact h
  | cons id ids ih => exact ih (h.discard id)

/-! ## Collecting -/

/-- The pool in which no string has the reference any more that it was born with. -/
def withoutImplicit (p : Pool) : Pool :=
  { p with slots := p.slots.map (Option.map Entry.dropImplicit) }

theorem collect_eq (p : Pool) :
    p.collect =
      (p.withoutImplicit.unreferenced.length, p.withoutImplicit.unreferenced.foldl discard p.withoutImplicit) :=
  rfl

theorem occupant_withoutImplicit (p : Pool) (slot : Nat) :
    p.withoutImplicit.occupant slot = (p.occupant slot).map Entry.dropImplicit := by
  unfold occupant withoutImplicit
  rw [Array.getElem?_map]
  cases p.slots[slot]? with
  | none => rfl
  | some o => cases o <;> rfl

theorem entry?_withoutImplicit (p : Pool) (id : StringId) :
    Pool.entry? p.withoutImplicit id = (p.entry? id).map Entry.dropImplicit := by
  rw [entry?_eq, entry?_eq]
  cases id.slot? with
  | none => rfl
  | some slot => exact p.occupant_withoutImplicit slot

theorem size_withoutImplicit (p : Pool) : p.withoutImplicit.slots.size = p.slots.size :=
  Array.size_map

theorem WellFormed.withoutImplicit (h : WellFormed p) : WellFormed p.withoutImplicit := by
  have hsize := p.size_withoutImplicit
  refine ⟨fun slot => ?_, h.nodup, ?_, ?_⟩
  · rw [occupant_withoutImplicit, hsize, Option.map_eq_none_iff]
    exact h.vacant slot
  · rw [hsize]
    exact h.total
  · rw [hsize]
    exact h.room

/-- Strings end, but places stay. -/
theorem size_collect (p : Pool) : p.collect.2.slots.size = p.slots.size := by
  have hdiscard : ∀ (ids : List StringId) (p : Pool), (ids.foldl discard p).slots.size = p.slots.size := by
    intro ids
    induction ids with
    | nil => exact fun _ => rfl
    | cons id ids ih => exact fun p => (ih _).trans (p.size_discard id)
  rw [collect_eq, hdiscard, size_withoutImplicit]

/-- The number of the string in a place that nothing keeps. -/
def unreferencedAt (p : Pool) (slot : Nat) : Option StringId :=
  match p.occupant slot with
  | some e => if e.isUnreferenced then some (.ofSlot slot) else none
  | none => none

theorem unreferencedAt_eq_some :
    p.unreferencedAt slot = some id ↔
      ∃ e, p.occupant slot = some e ∧ e.isUnreferenced = true ∧ id = .ofSlot slot := by
  unfold unreferencedAt
  cases p.occupant slot with
  | none => simp
  | some e =>
    cases hu : e.isUnreferenced with
    | false => simp [hu]
    | true => simpa [hu] using eq_comm

/-- As long as every place has a number, the strings that nothing keeps are found by their places. -/
theorem mem_unreferenced (hroom : p.slots.size ≤ mostStrings) :
    id ∈ p.unreferenced ↔ ∃ e, p.entry? id = some e ∧ e.isUnreferenced = true := by
  show id ∈ (List.range p.slots.size).filterMap p.unreferencedAt ↔ _
  rw [List.mem_filterMap]
  constructor
  · rintro ⟨slot, -, hid⟩
    obtain ⟨e, ho, hu, rfl⟩ := unreferencedAt_eq_some.1 hid
    have hlt := lt_size_of_occupant ho
    exact ⟨e, entry?_eq_some.2 ⟨slot, StringId.slot?_ofSlot (Nat.lt_of_lt_of_le hlt hroom), ho⟩, hu⟩
  · rintro ⟨e, he, hu⟩
    obtain ⟨slot, hslot, ho⟩ := entry?_eq_some.1 he
    obtain ⟨-, rfl⟩ := StringId.slot?_eq_some.1 hslot
    exact ⟨slot, List.mem_range.2 (lt_size_of_occupant ho), unreferencedAt_eq_some.2 ⟨e, ho, hu, rfl⟩⟩

theorem entry?_collect (hroom : p.slots.size ≤ mostStrings) (id : StringId) :
    Pool.entry? p.collect.2 id =
      (p.entry? id).bind fun e => if e.dropImplicit.isUnreferenced then none else some e.dropImplicit := by
  rw [collect_eq, entry?_foldl_discard, entry?_withoutImplicit]
  -- what ends are the strings that nothing keeps once the implicit references are gone
  have hmem : id ∈ p.withoutImplicit.unreferenced ↔ _ := mem_unreferenced (p.size_withoutImplicit ▸ hroom)
  rw [entry?_withoutImplicit] at hmem
  cases he : p.entry? id with
  | none => split <;> rfl
  | some e =>
    simp only [he, Option.map_some, Option.some.injEq, exists_eq_left'] at hmem
    by_cases hu : e.dropImplicit.isUnreferenced = true
    · rw [if_pos (hmem.2 hu), Option.bind_some, if_pos hu]
    · rw [if_neg (fun hin => hu (hmem.1 hin)), Option.bind_some, if_neg hu, Option.map_some]

namespace WellFormed

theorem nodup_unreferenced (h : WellFormed p) : p.unreferenced.Nodup := by
  have hroom := h.room
  show ((List.range p.slots.size).filterMap p.unreferencedAt).Nodup
  refine List.nodup_range.filterMap fun slot other id hslot hother => ?_
  obtain ⟨e, ho, -, hid⟩ := unreferencedAt_eq_some.1 hslot
  obtain ⟨e', ho', -, hid'⟩ := unreferencedAt_eq_some.1 hother
  have hlt := Nat.lt_of_lt_of_le (lt_size_of_occupant ho) hroom
  have hlt' := Nat.lt_of_lt_of_le (lt_size_of_occupant ho') hroom
  exact StringId.ofSlot_injective hlt hlt' (hid.symm.trans hid')

theorem collect (h : WellFormed p) : WellFormed p.collect.2 :=
  h.withoutImplicit.foldl_discard _

end WellFormed

/-! ## The strings that are there -/

/-- The numbers of the strings. -/
def ids (p : Pool) : List StringId :=
  p.occupied.map .ofSlot

namespace WellFormed

theorem mem_ids (h : WellFormed p) : id ∈ p.ids ↔ p.contains id = true := by
  have hroom := h.room
  rw [ids, List.mem_map, contains_iff]
  constructor
  · rintro ⟨slot, hslot, rfl⟩
    obtain ⟨e, ho⟩ := mem_occupied.1 hslot
    have hlt := Nat.lt_of_lt_of_le (lt_size_of_occupant ho) hroom
    exact ⟨e, entry?_eq_some.2 ⟨slot, StringId.slot?_ofSlot hlt, ho⟩⟩
  · rintro ⟨e, he⟩
    obtain ⟨slot, hslot, ho⟩ := entry?_eq_some.1 he
    obtain ⟨-, rfl⟩ := StringId.slot?_eq_some.1 hslot
    exact ⟨slot, mem_occupied.2 ⟨e, ho⟩, rfl⟩

theorem nodup_ids (h : WellFormed p) : p.ids.Nodup := by
  have hroom := h.room
  refine List.Nodup.map_on (fun slot hslot other hother heq => ?_) (List.nodup_range.filter _)
  obtain ⟨e, ho⟩ := mem_occupied.1 hslot
  obtain ⟨e', ho'⟩ := mem_occupied.1 hother
  have hlt := Nat.lt_of_lt_of_le (lt_size_of_occupant ho) hroom
  have hlt' := Nat.lt_of_lt_of_le (lt_size_of_occupant ho') hroom
  exact StringId.ofSlot_injective hlt hlt' heq

theorem length_ids (h : WellFormed p) : p.ids.length = p.live := by
  rw [ids, List.length_map, h.length_occupied]

end WellFormed

end Pool

end Interpose

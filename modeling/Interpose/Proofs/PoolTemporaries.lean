import Interpose.Proofs.PoolOperations
import Interpose.Proofs.QuietOperations

/-!
# Temporary strings

A string that still has the reference it was born with is *temporary*. Nothing ends a temporary string but removing it
by hand and collecting: a reference that is released was acquired before, and without it the string still has the one it
was born with. Adding strings could end one only by writing over it, and the places that a pool remembers as vacant are
vacant (`Tidy`). This needs no room: it holds even when there are more strings than numbers.

Collecting is the end of the temporary strings: each of them ends, unless it was acquired or pinned, and then it is
temporary no longer.

Main statements: `Tidy.isTemporary_leads`, and `collected_collect`.
-/

namespace Interpose

namespace Pool

variable {p q : Pool} {id : StringId} {e : Entry} {slot : Nat}

/-! ## Vacant places -/

/-- The places that are remembered are vacant, and each is remembered once. -/
structure Tidy (p : Pool) : Prop where
  vacant : ∀ slot ∈ p.free, p.occupant slot = none
  nodup : p.free.Nodup

theorem tidy_empty : Tidy empty :=
  ⟨nofun, List.nodup_nil⟩

/-- What stands in another place than one that is written over. -/
theorem occupant_set_ne {x : Option Entry} {other : Nat} (hslots : q.slots = p.slots.setIfInBounds slot x)
    (hne : other ≠ slot) : q.occupant other = p.occupant other := by
  rw [occupant, hslots, Array.getElem?_setIfInBounds_ne (Ne.symm hne), occupant]

namespace Tidy

theorem alike (h : Tidy p) (hq : p.Alike q) : Tidy q := by
  refine ⟨fun slot hslot => ?_, hq.free ▸ h.nodup⟩
  rw [hq.free] at hslot
  rw [occupant, hq.slots]
  exact h.vacant slot hslot

theorem not_mem_free (h : Tidy p) (ho : p.occupant slot = some e) : slot ∉ p.free := by
  intro hfree
  rw [h.vacant slot hfree] at ho
  cases ho

/-- A string that is added is written over no other one. -/
theorem occupant_insert (h : Tidy p) (ho : p.occupant slot = some e) (new : Entry) :
    (p.insert new).2.occupant slot = some e := by
  have hfree := h.not_mem_free ho
  have hlt := lt_size_of_occupant ho
  unfold insert
  cases hf : p.free with
  | nil =>
    show (p.slots.push (some new))[slot]?.join = some e
    rw [Array.getElem?_push, if_neg (Nat.ne_of_lt hlt)]
    exact ho
  | cons next free =>
    rw [hf, List.mem_cons, not_or] at hfree
    exact (occupant_set_ne rfl hfree.1).trans ho

theorem insert (h : Tidy p) (new : Entry) : Tidy (p.insert new).2 := by
  obtain ⟨hvacant, hnodup⟩ := h
  unfold Pool.insert
  cases hf : p.free with
  | nil => exact ⟨nofun, List.nodup_nil⟩
  | cons next free =>
    rw [hf, List.nodup_cons] at hnodup
    refine ⟨fun slot hslot => ?_, hnodup.2⟩
    -- the place that is used is remembered no longer
    have hne : slot ≠ next := fun he => hnodup.1 (he ▸ hslot)
    exact (occupant_set_ne rfl hne).trans (hvacant slot (by simp [hf, hslot]))

theorem setEntry (h : Tidy p) (hc : p.contains id = true) (new : Entry) : Tidy (p.setEntry id new) := by
  obtain ⟨old, hold⟩ := contains_iff.1 hc
  obtain ⟨slot, hslot, ho⟩ := entry?_eq_some.1 hold
  have hfree := h.not_mem_free ho
  unfold Pool.setEntry
  rw [hslot]
  refine ⟨fun other hother => ?_, h.nodup⟩
  have hne : other ≠ slot := fun he => hfree (he ▸ hother)
  exact (occupant_set_ne rfl hne).trans (h.vacant other hother)

theorem discard (h : Tidy p) (id : StringId) : Tidy (p.discard id) := by
  cases hc : p.contains id with
  | false =>
    rw [discard_of_not_contains hc]
    exact h
  | true =>
    obtain ⟨old, hold⟩ := contains_iff.1 hc
    obtain ⟨slot, hslot, ho⟩ := entry?_eq_some.1 hold
    rw [discard_of_occupant hslot ho]
    refine ⟨fun other hother => ?_, List.nodup_cons.2 ⟨h.not_mem_free ho, h.nodup⟩⟩
    by_cases hsame : other = slot
    · rw [occupant_set (lt_size_of_occupant ho) rfl, if_pos hsame]
    · exact (occupant_set_ne rfl hsame).trans (h.vacant other ((List.mem_cons.1 hother).resolve_left hsame))

theorem replace (h : Tidy p) (hc : p.contains id = true) (x : Option Entry) : Tidy (p.replace id x) := by
  cases x with
  | some new => exact h.setEntry hc new
  | none => exact h.discard id

theorem collect (h : Tidy p) : Tidy p.collect.2 := by
  have hdiscard : ∀ (ids : List StringId) {p : Pool}, Tidy p → Tidy (ids.foldl Pool.discard p) := by
    intro ids
    induction ids with
    | nil => exact fun h => h
    | cons id ids ih => exact fun h => ih (h.discard id)
  have hwithout : Tidy p.withoutImplicit :=
    ⟨fun slot hslot => by rw [occupant_withoutImplicit, h.vacant slot hslot]; rfl, h.nodup⟩
  exact hdiscard _ hwithout

end Tidy

theorem Change.tidy (hq : p.Change q) (h : Tidy p) : Tidy q := by
  cases hq with
  | none hsame _ => exact h.alike hsame
  | replace hc x => exact h.replace hc x
  | collect => exact h.collect

namespace Tidy

theorem perform (h : Tidy p) (a : Action) : Tidy (p.perform a).2 := by
  cases hadds : a.adds? with
  | some new =>
    rw [perform_adds hadds]
    exact h.insert new
  | none =>
    cases hbinds : a.binds with
    | true => exact h.alike (p.alike_of_binds hbinds)
    | false => exact (p.change_perform hadds hbinds).tidy h

theorem leads {kind : Action → Prop} (h : Tidy p) (hq : p.Leads kind q) : Tidy q := by
  induction hq with
  | refl => exact h
  | perform _ _ ih => exact ih.perform _
  | write _ c ih => exact ⟨ih.vacant, ih.nodup⟩

end Tidy

/-! ## Temporary strings -/

/-- A string is there, and still has the reference it was born with. -/
def IsTemporary (p : Pool) (id : StringId) : Prop :=
  ∃ e, p.entry? id = some e ∧ e.implicit = true

instance (p : Pool) (id : StringId) : Decidable (p.IsTemporary id) :=
  decidable_of_iff ((p.entry? id).any Entry.implicit = true) (by simp [IsTemporary, Option.any_eq_true])

theorem IsTemporary.alike (hid : p.IsTemporary id) (hq : p.Alike q) : q.IsTemporary id := by
  obtain ⟨e, he, himplicit⟩ := hid
  exact ⟨e, (hq.entry?_eq id).trans he, himplicit⟩

/-- Whatever an operation on one string leaves of a temporary string is temporary, unless it removes the string. -/
theorem Entry.after_implicit (himplicit : e.implicit = true) {a : Action} (ha : a.target? = some id)
    (hgentle : a.isGentle = true) : ∃ e', e.after id a = some e' ∧ e'.implicit = true := by
  cases a with
  | edit target change =>
    cases ha
    rw [Entry.after, if_pos rfl]
    exact ⟨_, rfl, himplicit⟩
  | acquire target =>
    cases ha
    rw [Entry.after]
    split
    · exact ⟨_, rfl, himplicit⟩
    · exact ⟨_, rfl, himplicit⟩
  | release target =>
    cases ha
    rw [Entry.after, if_pos rfl]
    cases hrefs : e.refs with
    | zero => exact ⟨e, rfl, himplicit⟩
    | succ refs =>
      -- even without references it is kept by the one it was born with
      exact ⟨{ e with refs }, by simp [Entry.isUnreferenced, himplicit], himplicit⟩
  | remove target => cases hgentle
  | _ => cases ha

namespace Tidy

theorem isTemporary_perform (h : Tidy p) (hid : p.IsTemporary id) {a : Action} (hgentle : a.isGentle = true) :
    (p.perform a).2.IsTemporary id := by
  obtain ⟨e, he, himplicit⟩ := hid
  -- an operation on one string leaves the others; one on none adds, binds or forgets, or leaves the pool as it is
  cases ha : a.target? with
  | some target =>
    cases hc : p.contains target with
    | false =>
      rw [perform_no_target ha hc]
      exact ⟨e, he, himplicit⟩
    | true =>
      obtain ⟨f, hf⟩ := contains_iff.1 hc
      rw [perform_target ha hf]
      by_cases hsame : id = target
      · subst hsame
        rw [he] at hf
        cases hf
        obtain ⟨e', hafter, himplicit'⟩ := Entry.after_implicit himplicit ha hgentle
        exact ⟨e', by rw [entry?_replace hc, if_pos rfl, hafter], himplicit'⟩
      · exact ⟨e, by rw [entry?_replace hc, if_neg hsame, he], himplicit⟩
  | none =>
    cases a with
    | add s | addPinned s =>
      obtain ⟨slot, hslot, ho⟩ := entry?_eq_some.1 he
      exact ⟨e, entry?_eq_some.2 ⟨slot, hslot, h.occupant_insert ho _⟩, himplicit⟩
    | bind i target part => exact IsTemporary.alike ⟨e, he, himplicit⟩ (p.alike_bind i target part)
    | forget i => exact IsTemporary.alike ⟨e, he, himplicit⟩ (p.alike_forget i)
    | setCache target | resetNull => exact ⟨e, he, himplicit⟩
    | collect => cases hgentle
    | _ => cases ha

/-- As long as strings are neither removed by hand nor collected, a temporary string is there, and temporary. -/
theorem isTemporary_leads (h : Tidy p) (hid : p.IsTemporary id) (hq : p.LeadsGently q) : q.IsTemporary id := by
  induction hq with
  | refl => exact hid
  | perform hq ha ih => exact (h.leads hq).isTemporary_perform ih ha
  | write _ c ih => exact ih

end Tidy

/-- Removing a string ends no other one. -/
theorem isTemporary_remove {other : StringId} (hid : p.IsTemporary id) (hne : id ≠ other) :
    (p.perform (.remove other)).2.IsTemporary id := by
  obtain ⟨e, he, himplicit⟩ := hid
  cases hc : p.contains other with
  | false =>
    rw [(perform_of_not_contains hc).2.1]
    exact ⟨e, he, himplicit⟩
  | true =>
    obtain ⟨f, hf⟩ := contains_iff.1 hc
    rw [perform_remove hf]
    exact ⟨e, by rw [entry?_discard, if_neg hne, he], himplicit⟩

/-! ## Collecting -/

/-- What collecting makes of the strings of a pool. -/
structure Collected (p q : Pool) : Prop where
  /-- The strings that end are those that nobody pinned and nobody holds a manual reference to. -/
  ended : ∀ {id e}, p.entry? id = some e → (q.contains id = false ↔ e.pinned = false ∧ e.refs = 0)
  /-- Every string that is left is pinned or held, and is temporary no longer. -/
  kept : ∀ {id e}, q.entry? id = some e → (e.pinned = true ∨ 0 < e.refs) ∧ e.implicit = false
  /-- It was there before, and the reference it was born with is all that is taken from it. -/
  old : ∀ {id e}, q.entry? id = some e → ∃ before, p.entry? id = some before ∧ e = before.dropImplicit

theorem Entry.isUnreferenced_dropImplicit (e : Entry) :
    e.dropImplicit.isUnreferenced = true ↔ e.pinned = false ∧ e.refs = 0 := by
  simp [isUnreferenced, dropImplicit, and_comm]

theorem collected_collect (hroom : p.slots.size ≤ mostStrings) : Collected p p.collect.2 := by
  -- what is left was there, and is held or pinned without the reference it was born with
  have hleft : ∀ {id e}, Pool.entry? p.collect.2 id = some e → ∃ before, p.entry? id = some before ∧
      ¬ before.dropImplicit.isUnreferenced = true ∧ e = before.dropImplicit := by
    intro id e he
    rw [entry?_collect hroom, Option.bind_eq_some_iff] at he
    obtain ⟨before, hbefore, he⟩ := he
    split at he
    · cases he
    · rename_i hkept
      cases he
      exact ⟨before, hbefore, hkept, rfl⟩
  refine ⟨fun {id e} he => ?_, fun {id e} he => ?_, fun {id e} he => ?_⟩
  · rw [contains_eq_false, entry?_collect hroom, he, Option.bind_some, ← e.isUnreferenced_dropImplicit]
    split
    · rename_i hends
      exact ⟨fun _ => hends, fun _ => rfl⟩
    · rename_i hkept
      exact ⟨nofun, fun hends => absurd hends hkept⟩
  · obtain ⟨before, -, hkept, rfl⟩ := hleft he
    rw [before.isUnreferenced_dropImplicit, not_and] at hkept
    refine ⟨?_, rfl⟩
    cases hpinned : before.pinned with
    | true => exact .inl hpinned
    | false => exact .inr (Nat.pos_of_ne_zero (hkept hpinned))
  · obtain ⟨before, hbefore, -, rfl⟩ := hleft he
    exact ⟨before, hbefore, rfl⟩

end Pool

end Interpose

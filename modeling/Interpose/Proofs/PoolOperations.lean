import Interpose.Proofs.PoolBindings

/-!
# The operations of a pool

What an operation on strings answers, and what it does, read off the entries. An operation on one string puts what is left
of its entry in the place of the entry, and that is all (`perform_target`). So an operation adds one string, or it makes one
of a few changes (`Change`); facts that hold of every pool that operations lead to are proved for these few.

Main statements: `WellFormed.perform`, `WellFormed.entry?_perform` for the strings that are there, and
`WellFormed.contains_of_contains_perform` for the others; and `Alike.perform`, that only the strings matter.
-/

namespace Interpose

namespace Pool

variable {p q r : Pool} {id : StringId} {e : Entry}

/-! ## Entries and operations -/

/-- What an operation makes of the entry of a string; none if the string ends. -/
def Entry.after (id : StringId) (e : Entry) : Action → Option Entry
  | .edit target change => some (if target = id then { e with string := (change.apply e.string).2 } else e)
  | .remove target => if target = id then none else some e
  | .acquire target => some (if target = id ∧ e.refs < mostRefs then { e with refs := e.refs + 1 } else e)
  | .release target =>
    if target = id then
      match e.refs with
      | 0 => some e
      | refs + 1 => if { e with refs : Entry }.isUnreferenced then none else some { e with refs }
    else some e
  | .collect => if e.dropImplicit.isUnreferenced then none else some e.dropImplicit
  | .add _ | .addPinned _ | .bind _ _ _ | .forget _ | .setCache _ | .resetNull => some e

/-- The entry that an operation adds. -/
def Action.adds? : Action → Option Entry
  | .add s => some { string := s, refs := 0, implicit := true, pinned := false }
  | .addPinned s => some { string := s, refs := 0, implicit := false, pinned := true }
  | _ => none

/-- The string that an operation is on. -/
def Action.target? : Action → Option StringId
  | .edit id _ | .remove id | .acquire id | .release id => some id
  | _ => none

/-- An operation on another string leaves the entry of this one as it is. -/
theorem Entry.after_of_target_ne {a : Action} {target : StringId} (ha : a.target? = some target) (hne : target ≠ id)
    (e : Entry) : e.after id a = some e := by
  cases a with
  | edit other change | remove other | release other =>
    cases ha
    rw [Entry.after, if_neg hne]
  | acquire other =>
    cases ha
    rw [Entry.after, if_neg (fun h => hne h.1)]
  | _ => cases ha

/-- What an operation leaves of a string stays for the same reasons as before; or it has one reference more, as far as can be
counted; or it lost a reason to stay, and there is another. -/
theorem Entry.after_cases {a : Action} {e' : Entry} (h : e.after id a = some e') :
    (e'.refs = e.refs ∧ e'.implicit = e.implicit ∧ e'.pinned = e.pinned) ∨
      (e.refs < mostRefs ∧ e'.refs = e.refs + 1) ∨ (e'.refs ≤ e.refs ∧ e'.isUnreferenced = false) := by
  cases a with
  | edit target change =>
    cases h
    split <;> exact .inl ⟨rfl, rfl, rfl⟩
  | remove target =>
    rw [after] at h
    split at h
    · cases h
    · cases h
      exact .inl ⟨rfl, rfl, rfl⟩
  | acquire target =>
    cases h
    split
    · rename_i hmore
      exact .inr (.inl ⟨hmore.2, rfl⟩)
    · exact .inl ⟨rfl, rfl, rfl⟩
  | release target =>
    rw [after] at h
    split at h
    · split at h
      · cases h
        exact .inl ⟨rfl, rfl, rfl⟩
      · rename_i refs hrefs
        split at h
        · cases h
        · rename_i hstill
          cases h
          have hless : refs ≤ e.refs := by omega
          exact .inr (.inr ⟨hless, Bool.eq_false_iff.2 hstill⟩)
    · cases h
      exact .inl ⟨rfl, rfl, rfl⟩
  | collect =>
    rw [after] at h
    split at h
    · cases h
    · rename_i hstill
      cases h
      exact .inr (.inr ⟨Nat.le_refl e.refs, Bool.eq_false_iff.2 hstill⟩)
  | _ =>
    cases h
    exact .inl ⟨rfl, rfl, rfl⟩

/-! ## What each operation answers and does -/

theorem perform_edit (he : p.entry? id = some e) (change : CellString.Edit) :
    p.perform (.edit id change) =
      (some (change.apply e.string).1, p.setEntry id { e with string := (change.apply e.string).2 }) := by
  simp only [perform, edit?, he, Option.map_some]

theorem perform_remove (he : p.entry? id = some e) : p.perform (.remove id) = (.ok e.string, p.discard id) := by
  simp only [perform, remove, destroy?_eq_some he, settle]

theorem perform_acquire (he : p.entry? id = some e) :
    p.perform (.acquire id) =
      if e.refs < mostRefs then (.ok (e.refs + 1), p.setEntry id { e with refs := e.refs + 1 })
      else (.error (.cannotAcquire id.raw), p) := by
  simp only [perform, acquire, he]
  split <;> rfl

theorem perform_release_zero (he : p.entry? id = some e) (hrefs : e.refs = 0) :
    p.perform (.release id) = (.error (.cannotRelease id.raw), p) := by
  simp only [perform, release, he, hrefs, settle]

theorem perform_release_succ {refs : Nat} (he : p.entry? id = some e) (hrefs : e.refs = refs + 1) :
    p.perform (.release id) =
      (.ok refs,
        if { e with refs : Entry }.isUnreferenced then (p.setEntry id { e with refs }).discard id
        else p.setEntry id { e with refs }) := by
  simp only [perform, release, he, hrefs, settle]

/-- Nothing can be done with a string that is not there. -/
theorem perform_of_not_contains (h : p.contains id = false) :
    (∀ change, p.perform (.edit id change) = (none, p)) ∧
      p.perform (.remove id) = (.error (.invalidId id.raw), p) ∧
      p.perform (.acquire id) = (.error (.invalidId id.raw), p) ∧
      p.perform (.release id) = (.error (.invalidId id.raw), p) := by
  have hnone := contains_eq_false.1 h
  refine ⟨fun change => ?_, ?_, ?_, ?_⟩
  · simp only [perform, edit?, hnone, Option.map_none]
  · simp only [perform, remove, destroy?_eq_none h, settle]
  · simp only [perform, acquire, hnone, settle]
  · simp only [perform, release, hnone, settle]

theorem perform_no_target {a : Action} (ha : a.target? = some id) (hc : p.contains id = false) : (p.perform a).2 = p := by
  obtain ⟨hedit, hremove, hacquire, hrelease⟩ := perform_of_not_contains hc
  cases a with
  | edit target change =>
    cases ha
    rw [hedit]
  | remove target =>
    cases ha
    rw [hremove]
  | acquire target =>
    cases ha
    rw [hacquire]
  | release target =>
    cases ha
    rw [hrelease]
  | _ => cases ha

/-- All that an operation on one string does is to put what is left of its entry in the place of the entry. -/
theorem perform_target {a : Action} (ha : a.target? = some id) (he : p.entry? id = some e) :
    (p.perform a).2 = p.replace id (e.after id a) := by
  cases a with
  | edit target change =>
    cases ha
    rw [perform_edit he, Entry.after, if_pos rfl, replace]
  | remove target =>
    cases ha
    rw [perform_remove he, Entry.after, if_pos rfl, replace]
  | acquire target =>
    cases ha
    rw [perform_acquire he, Entry.after, replace]
    by_cases hmore : e.refs < mostRefs
    · rw [if_pos hmore, if_pos ⟨rfl, hmore⟩]
    · -- a reference that is refused leaves the entry as it is
      rw [if_neg hmore, if_neg (fun h => hmore h.2), setEntry_self he]
  | release target =>
    cases ha
    rw [Entry.after, if_pos rfl]
    cases hrefs : e.refs with
    | zero => rw [perform_release_zero he hrefs, replace, setEntry_self he]
    | succ refs =>
      rw [perform_release_succ he hrefs]
      dsimp only
      split
      · -- a string whose last reference goes ends, whatever was written over its entry before
        rw [discard_setEntry (contains_iff.2 ⟨e, he⟩), replace]
      · rw [replace]
  | _ => cases ha

/-- Whether an operation is about bindings. -/
def Action.binds : Action → Bool
  | .bind _ _ _ => true
  | .forget _ => true
  | _ => false

theorem alike_bind (p : Pool) (i : InstanceId) (id : StringId) (part : Part) :
    p.Alike (p.perform (.bind i id part)).2 := by
  simp only [perform, bind]
  split
  · exact ⟨rfl, rfl, rfl⟩
  · split
    · exact ⟨rfl, rfl, rfl⟩
    · split <;> exact ⟨rfl, rfl, rfl⟩

theorem alike_forget (p : Pool) (i : InstanceId) : p.Alike (p.perform (.forget i)).2 := by
  simp only [perform, forget]
  split <;> exact ⟨rfl, rfl, rfl⟩

theorem perform_adds {a : Action} (h : a.adds? = some e) : (p.perform a).2 = (p.insert e).2 := by
  cases a <;> cases h <;> rfl

/-- An operation that adds a string finds room for it. -/
theorem lt_of_adds {a : Action} (h : a.adds? = some e) (hroom : (p.perform a).2.live ≤ mostStrings) :
    p.live < mostStrings := by
  rw [perform_adds h, live_insert] at hroom
  exact hroom

/-! ## One equation for the strings that are there -/

/-- The entry of a string after an operation, as long as there are numbers for all strings. -/
theorem WellFormed.entry?_perform (h : WellFormed p) {a : Action} (hroom : (p.perform a).2.live ≤ mostStrings)
    (he : p.entry? id = some e) : Pool.entry? (p.perform a).2 id = e.after id a := by
  cases ha : a.target? with
  | some target =>
    by_cases hid : target = id
    · subst hid
      rw [perform_target ha he, entry?_replace (contains_iff.2 ⟨e, he⟩), if_pos rfl]
    · -- another string is there or not, but this one does not notice
      rw [Entry.after_of_target_ne ha hid, ← he]
      cases ht : p.contains target with
      | false => rw [perform_no_target ha ht]
      | true =>
        obtain ⟨f, hf⟩ := contains_iff.1 ht
        rw [perform_target ha hf, entry?_replace ht, if_neg (Ne.symm hid)]
  | none =>
    cases a with
    | add s | addPinned s =>
      -- the new string has another number
      have hnew := lt_of_adds rfl hroom
      show Pool.entry? (p.insert _).2 id = some e
      rw [h.entry?_insert hnew, if_neg, he]
      rintro rfl
      rw [h.entry?_insert_fst hnew] at he
      cases he
    | collect =>
      show Pool.entry? p.collect.2 id = _
      rw [entry?_collect h.room, he, Option.bind_some, Entry.after]
    | bind i target part => rw [(p.alike_bind i target part).entry?_eq, he, Entry.after]
    | forget i => rw [(p.alike_forget i).entry?_eq, he, Entry.after]
    | setCache target => exact he
    | resetNull => exact he
    | _ => cases ha

/-! ## What an operation can do -/

/-- What an operation that adds nothing, and is not about bindings, can do. -/
inductive Change (p : Pool) : Pool → Prop
  | none {q : Pool} (h : p.Alike q) (hbindings : q.bindings = p.bindings) : p.Change q
  | replace {id : StringId} (h : p.contains id = true) (x : Option Entry) : p.Change (p.replace id x)
  | collect : p.Change p.collect.2

theorem change_perform (p : Pool) {a : Action} (hadds : a.adds? = none) (hbinds : a.binds = false) :
    p.Change (p.perform a).2 := by
  cases ha : a.target? with
  | some target =>
    cases ht : p.contains target with
    | false =>
      rw [perform_no_target ha ht]
      exact .none ⟨rfl, rfl, rfl⟩ rfl
    | true =>
      obtain ⟨e, he⟩ := contains_iff.1 ht
      rw [perform_target ha he]
      exact .replace ht _
  | none =>
    cases a with
    | add s | addPinned s => cases hadds
    | bind i target part | forget i => cases hbinds
    | collect => exact .collect
    | setCache target => exact .none ⟨rfl, rfl, rfl⟩ rfl
    | resetNull => exact .none ⟨rfl, rfl, rfl⟩ rfl
    | _ => cases ha

theorem alike_of_binds (p : Pool) {a : Action} (hbinds : a.binds = true) : p.Alike (p.perform a).2 := by
  cases a with
  | bind i target part => exact p.alike_bind i target part
  | forget i => exact p.alike_forget i
  | _ => cases hbinds

theorem Change.wellFormed (hq : p.Change q) (h : WellFormed p) : WellFormed q := by
  cases hq with
  | none hsame _ => exact h.alike hsame
  | replace hc x => exact h.replace hc x
  | collect => exact h.collect

/-- A change makes no string, and takes no more addresses away than those of the strings that it ends. -/
theorem Change.purges (hq : p.Change q) : Purges p q := by
  cases hq with
  | none hsame hbindings => exact .of_same (fun id => by rw [contains, hsame.entry?_eq, contains]) hbindings
  | replace hc x => exact purges_replace hc x
  | collect => exact p.purges_collect

/-- An operation that adds nothing leaves a pool that needs no more room. -/
theorem WellFormed.perform_of_not_adds (h : WellFormed p) {a : Action} (hadds : a.adds? = none) :
    WellFormed (p.perform a).2 := by
  cases hbinds : a.binds with
  | true => exact h.alike (p.alike_of_binds hbinds)
  | false => exact (p.change_perform hadds hbinds).wellFormed h

theorem WellFormed.perform (h : WellFormed p) {a : Action} (hroom : (p.perform a).2.live ≤ mostStrings) :
    WellFormed (p.perform a).2 := by
  cases hadds : a.adds? with
  | none => exact h.perform_of_not_adds hadds
  | some e =>
    rw [perform_adds hadds]
    exact h.insert (lt_of_adds hadds hroom) e

/-- Only adding makes strings. -/
theorem WellFormed.contains_of_contains_perform (h : WellFormed p) {a : Action}
    (hroom : (p.perform a).2.live ≤ mostStrings) (hc : (p.perform a).2.contains id = true) :
    p.contains id = true ∨ ∃ e, a.adds? = some e ∧ id = (p.insert e).1 := by
  cases hadds : a.adds? with
  | none =>
    cases hbinds : a.binds with
    | true =>
      rw [contains, (p.alike_of_binds hbinds).entry?_eq] at hc
      exact .inl hc
    | false => exact .inl ((p.change_perform hadds hbinds).purges.contains id hc)
  | some e =>
    rw [perform_adds hadds, contains, h.entry?_insert (lt_of_adds hadds hroom)] at hc
    split at hc
    · rename_i hid
      exact .inr ⟨e, rfl, hid⟩
    · exact .inl hc

/-! ## Pools with the same strings -/

namespace Alike

theorem refl (p : Pool) : p.Alike p :=
  ⟨rfl, rfl, rfl⟩

theorem symm (h : p.Alike q) : q.Alike p :=
  ⟨h.slots.symm, h.free.symm, h.live.symm⟩

theorem trans (hpq : p.Alike q) (hqr : q.Alike r) : p.Alike r :=
  ⟨hqr.slots.trans hpq.slots, hqr.free.trans hpq.free, hqr.live.trans hpq.live⟩

theorem contains_eq (h : p.Alike q) (id : StringId) : q.contains id = p.contains id := by
  rw [contains, h.entry?_eq, contains]

theorem insert (h : p.Alike q) (e : Entry) : (p.insert e).2.Alike (q.insert e).2 := by
  unfold Pool.insert
  rw [h.free]
  cases p.free with
  | nil => exact ⟨by simp [h.slots], rfl, by simp [h.live]⟩
  | cons slot free => exact ⟨by simp [h.slots], rfl, by simp [h.live]⟩

theorem setEntry (h : p.Alike q) (id : StringId) (e : Entry) : (p.setEntry id e).Alike (q.setEntry id e) := by
  unfold Pool.setEntry
  cases id.slot? with
  | none => exact h
  | some slot => exact ⟨by simp [h.slots], h.free, h.live⟩

theorem discard (h : p.Alike q) (id : StringId) : (p.discard id).Alike (q.discard id) := by
  unfold Pool.discard destroy?
  rw [h.slots, h.free, h.live]
  cases id.slot? with
  | none => exact h
  | some slot =>
    simp only [Option.bind_some]
    cases p.slots[slot]?.join with
    | none => exact h
    | some e => exact ⟨rfl, rfl, rfl⟩

theorem replace (h : p.Alike q) (id : StringId) (x : Option Entry) : (p.replace id x).Alike (q.replace id x) := by
  cases x with
  | some e => exact h.setEntry id e
  | none => exact h.discard id

theorem foldl_discard (h : p.Alike q) (ids : List StringId) :
    (ids.foldl Pool.discard p).Alike (ids.foldl Pool.discard q) := by
  induction ids generalizing p q with
  | nil => exact h
  | cons id ids ih => exact ih (h.discard id)

theorem collect (h : p.Alike q) : p.collect.2.Alike q.collect.2 := by
  have hwithout : p.withoutImplicit.Alike q.withoutImplicit := ⟨by simp [withoutImplicit, h.slots], h.free, h.live⟩
  have hunreferenced : q.withoutImplicit.unreferenced = p.withoutImplicit.unreferenced := by
    rw [unreferenced, unreferenced, hwithout.slots]
  rw [collect_eq, collect_eq, hunreferenced]
  exact hwithout.foldl_discard _

/-- What becomes of the strings depends on the strings alone. -/
theorem perform (h : p.Alike q) (a : Action) : (p.perform a).2.Alike (q.perform a).2 := by
  cases ha : a.target? with
  | some target =>
    cases hc : p.contains target with
    | false =>
      rw [perform_no_target ha hc, perform_no_target ha ((h.contains_eq target).trans hc)]
      exact h
    | true =>
      -- the entry of the string is the same in both, and so is what is left of it
      obtain ⟨e, he⟩ := contains_iff.1 hc
      rw [perform_target ha he, perform_target ha ((h.entry?_eq target).trans he)]
      exact h.replace target _
  | none =>
    cases a with
    | add s | addPinned s => exact h.insert _
    | collect => exact h.collect
    | setCache target => exact ⟨h.slots, h.free, h.live⟩
    | resetNull => exact ⟨h.slots, h.free, h.live⟩
    | bind j target asked => exact ((p.alike_bind j target asked).symm.trans h).trans (q.alike_bind j target asked)
    | forget j => exact ((p.alike_forget j).symm.trans h).trans (q.alike_forget j)
    | _ => cases ha

end Alike

end Pool

end Interpose

import Interpose.Proofs.PoolHistory

/-!
# How a pool keeps its strings

Beside its strings a pool keeps books on them: the vacant places, the count, the addresses that instances have bound and the
string that was resolved last. Each operation writes some of these, and whatever ends a string, be it a removal, the release
of its last reference or a collection, ends it by the same few writes (`discard`). None of the books is ever out of step with
the strings: a place is given away only while it is vacant, nothing is counted off that was not counted, and no address and
no remembered number leads to a string that is gone.

The count and the vacant places are the invariant `WellFormed`, which is shown where the lives of strings are. Here come what
keeps each string (`Kept`), and what leads to it (`Linked`).

Main statement: `representation`.
-/

namespace Interpose

namespace Pool

variable {p q : Pool} {i : InstanceId} {id : StringId} {part : Part} {address : Cell} {e e' : Entry}

/-! ## What keeps a string -/

/-- Every string has a reason to stay. -/
def Kept (p : Pool) : Prop :=
  ∀ id e, p.entry? id = some e → e.isUnreferenced = false

theorem Entry.isUnreferenced_eq_false :
    e.isUnreferenced = false ↔ e.pinned = true ∨ e.implicit = true ∨ 0 < e.refs := by
  rw [isUnreferenced, Nat.pos_iff_ne_zero]
  cases e.pinned <;> cases e.implicit <;> simp

/-- What an operation leaves of a string that something keeps, something keeps. -/
theorem Entry.isUnreferenced_after {a : Action} (hkept : e.isUnreferenced = false) (h : e.after id a = some e') :
    e'.isUnreferenced = false := by
  rcases Entry.after_cases h with ⟨hrefs, himplicit, hpinned⟩ | ⟨-, hone⟩ | ⟨-, hstill⟩
  · rw [isUnreferenced, hrefs, himplicit, hpinned]
    exact hkept
  · -- a string that was just referred to has a reference
    have hrefs : 0 < e'.refs := by omega
    exact isUnreferenced_eq_false.2 (.inr (.inr hrefs))
  · exact hstill

/-- A string is added with a reason to stay. -/
theorem Action.isUnreferenced_of_adds {a : Action} (h : a.adds? = some e) : e.isUnreferenced = false := by
  cases a with
  | add s | addPinned s =>
    cases h
    rfl
  | _ => cases h

theorem kept_empty : Kept empty := by
  intro id e he
  obtain ⟨slot, -, ho⟩ := entry?_eq_some.1 he
  exact absurd (lt_size_of_occupant ho) (Nat.not_lt_zero slot)

theorem WellFormed.kept_perform (h : WellFormed p) (hkept : Kept p) {a : Action}
    (hroom : (p.perform a).2.live ≤ mostStrings) : Kept (p.perform a).2 := by
  intro id e' he'
  -- a string that is there now was there before, or it has just been added
  rcases h.contains_of_contains_perform hroom (contains_iff.2 ⟨e', he'⟩) with hold | ⟨new, hadds, rfl⟩
  · obtain ⟨e, he⟩ := contains_iff.1 hold
    rw [h.entry?_perform hroom he] at he'
    exact Entry.isUnreferenced_after (hkept id e he) he'
  · rw [perform_adds hadds, h.entry?_insert (lt_of_adds hadds hroom), if_pos rfl] at he'
    cases he'
    exact Action.isUnreferenced_of_adds hadds

/-! ## What leads to a string -/

/-- Bound addresses and the number that is remembered lead to strings that are there. -/
structure Linked (p : Pool) : Prop where
  bound : ∀ i address, p.isBound i address = true →
    ∃ target, Address.decode? address = some target ∧ p.contains target.1 = true
  listed : ∀ i bound, p.bindings.get? i = some bound → bound.isEmpty = false
  cached : ∀ id, p.cache = some id → p.contains id = true

/-- Whether an operation remembers no number but that of a string. -/
def remembersString (p : Pool) : Action → Bool
  | .setCache id => p.contains id
  | _ => true

theorem linked_empty : Linked empty := by
  refine ⟨fun i address hbound => ?_, fun i bound hbound => ?_, fun id hid => ?_⟩
  · cases hbound
  · cases hbound
  · cases hid

/-- An address that is still bound leads to a string that is still there, since strings end together with their addresses. -/
theorem Purges.contains_of_isBound (h : Purges p q)
    (hp : ∀ i address, p.isBound i address = true →
      ∃ target, Address.decode? address = some target ∧ p.contains target.1 = true)
    (hbound : q.isBound i address = true) :
    ∃ target, Address.decode? address = some target ∧ q.contains target.1 = true := by
  obtain ⟨hbefore, hstill⟩ := (h.isBound i address).1 hbound
  obtain ⟨target, hdecode, hthere⟩ := hp i address hbefore
  exact ⟨target, hdecode, hstill target.1 target.2 (Address.encode_of_decode? hdecode) hthere⟩

/-- An instance whose last address is forgotten is no longer listed. -/
theorem not_isEmpty_of_unbind {bound : Keyed Cell Unit} (h : (unbind p.bindings id).get? i = some bound) :
    bound.isEmpty = false := by
  rw [unbind, Keyed.get?_refine, Option.bind_eq_some_iff] at h
  obtain ⟨before, -, hkept⟩ := h
  dsimp only at hkept
  split at hkept
  · cases hkept
  · rename_i hleft
    cases hkept
    exact Bool.eq_false_iff.2 hleft

namespace Linked

/-- Strings may be added and changed, as long as none ends. -/
theorem of_same (h : Linked p) (hcontains : ∀ id, p.contains id = true → q.contains id = true)
    (hbindings : q.bindings = p.bindings) (hcache : q.cache = p.cache) : Linked q := by
  refine ⟨fun i address hbound => ?_, hbindings ▸ h.listed, fun id hid => hcontains id (h.cached id (hcache ▸ hid))⟩
  rw [isBound_of_bindings hbindings] at hbound
  obtain ⟨target, hdecode, hthere⟩ := h.bound i address hbound
  exact ⟨target, hdecode, hcontains target.1 hthere⟩

theorem insert (h : Linked p) (e : Entry) : Linked (p.insert e).2 := by
  refine h.of_same (fun id => contains_insert e) (bindings_insert p e) ?_
  unfold Pool.insert
  cases p.free <;> rfl

theorem setEntry (h : Linked p) (hc : p.contains id = true) (e : Entry) : Linked (p.setEntry id e) := by
  refine h.of_same (fun other hother => ?_) ?_ ?_
  · rw [contains, entry?_setEntry hc]
    split
    · rfl
    · exact hother
  · unfold Pool.setEntry
    split <;> rfl
  · unfold Pool.setEntry
    split <;> rfl

theorem discard (h : Linked p) (id : StringId) : Linked (p.discard id) := by
  cases hc : p.contains id with
  | false =>
    rw [discard_of_not_contains hc]
    exact h
  | true =>
    obtain ⟨e, he⟩ := contains_iff.1 hc
    obtain ⟨slot, hslot, ho⟩ := entry?_eq_some.1 he
    have hdiscard := discard_of_occupant hslot ho
    refine ⟨fun i address => (p.purges_discard id).contains_of_isBound h.bound, fun i bound hbound => ?_,
      fun other hother => ?_⟩
    · rw [hdiscard] at hbound
      exact not_isEmpty_of_unbind hbound
    · -- what is remembered still is another string than the one that ends
      have hcache : (if p.cache = some id then none else p.cache) = some other := by
        rw [← hother, hdiscard]
      split at hcache
      · cases hcache
      · rename_i hne
        have hother : other ≠ id := fun hsame => hne (hsame ▸ hcache)
        rw [contains, entry?_discard, if_neg hother]
        exact h.cached other hcache

theorem replace (h : Linked p) (hc : p.contains id = true) (x : Option Entry) : Linked (p.replace id x) := by
  cases x with
  | some e => exact h.setEntry hc e
  | none => exact h.discard id

theorem collect (h : Linked p) : Linked p.collect.2 := by
  have hdiscard : ∀ (ids : List StringId) {p : Pool}, Linked p → Linked (ids.foldl Pool.discard p) := by
    intro ids
    induction ids with
    | nil => exact fun h => h
    | cons id ids ih => exact fun h => ih (h.discard id)
  have hwithout : Linked p.withoutImplicit := by
    refine h.of_same (fun id hid => ?_) rfl rfl
    rw [contains, entry?_withoutImplicit, Option.isSome_map]
    exact hid
  exact hdiscard _ hwithout

theorem bind (h : Linked p) (i : InstanceId) (id : StringId) (part : Part) :
    Linked (p.perform (.bind i id part)).2 := by
  have hsame := p.alike_bind i id part
  have hcontains : ∀ other, (p.perform (.bind i id part)).2.contains other = p.contains other := fun other => by
    rw [contains, hsame.entry?_eq, contains]
  refine ⟨fun j address hbound => ?_, fun j bound hbound => ?_, fun other hother => ?_⟩
  · simp only [hcontains]
    rcases (p.isBound_bind i j id part address).1 hbound with hbefore | ⟨-, hc, hencode⟩
    · exact h.bound j address hbefore
    · exact ⟨(id, part), Address.decode?_of_encode (one_le_of_contains hc) hencode, hc⟩
  · by_cases hbinds : p.contains id = true ∧ ∃ address, Address.encode id part = some address
    · obtain ⟨hc, address, hencode⟩ := hbinds
      rw [perform_bind hc hencode, Keyed.get?_insert] at hbound
      split at hbound
      · -- the list of the instance now has the address that it asked for
        cases hbound
        have hnew : (((p.bindings.get? i).getD .empty).insert address ()).contains address = true := by
          rw [Keyed.contains, Keyed.get?_insert, if_pos rfl, Option.isSome_some]
        exact not_isEmpty_of_contains hnew
      · exact h.listed j bound hbound
    · rw [snd_perform_bind_of_not hbinds] at hbound
      exact h.listed j bound hbound
  · rw [hcontains]
    refine h.cached other ?_
    rw [← hother]
    simp only [perform, Pool.bind]
    repeat' split
    all_goals rfl

theorem forget (h : Linked p) (i : InstanceId) : Linked (p.perform (.forget i)).2 := by
  have hsame := p.alike_forget i
  have hcontains : ∀ other, (p.perform (.forget i)).2.contains other = p.contains other := fun other => by
    rw [contains, hsame.entry?_eq, contains]
  refine ⟨fun j address hbound => ?_, fun j bound hbound => ?_, fun other hother => ?_⟩
  · simp only [hcontains]
    exact h.bound j address ((p.isBound_forget i j address).1 hbound).1
  · simp only [perform, Pool.forget] at hbound
    split at hbound
    · rw [Keyed.get?_erase] at hbound
      split at hbound
      · cases hbound
      · exact h.listed j bound hbound
    · exact h.listed j bound hbound
  · rw [hcontains]
    refine h.cached other ?_
    rw [← hother]
    simp only [perform, Pool.forget]
    split <;> rfl

/-- The one operation that could break a link is remembering a number that no string has. -/
theorem perform (h : Linked p) {a : Action} (hremembers : p.remembersString a = true) :
    Linked (p.perform a).2 := by
  cases ha : a.target? with
  | some target =>
    cases hc : p.contains target with
    | false =>
      rw [perform_no_target ha hc]
      exact h
    | true =>
      obtain ⟨e, he⟩ := contains_iff.1 hc
      rw [perform_target ha he]
      exact h.replace hc _
  | none =>
    cases a with
    | add s | addPinned s => exact h.insert _
    | bind i target part => exact h.bind i target part
    | forget i => exact h.forget i
    | collect => exact h.collect
    | setCache target =>
      refine ⟨h.bound, h.listed, fun id hid => ?_⟩
      cases hid
      exact hremembers
    | resetNull => exact ⟨h.bound, h.listed, h.cached⟩
    | _ => cases ha

end Linked

/-! ## Counting off -/

namespace WellFormed

/-- Ending a string counts one off, and there was one to count off. -/
theorem live_discard (h : WellFormed p) (hc : p.contains id = true) : (p.discard id).live + 1 = p.live := by
  obtain ⟨e, he⟩ := contains_iff.1 hc
  obtain ⟨slot, hslot, ho⟩ := entry?_eq_some.1 he
  have hcounted := h.live_pos ho
  rw [discard_of_occupant hslot ho]
  show p.live - 1 + 1 = p.live
  omega

theorem live_foldl_discard (h : WellFormed p) {ids : List StringId} (hids : ids.Nodup)
    (hthere : ∀ id ∈ ids, p.contains id = true) : (ids.foldl Pool.discard p).live + ids.length = p.live := by
  induction ids generalizing p with
  | nil => rfl
  | cons id ids ih =>
    obtain ⟨hid, hids⟩ := List.nodup_cons.1 hids
    have hfirst := h.live_discard (hthere id List.mem_cons_self)
    -- the strings that end later are others, so they are still there
    have hrest := ih (h.discard id) hids fun other hother => by
      have hne : other ≠ id := by
        rintro rfl
        exact hid hother
      rw [contains, entry?_discard, if_neg hne]
      exact hthere other (List.mem_cons_of_mem id hother)
    rw [List.foldl_cons, List.length_cons]
    omega

/-- However far a collection has come, it has counted off as many strings as it has ended. -/
theorem live_collecting (h : WellFormed p) {n : Nat} (hn : n ≤ p.withoutImplicit.unreferenced.length) :
    ((p.withoutImplicit.unreferenced.take n).foldl Pool.discard p.withoutImplicit).live + n = p.live := by
  have hwithout := h.withoutImplicit
  have hcounted := hwithout.live_foldl_discard (hwithout.nodup_unreferenced.sublist (List.take_sublist n _))
    fun id hid => by
      obtain ⟨e, he, -⟩ := (mem_unreferenced hwithout.room).1 (List.mem_of_mem_take hid)
      exact contains_iff.2 ⟨e, he⟩
  rw [List.length_take, Nat.min_eq_left hn] at hcounted
  exact hcounted

end WellFormed

/-! ## Every sequence of operations -/

/-- Whether a number is remembered only while a string has it. -/
def remembersStrings (p : Pool) : List Action → Bool
  | [] => true
  | a :: actions => p.remembersString a && remembersStrings (p.perform a).2 actions

theorem remembersStrings_append (p : Pool) (first second : List Action) :
    p.remembersStrings (first ++ second) = (p.remembersStrings first && (p.after first).remembersStrings second) := by
  induction first generalizing p with
  | nil => rfl
  | cons a first ih =>
    rw [List.cons_append, remembersStrings, remembersStrings, ih, Bool.and_assoc]
    rfl

/-- Nothing but the operations so far decides what keeps the strings and what leads to them. -/
theorem kept_and_linked {actions : List Action} (hfits : Fits actions)
    (hremembers : empty.remembersStrings actions = true) :
    Kept (empty.after actions) ∧ Linked (empty.after actions) := by
  -- from the pool before the last operation to the one after it
  induction actions using List.reverseRecOn with
  | nil => exact ⟨kept_empty, linked_empty⟩
  | append_singleton actions a ih =>
    rw [remembersStrings_append, Bool.and_eq_true] at hremembers
    obtain ⟨hearlier, hlast⟩ := hremembers
    have hbefore := hfits.of_prefix (List.prefix_append actions [a])
    obtain ⟨hkept, hlinked⟩ := ih hbefore hearlier
    have hroom := hfits _ List.prefix_rfl
    rw [lives_history_concat] at hroom
    rw [after_concat]
    rw [remembersStrings, Bool.and_eq_true] at hlast
    exact ⟨hbefore.agrees.wellFormed.kept_perform hkept (hbefore.agrees.room hroom), hlinked.perform hlast.1⟩

/-- The books of a pool agree with its strings. -/
structure Represented (p : Pool) : Prop where
  /-- The places that are remembered are those that are vacant. -/
  vacant : ∀ slot, slot ∈ p.free ↔ slot < p.slots.size ∧ p.occupant slot = none
  nodup : p.free.Nodup
  /-- The count is that of the other places. -/
  live : p.live = p.occupied.length
  /-- What stands in a place has a reason to stay. -/
  kept : ∀ slot e, p.occupant slot = some e → e.pinned = true ∨ e.implicit = true ∨ 0 < e.refs
  /-- An address that is bound is that of a string that is there. -/
  bound : ∀ i address, p.isBound i address = true →
    ∃ id part slot e, Address.decode? address = some (id, part) ∧ id.slot? = some slot ∧ p.occupant slot = some e
  /-- No instance is listed without an address. -/
  listed : ∀ i bound, p.bindings.get? i = some bound → bound.isEmpty = false
  /-- What is remembered as resolved last is there. -/
  cached : ∀ id, p.cache = some id → p.contains id = true

theorem represented {p : Pool} (h : WellFormed p) (hkept : Kept p) (hlinked : Linked p) : Represented p := by
  refine ⟨h.vacant, h.nodup, h.length_occupied.symm, fun slot e ho => ?_, fun i address hbound => ?_, hlinked.listed,
    hlinked.cached⟩
  · -- a place in use has a number, by which its string is kept
    have hslot : slot < mostStrings := Nat.lt_of_lt_of_le (lt_size_of_occupant ho) h.room
    have he : p.entry? (.ofSlot slot) = some e := entry?_eq_some.2 ⟨slot, StringId.slot?_ofSlot hslot, ho⟩
    exact Entry.isUnreferenced_eq_false.1 (hkept _ e he)
  · obtain ⟨⟨id, part⟩, hdecode, hthere⟩ := hlinked.bound i address hbound
    obtain ⟨e, he⟩ := contains_iff.1 hthere
    obtain ⟨slot, hslot, ho⟩ := entry?_eq_some.1 he
    exact ⟨id, part, slot, e, hdecode, hslot, ho⟩

/-- How a pool keeps its strings after operations, and what the next one can do to them. -/
structure RepresentationLaw (actions : List Action) : Prop where
  represented : Represented (empty.after actions)
  /-- A string that is added is put into a place where nothing stands, and nothing else moves. -/
  added : ∀ a e, a.adds? = some e →
    (empty.after actions).occupant (empty.after actions).nextSlot = none ∧
      ∀ slot, ((empty.after actions).perform a).2.occupant slot =
        if slot = (empty.after actions).nextSlot then some e else (empty.after actions).occupant slot
  /-- A string that is removed is counted off. -/
  removed : ∀ id s, ((empty.after actions).perform (.remove id)).1 = .ok s →
    ((empty.after actions).perform (.remove id)).2.live + 1 = (empty.after actions).live
  /-- So is one that ends with its last reference. -/
  released : ∀ id, (empty.after actions).contains id = true →
    ((empty.after actions).perform (.release id)).2.contains id = false →
      ((empty.after actions).perform (.release id)).2.live + 1 = (empty.after actions).live
  /-- However far a collection has come, it has counted off what it ended. -/
  collecting : ∀ n ≤ (empty.after actions).withoutImplicit.unreferenced.length,
    (((empty.after actions).withoutImplicit.unreferenced.take n).foldl discard
      (empty.after actions).withoutImplicit).live + n = (empty.after actions).live
  /-- It answers how many strings it counted off. -/
  collected : ((empty.after actions).perform .collect).2.live + ((empty.after actions).perform .collect).1 =
    (empty.after actions).live

/-- A string that a release ends is counted off. -/
theorem WellFormed.live_release (h : WellFormed p) (hc : p.contains id = true)
    (hgone : (p.perform (.release id)).2.contains id = false) :
    (p.perform (.release id)).2.live + 1 = p.live := by
  obtain ⟨e, he⟩ := contains_iff.1 hc
  rw [contains_eq_false, perform_target rfl he, entry?_replace hc, if_pos rfl] at hgone
  rw [perform_target rfl he, hgone]
  exact h.live_discard hc

/-- The books of a pool agree with its strings whatever is done with it, as long as there are numbers for its strings and
a number is remembered only while a string has it. -/
theorem representation (actions : List Action) (hfits : Fits actions)
    (hremembers : empty.remembersStrings actions = true) : RepresentationLaw actions := by
  have hwell := hfits.agrees.wellFormed
  obtain ⟨hkept, hlinked⟩ := kept_and_linked hfits hremembers
  refine ⟨Pool.represented hwell hkept hlinked, fun a e hadds => ⟨hwell.occupant_nextSlot, fun slot => ?_⟩,
    fun id s hremoved => ?_, fun id => hwell.live_release, fun n => hwell.live_collecting, ?_⟩
  · rw [perform_adds hadds]
    exact hwell.occupant_insert e slot
  · -- what is removed was there
    cases hc : (empty.after actions).contains id with
    | false =>
      rw [(perform_of_not_contains hc).2.1] at hremoved
      cases hremoved
    | true =>
      obtain ⟨e, he⟩ := contains_iff.1 hc
      rw [perform_remove he]
      exact hwell.live_discard hc
  · have hall := hwell.live_collecting (Nat.le_refl _)
    rw [List.take_length] at hall
    exact hall

/-- A string ends with its last reference while it is remembered and addressed, and its place is used again. -/
def lending : List Action :=
  [.add (.ofCells [1]), .addPinned (.ofCells [2]), .acquire ⟨1⟩, .bind ⟨0⟩ ⟨1⟩ .view, .bind ⟨1⟩ ⟨2⟩ .record, .setCache ⟨1⟩,
    .collect, .release ⟨1⟩, .add (.ofCells [1, 2]), .setCache ⟨1⟩]

theorem representation_lending :
    Fits lending ∧ empty.remembersStrings lending = true ∧ (empty.after lending).occupied = [0, 1] ∧
      RepresentationLaw lending :=
  have hfits : Fits lending := fits_of_length (by decide)
  have hremembers : empty.remembersStrings lending = true := by decide +kernel
  ⟨hfits, hremembers, by decide +kernel, representation lending hfits hremembers⟩

end Pool

end Interpose

import Interpose.Proofs.PoolContents

/-!
# What a pool refuses

A string is asked for by its number, and any cell can be given for one: a negative one, zero, one that no string ever had,
one whose string is gone. What is refused is refused for one of four reasons, each of which is the case exactly when it is
given; and what is refused has not been begun. Two of the reasons are limits that hardly any pool comes to, the references
that can be counted and the addresses that there are.

The references to a string are never more than can be counted, in whatever place it stands (`Countable`). This holds with
any number of strings, even with more of them than numbers.

Main statement: `refusals`.
-/

namespace Interpose

namespace Address

variable {id : StringId} {part : Part}

/-- The last number of which both cells are addresses. -/
def lastId : Int := 0x07FFFFFF

theorem encode_eq_none (hid : 1 ≤ id.raw.val) : encode id part = none ↔ lastId < id.raw.val := by
  have hplace : 2 * id.raw.val ≤ place id part ∧ place id part ≤ 2 * id.raw.val + 1 := by
    cases part <;> simp only [place] <;> omega
  unfold lastId
  constructor
  · intro hnone
    by_contra hle
    -- the cell counted from the base is an address, so it would be the one that is given
    have hcell : encode id part = some ⟨0x40000000 + 4 * place id part, by omega, by omega⟩ :=
      (encode_eq_some hid).2 rfl
    rw [hnone] at hcell
    cases hcell
  · intro hlast
    rw [Option.eq_none_iff_forall_not_mem]
    intro address haddress
    have hvalue := (encode_eq_some hid).1 haddress
    have hupper := address.upper
    omega

end Address

namespace Pool

variable {p : Pool} {id : StringId} {e e' : Entry}

/-! ## Counting references -/

/-- No string has more references than can be counted. -/
def Countable (p : Pool) : Prop :=
  ∀ slot e, p.occupant slot = some e → e.refs ≤ mostRefs

/-- A reference is added only where one more can be counted. -/
theorem Entry.refs_after_le {a : Action} (h : e.refs ≤ mostRefs) (hafter : e.after id a = some e') :
    e'.refs ≤ mostRefs := by
  rcases Entry.after_cases hafter with ⟨hsame, -, -⟩ | ⟨hmore, hone⟩ | ⟨hless, -⟩ <;> omega

/-- A new string has no reference, and so no operation makes more of them than can be counted. -/
theorem Action.grants_countable (a : Action) : a.Grants fun e => e.refs ≤ mostRefs where
  adds h := by
    cases a <;> cases h <;> exact Nat.zero_le mostRefs
  leaves := Entry.refs_after_le
  collects _ _ h := h

theorem countable_after (actions : List Action) : Countable (empty.after actions) :=
  each_empty.after fun a _ => a.grants_countable

/-- A string to which no reference can be added has as many as can be counted. -/
theorem Countable.refs_eq (h : Countable p) (he : p.entry? id = some e) (hmost : ¬ e.refs < mostRefs) :
    e.refs = mostRefs := by
  have hle : e.refs ≤ mostRefs := Each.entry? h he
  omega

/-! ## Refusals -/

/-- Whether what was asked for was refused. -/
def Step.isRefused : Step → Bool
  | ⟨.remove _, .error _⟩ => true
  | ⟨.acquire _, .error _⟩ => true
  | ⟨.release _, .error _⟩ => true
  | ⟨.bind _ _ _, .error _⟩ => true
  | _ => false

/-- What a pool refuses, and for what reason. -/
structure RefusalLaw (p : Pool) : Prop where
  remove : ∀ id error, (p.perform (.remove id)).1 = .error error ↔
    p.contains id = false ∧ error = .invalidId id.raw
  /-- A reference is refused to a string that has as many as can be counted. -/
  acquire : ∀ id error, (p.perform (.acquire id)).1 = .error error ↔
    p.contains id = false ∧ error = .invalidId id.raw ∨ p.refCount? id = some mostRefs ∧ error = .cannotAcquire id.raw
  /-- No reference is taken from a string that has none. -/
  release : ∀ id error, (p.perform (.release id)).1 = .error error ↔
    p.contains id = false ∧ error = .invalidId id.raw ∨ p.refCount? id = some 0 ∧ error = .cannotRelease id.raw
  /-- The null string has its address, and it is not bound. -/
  null : ∀ i id part, id.isNull = true → p.perform (.bind i id part) = (.ok Address.null, p)
  /-- Of another number an address is refused if there is no string, or if there is no such address. -/
  bind : ∀ i id part error, (p.perform (.bind i id part)).1 = .error error ↔
    id.isNull = false ∧
      (p.contains id = false ∧ error = .invalidId id.raw ∨
        p.contains id = true ∧ Address.lastId < id.raw.val ∧ error = .addressOutOfRange id.raw)
  /-- What is refused leaves everything as it is. -/
  unchanged : ∀ a, (p.step a).isRefused = true → (p.perform a).2 = p

theorem refused_remove (p : Pool) (id : StringId) (error : PoolError) :
    (p.perform (.remove id)).1 = .error error ↔ p.contains id = false ∧ error = .invalidId id.raw := by
  cases hc : p.contains id with
  | false =>
    rw [(perform_of_not_contains hc).2.1]
    simp [eq_comm]
  | true =>
    obtain ⟨e, he⟩ := contains_iff.1 hc
    rw [perform_remove he]
    simp

theorem Countable.refused_acquire (h : Countable p) (id : StringId) (error : PoolError) :
    (p.perform (.acquire id)).1 = .error error ↔
      p.contains id = false ∧ error = .invalidId id.raw ∨
        p.refCount? id = some mostRefs ∧ error = .cannotAcquire id.raw := by
  cases hc : p.contains id with
  | false =>
    rw [(perform_of_not_contains hc).2.2.1, refCount?, contains_eq_false.1 hc]
    simp [eq_comm]
  | true =>
    obtain ⟨e, he⟩ := contains_iff.1 hc
    rw [perform_acquire he, refCount?, he]
    split
    · -- one more can be counted, so the references are not the most there can be
      rename_i hmore
      simp [Nat.ne_of_lt hmore]
    · rename_i hmost
      simp [h.refs_eq he hmost, eq_comm]

theorem refused_release (p : Pool) (id : StringId) (error : PoolError) :
    (p.perform (.release id)).1 = .error error ↔
      p.contains id = false ∧ error = .invalidId id.raw ∨ p.refCount? id = some 0 ∧ error = .cannotRelease id.raw := by
  cases hc : p.contains id with
  | false =>
    rw [(perform_of_not_contains hc).2.2.2, refCount?, contains_eq_false.1 hc]
    simp [eq_comm]
  | true =>
    obtain ⟨e, he⟩ := contains_iff.1 hc
    rw [refCount?, he]
    cases hrefs : e.refs with
    | zero =>
      rw [perform_release_zero he hrefs]
      simp [hrefs, eq_comm]
    | succ refs =>
      rw [perform_release_succ he hrefs]
      simp [hrefs]

theorem refused_bind (p : Pool) (i : InstanceId) (id : StringId) (part : Part) (error : PoolError) :
    (p.perform (.bind i id part)).1 = .error error ↔
      id.isNull = false ∧
        (p.contains id = false ∧ error = .invalidId id.raw ∨
          p.contains id = true ∧ Address.lastId < id.raw.val ∧ error = .addressOutOfRange id.raw) := by
  cases hnull : id.isNull with
  | true =>
    rw [perform_bind_null hnull]
    simp
  | false =>
    cases hc : p.contains id with
    | false => simp [Pool.perform, Pool.bind, settle, hnull, hc, eq_comm]
    | true =>
      have hencode : Address.encode id part = none ↔ Address.lastId < id.raw.val :=
        Address.encode_eq_none (one_le_of_contains hc)
      cases he : Address.encode id part with
      | some address =>
        -- there is an address, so the number is none of the large ones
        have hsmall : ¬ Address.lastId < id.raw.val := by
          rw [← hencode, he]
          simp
        rw [perform_bind hc he]
        simp [hsmall]
      | none => simp [Pool.perform, Pool.bind, settle, hnull, hc, he, hencode.1 he, eq_comm]

theorem perform_refused {a : Action} (h : (p.step a).isRefused = true) : (p.perform a).2 = p := by
  cases a with
  | remove id =>
    cases hc : p.contains id with
    | false => exact perform_no_target rfl hc
    | true =>
      -- a string that is there is not refused
      obtain ⟨e, he⟩ := contains_iff.1 hc
      rw [step, perform_remove he] at h
      cases h
  | acquire id =>
    cases hc : p.contains id with
    | false => exact perform_no_target rfl hc
    | true =>
      obtain ⟨e, he⟩ := contains_iff.1 hc
      rw [step, perform_acquire he] at h
      rw [perform_acquire he]
      split
      · rename_i hmore
        rw [if_pos hmore] at h
        cases h
      · rfl
  | release id =>
    cases hc : p.contains id with
    | false => exact perform_no_target rfl hc
    | true =>
      obtain ⟨e, he⟩ := contains_iff.1 hc
      cases hrefs : e.refs with
      | zero => rw [perform_release_zero he hrefs]
      | succ refs =>
        rw [step, perform_release_succ he hrefs] at h
        cases h
  | bind i id part =>
    by_cases hgives : p.contains id = true ∧ ∃ address, Address.encode id part = some address
    · obtain ⟨hc, address, hencode⟩ := hgives
      rw [step, perform_bind hc hencode] at h
      cases h
    · exact snd_perform_bind_of_not hgives
  | _ => cases h

/-- What is refused after any operations, and why. -/
theorem refusals (actions : List Action) : RefusalLaw (empty.after actions) := by
  have hcountable := countable_after actions
  exact ⟨refused_remove _, hcountable.refused_acquire, refused_release _, fun i id part => perform_bind_null,
    refused_bind _, fun a => perform_refused⟩

end Pool

end Interpose

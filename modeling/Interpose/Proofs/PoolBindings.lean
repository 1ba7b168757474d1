import Interpose.Proofs.PoolEntries

/-!
# Bound addresses

Every string has two addresses, by its number; an address leads an instance to the string only if the instance bound it.
Here stands which addresses are bound after an operation. What ends strings takes their addresses from every instance, and
no others (`Purges`).

Main statements: `Address.decode?_eq_some` and `Address.encode_eq_some`, by which addresses and parts of strings belong
together; `isBound_bind`, `isBound_forget`, and `purges_discard`.
-/

namespace Interpose

namespace Address

variable {id : StringId} {part : Part} {address : Cell}

/-- The cell of an address, counted from the null string's. -/
def place (id : StringId) : Part → Int
  | .view => 2 * id.raw.val
  | .record => 2 * id.raw.val + 1

theorem encode_eq_some (hid : 1 ≤ id.raw.val) :
    encode id part = some address ↔ address.val = 0x40000000 + 4 * place id part := by
  have hbase : base.val = 0x40000000 := rfl
  have hbytes : Cell.bytes.val = 4 := rfl
  have htwo : (2 : Cell).val = 2 := rfl
  have hplace : place id part = id.raw.val * 2 + (offset part).val := by
    cases part <;> simp only [place, offset, Cell.val_zero, Cell.val_one] <;> omega
  simp only [encode, Cell.mul?, Cell.add?, Option.bind_eq_bind, Option.bind_eq_some_iff, Cell.ofInt?_eq_some, hbase,
    hbytes, htwo]
  constructor
  · rintro ⟨doubled, hdoubled, slot, hslot, bytes, hsize, haddress⟩
    omega
  · intro haddress
    have hupper := address.upper
    have hoffset : 0 ≤ (offset part).val := by cases part <;> decide
    -- the address is the greatest of the numbers that are computed on the way
    refine ⟨⟨id.raw.val * 2, by omega, by omega⟩, rfl, ⟨place id part, by omega, by omega⟩, hplace,
      ⟨place id part * 4, by omega, by omega⟩, rfl, ?_⟩
    show address.val = 0x40000000 + place id part * 4
    omega

theorem decode?_eq_some :
    decode? address = some (id, part) ↔ 1 ≤ id.raw.val ∧ address.val = 0x40000000 + 4 * place id part := by
  have hbase : base.val = 0x40000000 := rfl
  have hupper := address.upper
  simp only [decode?, Cell.sub?, Option.bind_eq_bind, Option.bind_eq_some_iff, Cell.ofInt?_eq_some, hbase]
  constructor
  · rintro ⟨distance, hdistance, h⟩
    split at h
    · cases h
    · rename_i hinside
      obtain ⟨raw, hraw, h⟩ := Option.bind_eq_some_iff.1 h
      rw [Cell.ofInt?_eq_some] at hraw
      split at h
      · cases h
      · rename_i hnull
        obtain ⟨rfl, rfl⟩ := Prod.mk.inj (Option.some.inj h)
        -- the number is not that of the null string, and the distance is that of a cell
        have hpositive : raw.val ≠ 0 := by
          intro hzero
          exact hnull (by rw [StringId.isNull, beq_iff_eq]; exact Cell.ext hzero)
        have hnonneg : ¬ distance.val < 0 ∧ distance.val % 4 = 0 := by
          rw [Cell.lt_def] at hinside
          simpa using hinside
        dsimp only
        split
        · rename_i heven
          simp only [place]
          omega
        · rename_i hodd
          simp only [place]
          omega
  · rintro ⟨hid, haddress⟩
    have hplace : 2 * id.raw.val ≤ place id part ∧ place id part ≤ 2 * id.raw.val + 1 := by
      cases part <;> simp only [place] <;> omega
    refine ⟨⟨4 * place id part, by omega, by omega⟩, by simp only; omega, ?_⟩
    -- dividing the distance gives the number back, and its remainder the part
    have hraw : Cell.ofInt? (4 * place id part / 4 / 2) = some id.raw := Cell.ofInt?_eq_some.2 (by omega)
    have hnull : id.isNull ≠ true := by
      intro hzero
      rw [StringId.isNull, beq_iff_eq] at hzero
      rw [hzero] at hid
      exact absurd hid (by decide)
    have hpart : (if 4 * place id part / 4 % 2 = 0 then Part.view else .record) = part := by
      cases part with
      | view =>
        have hview : place id .view = 2 * id.raw.val := rfl
        rw [if_pos (by omega)]
      | record =>
        have hrecord : place id .record = 2 * id.raw.val + 1 := rfl
        rw [if_neg (by omega)]
    rw [if_neg, hraw, Option.bind_some, if_neg hnull, hpart]
    rw [Cell.lt_def]
    show ¬ (4 * place id part < 0 ∨ 4 * place id part % 4 ≠ 0)
    omega

/-- No address below the base is that of a string. -/
theorem decode?_of_lt (h : address < base) : decode? address = none := by
  have hlt : address.val < 0x40000000 := Cell.lt_def.1 h
  cases hdecode : decode? address with
  | none => rfl
  | some target =>
    obtain ⟨hid, haddress⟩ := decode?_eq_some.1 hdecode
    have hplace : 0 ≤ place target.1 target.2 := by
      cases target.2 <;> simp only [place] <;> omega
    omega

theorem not_isNull_of_lt (h : address < base) : isNull address = false := by
  have hlt : address.val < 0x40000000 := Cell.lt_def.1 h
  have hbase : base.val = 0x40000000 := rfl
  simp only [isNull, Bool.or_eq_false_iff, beq_eq_false_iff_ne, ne_eq, hbase]
  omega

theorem encode_of_decode? (h : decode? address = some (id, part)) : encode id part = some address := by
  obtain ⟨hid, haddress⟩ := decode?_eq_some.1 h
  exact (encode_eq_some hid).2 haddress

theorem decode?_of_encode (hid : 1 ≤ id.raw.val) (h : encode id part = some address) :
    decode? address = some (id, part) :=
  decode?_eq_some.2 ⟨hid, (encode_eq_some hid).1 h⟩

end Address

namespace Pool

variable {p q r : Pool} {i j : InstanceId} {id : StringId} {part : Part} {address : Cell} {e : Entry}

theorem isBound_iff :
    p.isBound i address = true ↔ ∃ bound, p.bindings.get? i = some bound ∧ bound.contains address = true := by
  unfold isBound
  cases p.bindings.get? i <;> simp

theorem isBound_of_bindings (h : q.bindings = p.bindings) (i : InstanceId) (address : Cell) :
    q.isBound i address = p.isBound i address := by
  rw [isBound, isBound, h]

/-- The number of a string is positive. -/
theorem one_le_of_contains (h : p.contains id = true) : 1 ≤ id.raw.val := by
  obtain ⟨e, he⟩ := contains_iff.1 h
  obtain ⟨slot, hslot, -⟩ := entry?_eq_some.1 he
  unfold StringId.slot? at hslot
  split at hslot
  · assumption
  · cases hslot

theorem not_isNull_of_contains (h : p.contains id = true) : id.isNull = false := by
  obtain ⟨e, he⟩ := contains_iff.1 h
  obtain ⟨slot, hslot, -⟩ := entry?_eq_some.1 he
  exact StringId.not_isNull_of_slot? hslot

/-! ## Binding and forgetting -/

theorem perform_bind_null (h : id.isNull = true) : p.perform (.bind i id part) = (.ok Address.null, p) := by
  simp only [perform, bind, h, if_true, settle]

theorem perform_bind (hc : p.contains id = true) (he : Address.encode id part = some address) :
    p.perform (.bind i id part) =
      (.ok address,
        { p with bindings := p.bindings.insert i (((p.bindings.get? i).getD .empty).insert address ()) }) := by
  have hnull := not_isNull_of_contains hc
  simp [perform, bind, hnull, hc, he, settle]

/-- An address is refused for no other reason than that there is no such string, or no such address. -/
theorem perform_bind_refused (hnull : id.isNull = false)
    (h : ¬ (p.contains id = true ∧ ∃ address, Address.encode id part = some address)) :
    ∃ error, p.perform (.bind i id part) = (.error error, p) := by
  simp only [perform, bind, hnull]
  cases hc : p.contains id with
  | false => exact ⟨_, rfl⟩
  | true =>
    cases he : Address.encode id part with
    | none => exact ⟨_, rfl⟩
    | some address => exact absurd ⟨hc, address, he⟩ h

/-- Where no address is given of a string, nothing is bound. -/
theorem snd_perform_bind_of_not (h : ¬ (p.contains id = true ∧ ∃ address, Address.encode id part = some address)) :
    (p.perform (.bind i id part)).2 = p := by
  cases hnull : id.isNull with
  | true => rw [perform_bind_null hnull]
  | false =>
    obtain ⟨error, herror⟩ := perform_bind_refused hnull h
    rw [herror]

theorem isBound_bind (p : Pool) (i j : InstanceId) (id : StringId) (part : Part) (address : Cell) :
    (p.perform (.bind i id part)).2.isBound j address = true ↔
      p.isBound j address = true ∨ j = i ∧ p.contains id = true ∧ Address.encode id part = some address := by
  by_cases h : p.contains id = true ∧ ∃ address, Address.encode id part = some address
  · obtain ⟨hc, other, he⟩ := h
    rw [perform_bind hc he]
    simp only [isBound, Keyed.get?_insert]
    by_cases hj : j = i
    · subst hj
      -- the instance may not have bound anything before
      rw [if_pos rfl]
      simp only [Keyed.contains, Keyed.get?_insert, hc, he, Option.some.injEq, true_and]
      by_cases hsame : address = other
      · simp [hsame]
      · cases p.bindings.get? j <;> simp [hsame, Ne.symm hsame]
    · simp [hj]
  · rw [snd_perform_bind_of_not h]
    constructor
    · exact Or.inl
    · rintro (hbound | ⟨-, hc, he⟩)
      · exact hbound
      · exact absurd ⟨hc, address, he⟩ h

theorem isBound_forget (p : Pool) (i j : InstanceId) (address : Cell) :
    (p.perform (.forget i)).2.isBound j address = true ↔ p.isBound j address = true ∧ j ≠ i := by
  simp only [perform, forget]
  cases hbindings : p.bindings.get? i with
  | none =>
    by_cases hj : j = i
    · simp [hj, isBound, hbindings]
    · simp [hj]
  | some bound =>
    simp only [isBound, Keyed.get?_erase]
    by_cases hj : j = i
    · simp [hj]
    · simp [hj]

/-! ## The end of strings -/

theorem contains_foldl_erase (addresses : List Cell) (bound : Keyed Cell Unit) (address : Cell) :
    (addresses.foldl (fun bound address => bound.erase address) bound).contains address = true ↔
      bound.contains address = true ∧ address ∉ addresses := by
  induction addresses generalizing bound with
  | nil => simp
  | cons other addresses ih =>
    rw [List.foldl_cons, ih, Keyed.contains, Keyed.get?_erase]
    by_cases hsame : address = other
    · simp [hsame]
    · simp [hsame, Keyed.contains]

theorem not_isEmpty_of_contains {bound : Keyed Cell Unit} (h : bound.contains address = true) :
    bound.isEmpty = false := by
  rw [Keyed.contains_iff, Keyed.keys] at h
  unfold Keyed.isEmpty
  cases hentries : bound.entries with
  | nil => simp [hentries] at h
  | cons entry entries => rfl

theorem isBound_unbind (id : StringId) (hbindings : q.bindings = unbind p.bindings id) :
    q.isBound i address = true ↔
      p.isBound i address = true ∧ ∀ part, Address.encode id part ≠ some address := by
  -- the two addresses of the string are all that is taken out
  have haddresses : address ∉ [Part.view, Part.record].filterMap (Address.encode id) ↔
      ∀ part, Address.encode id part ≠ some address := by
    rw [List.mem_filterMap]
    constructor
    · intro h part he
      exact h ⟨part, by cases part <;> simp, he⟩
    · rintro h ⟨part, -, he⟩
      exact h part he
  rw [isBound_iff, isBound_iff, hbindings, unbind, ← haddresses]
  simp only [Keyed.get?_refine, Option.bind_eq_some_iff]
  constructor
  · rintro ⟨kept, ⟨bound, hbound, hkept⟩, hc⟩
    split at hkept
    · cases hkept
    · obtain rfl := Option.some.inj hkept
      obtain ⟨hold, haddress⟩ := (contains_foldl_erase _ bound address).1 hc
      exact ⟨⟨bound, hbound, hold⟩, haddress⟩
  · rintro ⟨⟨bound, hbound, hold⟩, haddress⟩
    have hc := (contains_foldl_erase _ bound address).2 ⟨hold, haddress⟩
    -- an instance that has bound something else stays listed
    refine ⟨_, ⟨bound, hbound, ?_⟩, hc⟩
    rw [if_neg]
    simp [not_isEmpty_of_contains hc]

/-- From `p` to `q` strings may have ended, and exactly their addresses are bound no longer. -/
structure Purges (p q : Pool) : Prop where
  contains : ∀ id, q.contains id = true → p.contains id = true
  isBound : ∀ i address, q.isBound i address = true ↔
    p.isBound i address = true ∧
      ∀ id part, Address.encode id part = some address → p.contains id = true → q.contains id = true

theorem Purges.trans (hpq : Purges p q) (hqr : Purges q r) : Purges p r := by
  refine ⟨fun id hr => hpq.contains id (hqr.contains id hr), fun i address => ?_⟩
  rw [hqr.isBound, hpq.isBound]
  constructor
  · rintro ⟨⟨hbound, hq⟩, hr⟩
    exact ⟨hbound, fun id part he hp => hr id part he (hq id part he hp)⟩
  · rintro ⟨hbound, hr⟩
    exact ⟨⟨hbound, fun id part he hp => hqr.contains id (hr id part he hp)⟩,
      fun id part he hq => hr id part he (hpq.contains id hq)⟩

theorem Purges.of_same (hcontains : ∀ id, q.contains id = p.contains id) (hbindings : q.bindings = p.bindings) :
    Purges p q := by
  refine ⟨fun id hq => hcontains id ▸ hq, fun i address => ?_⟩
  rw [isBound_of_bindings hbindings]
  simp [hcontains]

theorem Purges.refl (p : Pool) : Purges p p :=
  .of_same (fun _ => rfl) rfl

theorem purges_setEntry (h : p.contains id = true) (e : Entry) : Purges p (p.setEntry id e) := by
  refine .of_same (fun other => ?_) ?_
  · rw [contains, entry?_setEntry h]
    split
    · rename_i hid
      rw [hid, h]
      rfl
    · rfl
  · unfold setEntry
    split <;> rfl

theorem purges_withoutImplicit (p : Pool) : Purges p p.withoutImplicit := by
  refine .of_same (fun id => ?_) rfl
  rw [contains, entry?_withoutImplicit, Option.isSome_map, contains]

theorem purges_discard (p : Pool) (id : StringId) : Purges p (p.discard id) := by
  cases hc : p.contains id with
  | false =>
    rw [discard_of_not_contains hc]
    exact .refl p
  | true =>
    have hcontains : ∀ other, (p.discard id).contains other = true ↔ other ≠ id ∧ p.contains other = true := by
      intro other
      rw [contains, entry?_discard]
      by_cases hid : other = id
      · simp [hid]
      · simp [hid, contains]
    refine ⟨fun other h => ((hcontains other).1 h).2, fun i address => ?_⟩
    obtain ⟨e, he⟩ := contains_iff.1 hc
    obtain ⟨slot, hslot, ho⟩ := entry?_eq_some.1 he
    rw [isBound_unbind id (by rw [discard_of_occupant hslot ho])]
    constructor
    · rintro ⟨hbound, hother⟩
      refine ⟨hbound, fun other part haddress hthere => (hcontains other).2 ⟨?_, hthere⟩⟩
      -- an address that stays is none of the string that ended
      rintro rfl
      exact hother part haddress
    · rintro ⟨hbound, hthere⟩
      exact ⟨hbound, fun part haddress => ((hcontains id).1 (hthere id part haddress hc)).1 rfl⟩

theorem purges_replace (h : p.contains id = true) (x : Option Entry) : Purges p (p.replace id x) := by
  cases x with
  | some e => exact purges_setEntry h e
  | none => exact p.purges_discard id

theorem purges_foldl_discard (ids : List StringId) (p : Pool) : Purges p (ids.foldl discard p) := by
  induction ids generalizing p with
  | nil => exact .refl p
  | cons id ids ih => exact (p.purges_discard id).trans (ih (p.discard id))

theorem purges_collect (p : Pool) : Purges p p.collect.2 :=
  p.purges_withoutImplicit.trans (purges_foldl_discard _ _)

end Pool

end Interpose

import Interpose.Proofs.PooledReading
import Interpose.Proofs.PoolRefusals

/-!
# Whose an address is

From the base on, the cells belong to strings two by two: the first two to the null string, and every later pair to the
string with its number. An address is computed from a number by multiplying and adding, and the number from an address by
subtracting and dividing, on cells throughout. Here stands that each of the two undoes the other and that neither goes
beyond a cell on its way; so two addresses are never mixed up, and none of them is taken for one of real memory.

Main statement: `Address.told_apart`.
-/

namespace Interpose

namespace Address

variable {id other : StringId} {part otherPart : Part} {address view : Cell}

/-! ## From a string to its addresses -/

theorem isSome_encode (hid : 1 ≤ id.raw.val) : (encode id part).isSome ↔ id.raw.val ≤ lastId := by
  rw [Option.isSome_iff_ne_none, ne_eq, encode_eq_none hid, Int.not_lt]

theorem val_of_encode (hid : 1 ≤ id.raw.val) (h : encode id part = some address) :
    address.val = base.val + 4 * (2 * id.raw.val + (offset part).val) := by
  have hbase : base.val = 0x40000000 := rfl
  have hplace : place id part = 2 * id.raw.val + (offset part).val := by
    cases part with
    | view => exact (Int.add_zero _).symm
    | record => rfl
  rw [(encode_eq_some hid).1 h, hplace, hbase]

/-- Behind the first address of a string comes the second. -/
theorem encode_record (hid : 1 ≤ id.raw.val) (h : encode id .view = some view) :
    ∃ record, view.add? Cell.bytes = some record ∧ encode id .record = some record := by
  -- the last number that has one of the addresses has both
  have hlast := (isSome_encode hid).1 (Option.isSome_iff_exists.2 ⟨view, h⟩)
  have hsome : (encode id .record).isSome := (isSome_encode hid).2 hlast
  obtain ⟨record, hrecord⟩ := Option.isSome_iff_exists.1 hsome
  refine ⟨record, Cell.ofInt?_eq_some.2 ?_, hrecord⟩
  have hview := (encode_eq_some hid).1 h
  have hvalue := (encode_eq_some hid).1 hrecord
  have hbytes : Cell.bytes.val = 4 := rfl
  simp only [place] at hview hvalue
  omega

/-! ## From an address to its string -/

theorem lt_of_isNull {null : Cell} (hnull : isNull null = true) (h : decode? address = some (id, part)) :
    null < address := by
  have hlt := lt_of_decode? h
  simp only [isNull, base, Bool.or_eq_true, beq_iff_eq] at hnull
  rw [Cell.lt_def]
  omega

/-- A cell behind the two of the null string is one of the two of some string. -/
theorem exists_place (hbehind : 0x40000004 < address.val) (haligned : address.val % 4 = 0) :
    ∃ id part, 1 ≤ id.raw.val ∧ address.val = 0x40000000 + 4 * place id part := by
  have hupper := address.upper
  obtain ⟨slot, hslot⟩ : ∃ slot, address.val = 0x40000000 + 4 * slot := ⟨(address.val - 0x40000000) / 4, by omega⟩
  let id : StringId := ⟨⟨slot / 2, by omega, by omega⟩⟩
  have hid : id.raw.val = slot / 2 := rfl
  rcases Int.emod_two_eq slot with heven | hodd
  · exact ⟨id, .view, by omega, by simp only [place]; omega⟩
  · exact ⟨id, .record, by omega, by simp only [place]; omega⟩

theorem decode?_eq_none : decode? address = none ↔ address < base ∨ address.val % 4 ≠ 0 ∨ isNull address = true := by
  have hbase : base.val = 0x40000000 := rfl
  constructor
  · intro hnone
    by_contra hrest
    simp only [not_or, not_not, Cell.lt_def, isNull, Bool.or_eq_true, beq_iff_eq, hbase] at hrest
    have hbehind : 0x40000004 < address.val := by omega
    obtain ⟨id, part, hid, haddress⟩ := exists_place hbehind (by omega)
    rw [decode?_eq_some.2 ⟨hid, haddress⟩] at hnone
    cases hnone
  · intro h
    refine Option.eq_none_iff_forall_ne_some.2 fun target hdecode => ?_
    obtain ⟨hid, haddress⟩ := decode?_eq_some.1 hdecode
    rcases h with hbelow | hunaligned | hnull
    · rw [decode?_of_lt hbelow] at hdecode
      cases hdecode
    · omega
    · rw [not_isNull_of_decode? hdecode] at hnull
      cases hnull

/-- Of a cell from the base on, everything that is computed on the way to a string is a cell. -/
theorem decodes_in_range (h : base ≤ address) :
    ∃ distance, address.sub? base = some distance ∧ 0 ≤ distance.val ∧
      ∃ raw, Cell.ofInt? (distance.val / 4 / 2) = some raw := by
  have hbase : base.val = 0x40000000 := rfl
  have hupper := address.upper
  rw [Cell.le_def] at h
  exact ⟨⟨address.val - base.val, by omega, by omega⟩, Cell.ofInt?_eq_some.2 rfl, by dsimp only; omega,
    ⟨(address.val - base.val) / 4 / 2, by omega, by omega⟩, Cell.ofInt?_eq_some.2 rfl⟩

/-- Neither the null string nor any other has an address that leads into memory. -/
theorem resolvePlain_beyond {σ : Type} {w : World σ} {i : InstanceId} {a : Instance} (ha : w.instance? i = some a)
    (hsize : 4 * a.memory.length ≤ 0x40000000) (h : isNull address = true ∨ (decode? address).isSome) :
    Act.resolvePlain i address w = some (.error .memoryAccess, w) := by
  have hbeyond : 0x40000000 ≤ address.val := by
    rcases h with hnull | hdecode
    · exact le_of_isNull hnull
    · obtain ⟨target, hdecode⟩ := Option.isSome_iff_exists.1 hdecode
      exact Int.le_of_lt (Int.lt_trans (by decide) (lt_of_decode? hdecode))
  rw [Instance.resolvePlain_eq ha, Instance.place, Instance.cellIndex?_eq_none hsize hbeyond]

/-! ## Both ways -/

/-- What a pool gives as the address of a string that is not the null string, it reads as the address of that string. -/
theorem decode?_of_given {p q : Pool} {i : InstanceId} (hid : id.isNull = false)
    (h : p.perform (.bind i id part) = (.ok address, q)) : decode? address = some (id, part) := by
  by_cases hgives : p.contains id = true ∧ ∃ address, encode id part = some address
  · obtain ⟨hc, given, hgiven⟩ := hgives
    rw [Pool.perform_bind hc hgiven] at h
    cases h
    exact decode?_of_encode (Pool.one_le_of_contains hc) hgiven
  · obtain ⟨error, herror⟩ := Pool.perform_bind_refused (i := i) hid hgives
    rw [herror] at h
    cases h

/-- What is known of addresses and the strings they belong to. -/
structure Law : Prop where
  /-- A string has an address exactly if its number is not too large, and the address is what it would be if numbers had no
  bounds. -/
  given : ∀ {id part}, 1 ≤ id.raw.val → ((encode id part).isSome ↔ id.raw.val ≤ lastId)
  exact : ∀ {id part address}, 1 ≤ id.raw.val → encode id part = some address →
    address.val = base.val + 4 * (2 * id.raw.val + (offset part).val)
  /-- It is the address of a cell, and lies behind those of the null string. -/
  aligned : ∀ {id part address}, 1 ≤ id.raw.val → encode id part = some address → address.val % 4 = 0
  behind : ∀ {id part address null}, 1 ≤ id.raw.val → encode id part = some address → isNull null = true → null < address
  /-- The record lies one cell behind the view. -/
  neighbours : ∀ {id view}, 1 ≤ id.raw.val → encode id .view = some view →
    ∃ record, view.add? Cell.bytes = some record ∧ encode id .record = some record
  /-- The address is read as what it was made from, so it is made from nothing else. -/
  read : ∀ {id part address}, 1 ≤ id.raw.val → encode id part = some address → decode? address = some (id, part)
  apart : ∀ {id part other otherPart address}, 1 ≤ id.raw.val → 1 ≤ other.raw.val →
    encode id part = some address → encode other otherPart = some address → other = id ∧ otherPart = part
  /-- What a cell is read as, it is made from; and the cells that are read as nothing are those below the base, those
  between two cells and those of the null string. Every other cell is read without going beyond a cell on the way. -/
  made : ∀ {id part address}, decode? address = some (id, part) → 1 ≤ id.raw.val ∧ encode id part = some address
  unread : ∀ {address}, decode? address = none ↔ address < base ∨ address.val % 4 ≠ 0 ∨ isNull address = true
  inRange : ∀ {address}, base ≤ address → ∃ distance, address.sub? base = some distance ∧ 0 ≤ distance.val ∧
    ∃ raw, Cell.ofInt? (distance.val / 4 / 2) = some raw
  exclusive : ∀ {address}, ¬ (isNull address = true ∧ (decode? address).isSome)
  /-- What any pool gives as the address of a part of a string is no address of the null string, and is read as the address
  of that part of that string alone. -/
  unmistaken : ∀ {p q : Pool} {i id part address}, id.isNull = false →
    p.perform (.bind i id part) = (.ok address, q) → isNull address = false ∧ decode? address = some (id, part)
  distinct : ∀ {p q p' q' : Pool} {i j id part other otherPart address}, id.isNull = false → other.isNull = false →
    p.perform (.bind i id part) = (.ok address, q) → p'.perform (.bind j other otherPart) = (.ok address, q') →
    other = id ∧ otherPart = part
  /-- No address of a pooled string, nor of the null string, leads into the memory of an instance that ends below the base. -/
  beyond : ∀ {address}, isNull address = true ∨ (decode? address).isSome → ∀ {σ : Type} {w : World σ} {i a},
    w.instance? i = some a → 4 * a.memory.length ≤ 0x40000000 →
      Act.resolvePlain i address w = some (.error .memoryAccess, w)

/-- **Addresses and strings.** An address belongs to one part of one string, and a string has the addresses that belong to
it and no others. -/
theorem told_apart : Law where
  given := isSome_encode
  exact := val_of_encode
  aligned hid h := by
    have hvalue := (encode_eq_some hid).1 h
    omega
  behind hid h hnull := lt_of_isNull hnull (decode?_of_encode hid h)
  neighbours := encode_record
  read := decode?_of_encode
  apart hid hother h h' := by
    have hread := decode?_of_encode hid h
    rw [decode?_of_encode hother h'] at hread
    exact Prod.mk.inj (Option.some.inj hread)
  made h := ⟨(decode?_eq_some.1 h).1, encode_of_decode? h⟩
  unread := decode?_eq_none
  inRange := decodes_in_range
  exclusive := by
    rintro address ⟨hnull, hdecode⟩
    rw [decode?_eq_none.2 (.inr (.inr hnull))] at hdecode
    cases hdecode
  unmistaken hid h :=
    have hread := decode?_of_given hid h
    ⟨not_isNull_of_decode? hread, hread⟩
  distinct hid hother h h' := by
    have hread := decode?_of_given hid h
    rw [decode?_of_given hother h'] at hread
    exact Prod.mk.inj (Option.some.inj hread)
  beyond h _ _ _ _ ha hsize := resolvePlain_beyond ha hsize h

/-- The last cell of all is that of the last record. -/
example : encode ⟨⟨0x07FFFFFF, by decide, by decide⟩⟩ .record = some ⟨0x7FFFFFFC, by decide, by decide⟩ := by decide

end Address

end Interpose

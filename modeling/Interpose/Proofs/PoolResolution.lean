import Interpose.Proofs.PoolHistory

/-!
# Where addresses lead

The number of a string is given away again after the string has ended, and with the number its two addresses. An instance
that bound an address of the old string must not reach the new one through it. The pool keeps no generation with an
address: it is enough that the end of a string takes its addresses from everybody. So an address that an instance has
bound was bound in the life of the string that it leads to.

Main statement: `resolutions`, which addresses lead which instances where, after any operations.
-/

namespace Interpose

namespace Pool

variable {p q r : Pool} {i j : InstanceId} {id : StringId} {part : Part} {address : Cell} {o : Life} {ls : List Life}

namespace Step

/-- Whether an instance was given the address of a part of a string. -/
def binds (i : InstanceId) (id : StringId) (part : Part) : Step → Bool
  | ⟨.bind j target asked, .ok _⟩ => j = i && target = id && asked = part
  | _ => false

/-- Whether an instance forgot its addresses. -/
def forgets (i : InstanceId) : Step → Bool
  | ⟨.forget j, _⟩ => j = i
  | _ => false

end Step

/-- Whether an instance was given the address of a part of the string in its life, and since it last forgot its
addresses. -/
def Life.BoundBy (o : Life) (i : InstanceId) (part : Part) : Prop :=
  ∃ before s later, o.since = before ++ s :: later ∧ s.binds i o.id part = true ∧ ∀ t ∈ later, t.forgets i = false

theorem Life.boundBy_through (o : Life) (s : Step) :
    (o.through [s]).BoundBy i part ↔ s.binds i o.id part = true ∨ o.BoundBy i part ∧ s.forgets i = false := by
  constructor
  · rintro ⟨before, t, later, hsplit, hbinds, hlater⟩
    -- the step that gave the address is the last one, or one before it
    rcases List.eq_nil_or_concat later with rfl | ⟨later, u, rfl⟩
    · obtain ⟨-, hlast⟩ := List.append_inj' hsplit rfl
      obtain rfl : s = t := List.singleton_inj.1 hlast
      exact .inl hbinds
    · have hconcat : o.since ++ [s] = (before ++ t :: later) ++ [u] := by simpa [through] using hsplit
      obtain ⟨hsince, hlast⟩ := List.append_inj' hconcat rfl
      obtain rfl : s = u := List.singleton_inj.1 hlast
      exact .inr ⟨⟨before, t, later, hsince, hbinds, fun v hv => hlater v (by simp [hv])⟩, hlater s (by simp)⟩
  · rintro (hbinds | ⟨⟨before, t, later, hsince, hbinds, hlater⟩, hforgets⟩)
    · exact ⟨o.since, s, [], rfl, hbinds, by simp⟩
    · refine ⟨before, t, later ++ [s], by simp [through, hsince], hbinds, fun v hv => ?_⟩
      rcases List.mem_append.1 hv with hv | hv
      · exact hlater v hv
      · rw [List.mem_singleton.1 hv]
        exact hforgets

theorem Life.not_boundBy_of_nil (h : o.since = []) : ¬ o.BoundBy i part := by
  rintro ⟨before, s, later, hsplit, -⟩
  simp [h] at hsplit

/-! ## One step -/

/-- An address belongs to one part of one string. -/
theorem encode_eq_iff (haddress : Address.decode? address = some (id, part)) {target : StringId} {asked : Part}
    (hc : p.contains target = true) :
    Address.encode target asked = some address ↔ target = id ∧ asked = part := by
  constructor
  · intro h
    have hdecode := Address.decode?_of_encode (one_le_of_contains hc) h
    rw [haddress] at hdecode
    obtain ⟨rfl, rfl⟩ := Prod.mk.inj (Option.some.inj hdecode)
    exact ⟨rfl, rfl⟩
  · rintro ⟨rfl, rfl⟩
    exact Address.encode_of_decode? haddress

/-- A step binds an address if the string is there. -/
theorem binds_step_bind (haddress : Address.decode? address = some (id, part)) (target : StringId) (asked : Part) :
    (p.step (.bind j target asked)).binds i id part = true ↔
      i = j ∧ p.contains target = true ∧ Address.encode target asked = some address := by
  have hid : id.isNull = false := by
    have hpositive := (Address.decode?_eq_some.1 haddress).1
    rw [StringId.isNull, beq_eq_false_iff_ne]
    intro hzero
    rw [hzero] at hpositive
    exact absurd hpositive (by decide)
  by_cases h : p.contains target = true ∧ ∃ other, Address.encode target asked = some other
  · obtain ⟨hc, other, hother⟩ := h
    rw [step_eq (perform_bind hc hother), encode_eq_iff haddress hc]
    simp [Step.binds, hc, and_assoc, @eq_comm _ i j]
  · -- neither the null string nor a string that is not there has an address that is bound
    have hnot : ¬ (i = j ∧ p.contains target = true ∧ Address.encode target asked = some address) :=
      fun hall => h ⟨hall.2.1, address, hall.2.2⟩
    cases hnull : target.isNull with
    | true =>
      have hne : target ≠ id := by
        rintro rfl
        rw [hid] at hnull
        cases hnull
      rw [step_eq (perform_bind_null hnull)]
      simp [Step.binds, hne, hnot]
    | false =>
      obtain ⟨error, herror⟩ := perform_bind_refused hnull h
      rw [step_eq herror]
      simp [Step.binds, hnot]

theorem contains_of_binds {a : Action} (haddress : Address.decode? address = some (id, part))
    (h : (p.step a).binds i id part = true) : p.contains id = true ∧ (p.perform a).2.contains id = true := by
  cases a with
  | bind j target asked =>
    obtain ⟨-, hc, hencode⟩ := (binds_step_bind haddress target asked).1 h
    obtain ⟨rfl, rfl⟩ := (encode_eq_iff haddress hc).1 hencode
    refine ⟨hc, ?_⟩
    rw [contains, (p.alike_bind j target asked).entry?_eq]
    exact hc
  | _ => cases h

/-- A step other than binding and forgetting does neither for any instance. -/
theorem binds_of_not_binds {a : Action} (h : a.binds = false) (p : Pool) : (p.step a).binds i id part = false := by
  cases a with
  | bind j target asked => cases h
  | _ => rfl

theorem forgets_of_not_binds {a : Action} (h : a.binds = false) (p : Pool) : (p.step a).forgets i = false := by
  cases a with
  | forget j => cases h
  | _ => rfl

/-- Which addresses are bound after a step: those that it binds; and those that were bound, unless the step forgets them
or ends the string. -/
theorem isBound_perform (p : Pool) (a : Action) (haddress : Address.decode? address = some (id, part)) :
    (p.perform a).2.isBound i address = true ↔
      (p.step a).binds i id part = true ∨
        p.isBound i address = true ∧ (p.step a).forgets i = false ∧
          (p.contains id = true → (p.perform a).2.contains id = true) := by
  cases hbinds : a.binds with
  | true =>
    -- binding and forgetting end no string
    have hcontains : (p.perform a).2.contains id = p.contains id := by
      rw [contains, (p.alike_of_binds hbinds).entry?_eq, contains]
    rw [hcontains]
    cases a with
    | bind j target asked =>
      have hforgets : (p.step (.bind j target asked)).forgets i = false := rfl
      rw [isBound_bind, binds_step_bind haddress, hforgets]
      simp [or_comm]
    | forget j =>
      have hstep : (p.step (.forget j)).binds i id part = false := rfl
      have hforgets : (p.step (.forget j)).forgets i = decide (j = i) := rfl
      rw [isBound_forget, hstep, hforgets]
      simp [@eq_comm _ i j]
    | _ => cases hbinds
  | false =>
    rw [binds_of_not_binds hbinds, forgets_of_not_binds hbinds]
    cases hadds : a.adds? with
    | some e =>
      -- adding a string touches no address, and ends no string
      have hbindings : (p.perform a).2.bindings = p.bindings := by
        rw [perform_adds hadds, bindings_insert]
      have hstill : p.contains id = true → (p.perform a).2.contains id = true := by
        intro hc
        rw [perform_adds hadds]
        exact contains_insert e hc
      rw [isBound_of_bindings hbindings]
      simpa using fun _ => hstill
    | none =>
      -- whatever else is done, exactly the addresses of the strings that end are taken away
      have hpurges := (p.change_perform hadds hbinds).purges
      rw [hpurges.isBound]
      constructor
      · rintro ⟨hbound, hstill⟩
        exact .inr ⟨hbound, rfl, hstill id part (Address.encode_of_decode? haddress)⟩
      · rintro (hfalse | ⟨hbound, -, hstill⟩)
        · cases hfalse
        · refine ⟨hbound, fun target asked hencode hc => ?_⟩
          obtain ⟨rfl, rfl⟩ := (encode_eq_iff haddress hc).1 hencode
          exact hstill hc

/-! ## Every history -/

/-- The addresses that an instance has bound stay the ones that it was given in the lives of their strings. -/
theorem Agrees.isBound_perform (h : Agrees p ls) {a : Action} (hroom : ((p.step a).leaves ls).length ≤ mostStrings)
    (haddress : Address.decode? address = some (id, part))
    (hbound : p.isBound i address = true ↔ ∃ o ∈ ls, o.id = id ∧ o.BoundBy i part) :
    (p.perform a).2.isBound i address = true ↔ ∃ o ∈ (p.step a).leaves ls, o.id = id ∧ o.BoundBy i part := by
  have hlive := h.room hroom
  -- a life whose string is still there went on
  have hgoes : ∀ {o}, o ∈ ls → (p.perform a).2.contains o.id = true → o.through [p.step a] ∈ (p.step a).leaves ls :=
    fun ho hstill => Step.mem_leaves.2 (.inl ⟨_, ho, (h.contains_perform hlive ho).1 hstill, rfl⟩)
  rw [Pool.isBound_perform p a haddress, hbound]
  constructor
  · rintro (hbinds | ⟨⟨o, ho, rfl, hsince⟩, hforgets, hstill⟩)
    · obtain ⟨hc, hstill⟩ := contains_of_binds haddress hbinds
      obtain ⟨o, ho, rfl⟩ := h.listed id hc
      exact ⟨_, hgoes ho hstill, rfl, (o.boundBy_through _).2 (.inl hbinds)⟩
    · have hc := hstill (h.contains_iff.2 ⟨o, ho, rfl⟩)
      exact ⟨_, hgoes ho hc, rfl, (o.boundBy_through _).2 (.inr ⟨hsince, hforgets⟩)⟩
  · rintro ⟨o', ho', rfl, hsince⟩
    rcases Step.mem_leaves.1 ho' with ⟨o, ho, hends, rfl⟩ | hbegins
    · rcases (o.boundBy_through _).1 hsince with hbinds | ⟨hsince, hforgets⟩
      · exact .inl hbinds
      · exact .inr ⟨⟨o, ho, rfl, hsince⟩, hforgets, fun _ => (h.contains_perform hlive ho).2 hends⟩
    · -- nothing has happened yet in a life that just began
      exact absurd hsince (Life.not_boundBy_of_nil (since_of_begins hbegins))

theorem Fits.isBound {actions : List Action} (h : Fits actions) (haddress : Address.decode? address = some (id, part)) :
    (empty.after actions).isBound i address = true ↔
      ∃ o ∈ lives (empty.history actions), o.id = id ∧ o.BoundBy i part := by
  -- by the last operation, with the pool and the lives before it in agreement
  induction actions using List.reverseRecOn with
  | nil =>
    have hnone : empty.isBound i address = false := rfl
    simp [after, history, lives, hnone]
  | append_singleton actions a ih =>
    have hearlier := h.of_prefix (List.prefix_append actions [a])
    have hroom := h _ List.prefix_rfl
    rw [lives_history_concat] at hroom ⊢
    rw [after_concat]
    exact hearlier.agrees.isBound_perform hroom haddress (ih hearlier)

theorem resolve?_eq_some :
    p.resolve? i address = some (id, part) ↔
      Address.decode? address = some (id, part) ∧ p.isBound i address = true ∧ p.contains id = true := by
  rw [resolve?, Option.bind_eq_some_iff]
  constructor
  · rintro ⟨target, hdecode, h⟩
    split at h
    · rename_i hboth
      obtain rfl := Option.some.inj h
      exact ⟨hdecode, hboth⟩
    · cases h
  · rintro ⟨hdecode, hboth⟩
    exact ⟨(id, part), hdecode, if_pos hboth⟩

/-! ## What others do -/

/-- Whether an operation is no business of other instances only. -/
def Action.concerns (i : InstanceId) : Action → Bool
  | .bind j _ _ => j = i
  | .forget j => j = i
  | _ => true

/-- Two pools that are the same for an instance. -/
structure AlikeFor (i : InstanceId) (p q : Pool) : Prop where
  alike : p.Alike q
  isBound : ∀ address, q.isBound i address = true ↔ p.isBound i address = true

namespace AlikeFor

theorem resolve?_eq (h : AlikeFor i p q) (address : Cell) : q.resolve? i address = p.resolve? i address := by
  rw [resolve?, resolve?]
  simp only [h.isBound, h.alike.contains_eq]

/-- An operation that is the business of others goes unnoticed. -/
theorem perform_others (h : AlikeFor i p q) {a : Action} (ha : a.concerns i = false) : AlikeFor i (p.perform a).2 q := by
  cases a with
  | bind j target asked =>
    have hj : i ≠ j := fun hsame => by simp [Action.concerns, hsame] at ha
    refine ⟨(p.alike_bind j target asked).symm.trans h.alike, fun address => ?_⟩
    rw [h.isBound, isBound_bind]
    simp [hj]
  | forget j =>
    have hj : i ≠ j := fun hsame => by simp [Action.concerns, hsame] at ha
    refine ⟨(p.alike_forget j).symm.trans h.alike, fun address => ?_⟩
    rw [h.isBound, isBound_forget]
    simp [hj]
  | _ => cases ha

theorem perform (h : AlikeFor i p q) (a : Action) : AlikeFor i (p.perform a).2 (q.perform a).2 := by
  have halike := h.alike.perform a
  refine ⟨halike, fun address => ?_⟩
  cases hbinds : a.binds with
  | true =>
    cases a with
    | bind j target asked => rw [isBound_bind, isBound_bind, h.isBound, h.alike.contains_eq]
    | forget j => rw [isBound_forget, isBound_forget, h.isBound]
    | _ => cases hbinds
  | false =>
    cases hadds : a.adds? with
    | some e =>
      rw [perform_adds hadds, perform_adds hadds, isBound_of_bindings (bindings_insert q e),
        isBound_of_bindings (bindings_insert p e), h.isBound]
    | none =>
      rw [(q.change_perform hadds hbinds).purges.isBound, (p.change_perform hadds hbinds).purges.isBound, h.isBound]
      simp only [h.alike.contains_eq, halike.contains_eq]

theorem after (h : AlikeFor i p q) (actions : List Action) :
    AlikeFor i (p.after actions) (q.after (actions.filter (Action.concerns i))) := by
  induction actions generalizing p q with
  | nil => exact h
  | cons a actions ih =>
    cases ha : a.concerns i with
    | true =>
      rw [List.filter_cons_of_pos ha]
      exact ih (h.perform a)
    | false =>
      rw [List.filter_cons_of_neg (by simp [ha])]
      exact ih (h.perform_others ha)

end AlikeFor

/-! ## The law -/

/-- What is known of the addresses of a pool after operations, by their history. -/
structure ResolutionLaw (actions : List Action) : Prop where
  /-- An address leads an instance to the string to whose number it belongs, if it was given to the instance in the life
  of this very string and not forgotten since. -/
  leads : ∀ i address id part, (empty.after actions).resolve? i address = some (id, part) ↔
    Address.decode? address = some (id, part) ∧
      ∃ o ∈ lives (empty.history actions), o.id = id ∧ o.BoundBy i part ∧
        (empty.after actions).get? id = some o.string
  /-- A string that was added leads nobody to it before he is given an address of it, whatever he was given before. -/
  stale : ∀ before s later o, empty.history actions = before ++ s :: later → s.begins? = some o →
    o.survives later = true → ∀ i part, (∀ t ∈ later, t.binds i o.id part = false) →
      ∀ address, (empty.after actions).resolve? i address ≠ some (o.id, part)
  /-- What the others bind and forget makes no difference. -/
  others : ∀ i address, (empty.after (actions.filter (Action.concerns i))).resolve? i address =
    (empty.after actions).resolve? i address

/-- Whatever is done with a pool, as long as there are numbers for its strings. -/
theorem resolutions (actions : List Action) (h : Fits actions) : ResolutionLaw actions := by
  have hagrees := h.agrees
  have hleads : ∀ i address id part, (empty.after actions).resolve? i address = some (id, part) ↔
      Address.decode? address = some (id, part) ∧
        ∃ o ∈ lives (empty.history actions), o.id = id ∧ o.BoundBy i part ∧
          (empty.after actions).get? id = some o.string := by
    intro i address id part
    rw [resolve?_eq_some]
    constructor
    · rintro ⟨hdecode, hbound, -⟩
      obtain ⟨o, ho, rfl, hsince⟩ := (h.isBound hdecode).1 hbound
      exact ⟨hdecode, o, ho, rfl, hsince, by rw [get?, hagrees.entry o ho]; rfl⟩
    · rintro ⟨hdecode, o, ho, rfl, hsince, -⟩
      exact ⟨hdecode, (h.isBound hdecode).2 ⟨o, ho, rfl, hsince⟩, hagrees.contains_iff.2 ⟨o, ho, rfl⟩⟩
  refine ⟨hleads, fun before s later o hsplit hbegins hsurvives i part hlater address hresolve => ?_,
    fun i address => ?_⟩
  · obtain ⟨-, o', ho', hid, ⟨earlier, t, rest, hsince, hbinds, -⟩, -⟩ := (hleads i address o.id part).1 hresolve
    -- there is only one string with this number
    have ho : o.through later ∈ lives (empty.history actions) := hsplit ▸ mem_lives hbegins hsurvives
    obtain rfl : o' = o.through later := List.inj_on_of_nodup_map hagrees.nodup ho' ho hid
    have ht : t ∈ later := by
      have hmem : t ∈ (o.through later).since := hsince ▸ List.mem_append_right earlier List.mem_cons_self
      rwa [Life.through, since_of_begins hbegins, List.nil_append] at hmem
    have hnot : t.binds i o.id part = false := hlater t ht
    rw [show t.binds i o.id part = true from hbinds] at hnot
    cases hnot
  · exact (AlikeFor.after ⟨.refl empty, fun _ => Iff.rfl⟩ actions).resolve?_eq address

/-- An instance binds an address; the string ends, and another one gets its number, of which a second instance binds the
record. -/
def rebinding : List Action :=
  [.add (.ofCells [1]), .bind ⟨0⟩ ⟨1⟩ .view, .remove ⟨1⟩, .addPinned (.ofCells [2]), .bind ⟨1⟩ ⟨1⟩ .record]

theorem resolutions_rebinding :
    Fits rebinding ∧
      (empty.after rebinding).resolve? ⟨0⟩ ⟨0x40000008, by decide, by decide⟩ = none ∧
        (empty.after rebinding).resolve? ⟨1⟩ ⟨0x4000000C, by decide, by decide⟩ = some (⟨1⟩, .record) ∧
          ResolutionLaw rebinding :=
  have hfits : Fits rebinding := fits_of_length (by decide)
  ⟨hfits, by decide +kernel, by decide +kernel, resolutions rebinding hfits⟩

end Pool

end Interpose

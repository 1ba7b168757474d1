import Interpose.Proofs.HookHistory
import Interpose.Proofs.Hooks

/-!
# Several layers on one table

Each hook writes back the entry that it found when it was made, and believes its own flag. With one layer nothing can go
wrong with that. With several layers on one table it depends on the order: a layer that is switched off while another one
is above it takes that one out of the slot as well, though its flag says that it is there; and a layer that is switched
off last may write back the detour of a layer that was switched off before.

So the hooks of an export are said to be *in order* if every hook that says so is really reached from the slot, and the
slot holds the machine's own entry once all of them are off (`Rack.InOrder`). They are in order as long as they are
switched *in turn*, as things are put on a stack and taken off it again (`Rack.InTurn`), and from the first switch out of
turn on they are not.

Main statement: `inOrder_iff_inTurn`, for all sequences of what the owners of layers do.
-/

namespace Interpose

variable {σ α : Type}

/-! ## The hooks of one export -/

/-- The slot of an export, and the hooks that the layers have for it. -/
structure Rack where
  slot : Entry
  hooks : SubsystemId → Option Hook

namespace Rack

/-- The slot leads to a hook: it holds its detour, or the detour of a hook that is attached and goes on, from one to the
next in this way, to the entry that is the hook's detour. -/
inductive InForce (r : Rack) : SubsystemId → Prop
  | top {k : SubsystemId} {h : Hook} (hk : r.hooks k = some h) (hslot : r.slot = h.detour) : InForce r k
  | kept {k l : SubsystemId} {h g : Hook} (hk : r.hooks k = some h) (hl : r.hooks l = some g)
      (hin : g.attached = true) (hforce : InForce r l) (hkept : g.replaced = h.detour) : InForce r k

/-- No hook says that it is in the slot. -/
def Bare (r : Rack) : Prop :=
  ∀ k h, r.hooks k = some h → h.attached = false

/-- What the flags of the hooks say is so, and no detour is left behind by hooks that are all out of the slot. -/
structure InOrder (r : Rack) : Prop where
  truthful : ∀ k h, r.hooks k = some h → h.attached = true → r.InForce k
  reversible : r.Bare → r.slot = .plain

/-- Whether a hook can be switched without leaving the others behind: on, if nothing is attached or what is in the slot
was there when the hook was made; off, if its detour is in the slot and what it writes back belongs to a hook that is
attached, or to nobody. A switch that changes nothing is always in turn. -/
def InTurn (r : Rack) (k : SubsystemId) (on : Bool) : Prop :=
  ∀ h, r.hooks k = some h → h.attached ≠ on →
    if on then r.Bare ∨ r.slot = h.replaced
    else r.slot = h.detour ∧ (h.replaced = .plain ∨ ∃ l g, l ≠ k ∧ r.hooks l = some g ∧ g.attached = true)

/-- Puts a hook and what its slot holds in the place of those that are there. -/
def put (r : Rack) (k : SubsystemId) (m : Mount) : Rack where
  slot := m.slot
  hooks l := if l = k then some m.hook else r.hooks l

/-- The hooks after one of them was switched. -/
def toggle (r : Rack) (k : SubsystemId) (on : Bool) : Rack :=
  match r.hooks k with
  | some h => r.put k (Mount.toggle ⟨h, r.slot⟩ on).2
  | none => r

/-- The hooks after a layer was made. -/
def add (r : Rack) (k : SubsystemId) : Rack :=
  r.put k ⟨.new k r.slot, r.slot⟩

/-- An entry of the machine's own, or the detour of one of certain hooks. -/
def Knows (r : Rack) (known : SubsystemId → Prop) (e : Entry) : Prop :=
  e = .plain ∨ ∃ l g, known l ∧ r.hooks l = some g ∧ e = g.detour

/-- Hooks that were made one after another over what was in the slot then. -/
structure Stacked (r : Rack) : Prop where
  detour : ∀ k h, r.hooks k = some h → h.detour = .detour k h.replaced
  replaced : ∀ k h, r.hooks k = some h → r.Knows (fun l => l.index < k.index) h.replaced
  slot : r.Knows (fun _ => True) r.slot

variable {r : Rack} {k : SubsystemId} {h : Hook}

theorem put_self (r : Rack) (k : SubsystemId) (m : Mount) : (r.put k m).hooks k = some m.hook :=
  if_pos rfl

theorem put_other (r : Rack) (m : Mount) {l : SubsystemId} (hl : l ≠ k) : (r.put k m).hooks l = r.hooks l :=
  if_neg hl

/-- A hook that is there afterwards is the one that was put there, or another one that was there before. -/
theorem of_put {m : Mount} {l : SubsystemId} {g : Hook} (hl : (r.put k m).hooks l = some g) :
    l = k ∧ g = m.hook ∨ l ≠ k ∧ r.hooks l = some g := by
  by_cases hlk : l = k
  · subst hlk
    rw [put_self] at hl
    exact .inl ⟨rfl, (Option.some.inj hl).symm⟩
  · exact .inr ⟨hlk, (put_other r m hlk).symm.trans hl⟩

/-- No two hooks have one detour. -/
theorem Stacked.eq_of_detour (hr : r.Stacked) (hk : r.hooks k = some h) {l : SubsystemId} {g : Hook}
    (hl : r.hooks l = some g) (he : h.detour = g.detour) : k = l := by
  rw [hr.detour k h hk, hr.detour l g hl] at he
  exact (Entry.detour.inj he).1

/-- A hook lies above those whose detours it goes on to. -/
theorem Stacked.lt_of_replaced (hr : r.Stacked) (hk : r.hooks k = some h) {l : SubsystemId} {g : Hook}
    (hl : r.hooks l = some g) (he : g.replaced = h.detour) : k.index < l.index := by
  rcases hr.replaced l g hl with hplain | ⟨j, f, hlt, hj, hreplaced⟩
  · rw [he, hr.detour k h hk] at hplain
    cases hplain
  · have hjk : k = j := hr.eq_of_detour hk hj (he.symm.trans hreplaced)
    rw [hjk]
    exact hlt

/-- Where a hook is in force, the detour of a hook is in the slot. -/
theorem InForce.slot (hforce : r.InForce k) : ∃ t f, r.hooks t = some f ∧ r.slot = f.detour := by
  induction hforce with
  | top hk hslot => exact ⟨_, _, hk, hslot⟩
  | kept _ _ _ _ _ ih => exact ih

/-- Where an attached hook is in force, the detour of an attached hook is in the slot, and it lies above all such
hooks. -/
theorem InForce.exists_top (hforce : r.InForce k) (hr : r.Stacked) (hk : r.hooks k = some h)
    (ha : h.attached = true) :
    ∃ t f, r.hooks t = some f ∧ f.attached = true ∧ r.slot = f.detour ∧ k.index ≤ t.index := by
  induction hforce generalizing h with
  | top hk' hslot =>
    rw [hk] at hk'
    cases hk'
    exact ⟨_, _, hk, ha, hslot, Nat.le_refl _⟩
  | kept hk' hl hin _ hkept ih =>
    obtain ⟨t, f, ht, hf, hslot, hle⟩ := ih hl hin
    exact ⟨t, f, ht, hf, hslot, Nat.le_of_lt (Nat.lt_of_lt_of_le (hr.lt_of_replaced hk' hl hkept) hle)⟩

/-- While hooks are in order, no attached hook lies above the one in the slot. -/
theorem InOrder.le_top (ho : r.InOrder) (hr : r.Stacked) {t : SubsystemId} {f : Hook} (ht : r.hooks t = some f)
    (hslot : r.slot = f.detour) (hk : r.hooks k = some h) (ha : h.attached = true) : k.index ≤ t.index := by
  obtain ⟨t', f', ht', -, hslot', hle⟩ := (ho.truthful k h hk ha).exists_top hr hk ha
  have htt : t = t' := hr.eq_of_detour ht ht' (hslot.symm.trans hslot')
  rw [htt]
  exact hle

/-! ## Switching -/

/-- A switch of a hook that changes nothing but whether it is wanted. -/
theorem toggle_idle {on : Bool} (hk : r.hooks k = some h) (ha : h.attached = on) :
    r.toggle k on = r.put k ⟨{ h with wanted := on }, r.slot⟩ := by
  unfold toggle
  rw [hk]
  cases on with
  | true => simp [Mount.toggle, Mount.install, Mount.attach, ha]
  | false => simp [Mount.toggle, Mount.remove, Mount.detach, ha]

/-- A hook that is switched on writes its detour, one that is switched off what it replaced. -/
theorem toggle_moves {on : Bool} (hk : r.hooks k = some h) (ha : h.attached ≠ on) :
    r.toggle k on = r.put k ⟨{ h with wanted := on, attached := on }, if on then h.detour else h.replaced⟩ := by
  unfold toggle
  rw [hk]
  cases on with
  | true => simp [Mount.toggle, Mount.install, Mount.attach, ha]
  | false => simp [Mount.toggle, Mount.remove, Mount.detach, ha]

/-- What is known before a hook changes is known afterwards, as long as the hook keeps its detour. -/
theorem Knows.put {known : SubsystemId → Prop} {e : Entry} (he : r.Knows known e) (hk : r.hooks k = some h)
    {m : Mount} (hm : m.hook.detour = h.detour) : (r.put k m).Knows known e := by
  rcases he with hplain | ⟨l, g, hknown, hl, heq⟩
  · exact .inl hplain
  · by_cases hlk : l = k
    · subst hlk
      rw [hk] at hl
      cases hl
      exact .inr ⟨l, m.hook, hknown, put_self .., heq.trans hm.symm⟩
    · exact .inr ⟨l, g, hknown, (put_other r m hlk).trans hl, heq⟩

theorem Knows.mono {known known' : SubsystemId → Prop} {e : Entry} (he : r.Knows known e)
    (h : ∀ l, known l → known' l) : r.Knows known' e := by
  rcases he with hplain | ⟨l, g, hl, hg, heq⟩
  · exact .inl hplain
  · exact .inr ⟨l, g, h l hl, hg, heq⟩

theorem Stacked.put (hr : r.Stacked) (hk : r.hooks k = some h) {m : Mount} (hdetour : m.hook.detour = h.detour)
    (hreplaced : m.hook.replaced = h.replaced) (hslot : r.Knows (fun _ => True) m.slot) : (r.put k m).Stacked where
  detour l g hl := by
    rcases of_put hl with ⟨rfl, rfl⟩ | ⟨-, hl⟩
    · rw [hdetour, hreplaced]
      exact hr.detour l h hk
    · exact hr.detour l g hl
  replaced l g hl := by
    refine Knows.put ?_ hk hdetour
    rcases of_put hl with ⟨rfl, rfl⟩ | ⟨-, hl⟩
    · rw [hreplaced]
      exact hr.replaced l h hk
    · exact hr.replaced l g hl
  slot := hslot.put hk hdetour

/-- The step lemma of a switch. -/
theorem Stacked.toggle (hr : r.Stacked) (k : SubsystemId) (on : Bool) : (r.toggle k on).Stacked := by
  cases hk : r.hooks k with
  | none =>
    unfold Rack.toggle
    rw [hk]
    exact hr
  | some h =>
    by_cases ha : h.attached = on
    · rw [toggle_idle hk ha]
      exact hr.put hk rfl rfl hr.slot
    · rw [toggle_moves hk ha]
      refine hr.put hk rfl rfl ?_
      -- a hook writes its own detour, or what it found
      cases on with
      | true => exact .inr ⟨k, h, trivial, hk, rfl⟩
      | false => exact (hr.replaced k h hk).mono fun _ _ => trivial

/-- Changing a hook that keeps its detour, its original and its flag, and leaves the slot, changes nothing for the
others. -/
theorem InForce.put_idle {l : SubsystemId} (hforce : r.InForce l) (hk : r.hooks k = some h) {m : Mount}
    (hdetour : m.hook.detour = h.detour) (hreplaced : m.hook.replaced = h.replaced)
    (ha : m.hook.attached = h.attached) (hslot : m.slot = r.slot) : (r.put k m).InForce l := by
  -- what stands for a hook after the change
  have hafter : ∀ {j f}, r.hooks j = some f → ∃ f', (r.put k m).hooks j = some f' ∧ f'.detour = f.detour ∧
      f'.replaced = f.replaced ∧ f'.attached = f.attached := by
    intro j f hj
    by_cases hjk : j = k
    · subst hjk
      rw [hk] at hj
      cases hj
      exact ⟨m.hook, put_self .., hdetour, hreplaced, ha⟩
    · exact ⟨f, (put_other r m hjk).trans hj, rfl, rfl, rfl⟩
  induction hforce with
  | top hj htop =>
    obtain ⟨f, hf, hd, -, -⟩ := hafter hj
    exact .top hf (hslot.trans (htop.trans hd.symm))
  | kept hj hl hin _ hkept ih =>
    obtain ⟨f, hf, hd, -, -⟩ := hafter hj
    obtain ⟨g, hg, -, hr', ha'⟩ := hafter hl
    exact .kept hf hg (ha'.trans hin) ih (hr'.trans (hkept.trans hd.symm))

/-- A switch that changes nothing keeps hooks in order. -/
theorem InOrder.put_idle (ho : r.InOrder) (hk : r.hooks k = some h) {m : Mount} (hdetour : m.hook.detour = h.detour)
    (hreplaced : m.hook.replaced = h.replaced) (ha : m.hook.attached = h.attached) (hslot : m.slot = r.slot) :
    (r.put k m).InOrder where
  truthful l g hl hg := by
    rcases of_put hl with ⟨rfl, rfl⟩ | ⟨-, hl⟩
    · exact (ho.truthful l h hk (ha.symm.trans hg)).put_idle hk hdetour hreplaced ha hslot
    · exact (ho.truthful l g hl hg).put_idle hk hdetour hreplaced ha hslot
  reversible hbare := by
    refine hslot.trans (ho.reversible fun l g hl => ?_)
    by_cases hlk : l = k
    · subst hlk
      rw [hk] at hl
      cases hl
      exact ha.symm.trans (hbare l m.hook (put_self ..))
    · exact hbare l g ((put_other r m hlk).trans hl)

/-- The hooks after one that was out of the slot was switched on. -/
abbrev attached (r : Rack) (k : SubsystemId) (h : Hook) : Rack :=
  r.put k ⟨{ h with wanted := true, attached := true }, h.detour⟩

/-- The hooks after one that was in the slot was switched off. -/
abbrev detached (r : Rack) (k : SubsystemId) (h : Hook) : Rack :=
  r.put k ⟨{ h with wanted := false, attached := false }, h.replaced⟩

/-- A hook that is switched on goes on to what was in the slot if it found just that when it was made. -/
theorem InOrder.attached (ho : r.InOrder) (hk : r.hooks k = some h) (hout : h.attached = false)
    (hturn : r.Bare ∨ r.slot = h.replaced) : (r.attached k h).InOrder where
  truthful l g hl hg := by
    have htop : (r.attached k h).InForce k := .top (put_self ..) rfl
    rcases of_put hl with ⟨rfl, -⟩ | ⟨-, hl⟩
    · exact htop
    rcases hturn with hbare | hslot
    · rw [hbare l g hl] at hg
      cases hg
    · -- what was in force is so past the new hook
      have hpast : ∀ {j}, r.InForce j → (r.attached k h).InForce j := by
        intro j hforce
        induction hforce with
        | @top j f hj htop' =>
          by_cases hjk : j = k
          · rw [hjk]
            exact htop
          · exact .kept ((put_other r _ hjk).trans hj) (put_self ..) rfl htop (hslot.symm.trans htop')
        | @kept j m f f' hj hm hin _ hkept ih =>
          by_cases hjk : j = k
          · rw [hjk]
            exact htop
          · have hmk : m ≠ k := by
              rintro rfl
              rw [hk] at hm
              cases hm
              rw [hout] at hin
              cases hin
            exact .kept ((put_other r _ hjk).trans hj) ((put_other r _ hmk).trans hm) hin ih hkept
      exact hpast (ho.truthful l g hl hg)
  reversible hbare := by
    have := hbare k _ (put_self ..)
    cases this

/-- Otherwise it hides what is in the slot. -/
theorem InOrder.inTurn_of_attached (ho : r.InOrder) (hr : r.Stacked) (hk : r.hooks k = some h)
    (hout : h.attached = false) (ho' : (r.attached k h).InOrder) : r.Bare ∨ r.slot = h.replaced := by
  by_cases hbare : r.Bare
  · exact .inl hbare
  refine .inr ?_
  -- some hook is attached, so the detour of one is in the slot
  simp only [Bare, not_forall, Bool.not_eq_false] at hbare
  obtain ⟨l, g, hl, hg⟩ := hbare
  obtain ⟨t, f, ht, hf, hslot, -⟩ := (ho.truthful l g hl hg).exists_top hr hl hg
  have htk : t ≠ k := by
    rintro rfl
    rw [hk] at ht
    cases ht
    rw [hout] at hf
    cases hf
  have ht' : (r.attached k h).hooks t = some f := (put_other r _ htk).trans ht
  -- it is still in force, so somebody attached goes on to it; that is the new hook, since the one in the slot was on top
  cases ho'.truthful t f ht' hf with
  | top hk' htop =>
    rw [ht'] at hk'
    cases hk'
    exact absurd (hr.eq_of_detour hk ht htop).symm htk
  | @kept _ m _ f' hk' hm hin _ hkept =>
    rw [ht'] at hk'
    cases hk'
    rcases of_put hm with ⟨rfl, rfl⟩ | ⟨-, hm⟩
    · exact hslot.trans hkept.symm
    · have hle : m.index ≤ t.index := ho.le_top hr ht hslot hm hin
      have hlt : t.index < m.index := hr.lt_of_replaced ht hm hkept
      omega

/-- A hook that is switched off from the top of the slot uncovers the one that it went on to. -/
theorem InOrder.detached (ho : r.InOrder) (hr : r.Stacked) (hk : r.hooks k = some h) (hslot : r.slot = h.detour)
    (hturn : h.replaced = .plain ∨ ∃ l g, l ≠ k ∧ r.hooks l = some g ∧ g.attached = true) :
    (r.detached k h).InOrder where
  truthful l g hl hg := by
    obtain ⟨hlk, hl⟩ : l ≠ k ∧ r.hooks l = some g := (of_put hl).resolve_left fun he => by
      rw [he.2] at hg
      cases hg
    have hpast : ∀ {j}, r.InForce j → j ≠ k → (r.detached k h).InForce j := by
      intro j hforce
      induction hforce with
      | @top j f hj htop =>
        intro hjk
        exact absurd (hr.eq_of_detour hj hk (htop.symm.trans hslot)) hjk
      | @kept j m f f' hj hm hin _ hkept ih =>
        intro hjk
        by_cases hmk : m = k
        · subst hmk
          rw [hk] at hm
          cases hm
          exact .top ((put_other r _ hjk).trans hj) hkept
        · exact .kept ((put_other r _ hjk).trans hj) ((put_other r _ hmk).trans hm) hin (ih hmk) hkept
    exact hpast (ho.truthful l g hl hg) hlk
  reversible hbare := by
    rcases hturn with hplain | ⟨l, g, hlk, hl, hg⟩
    · exact hplain
    · rw [hbare l g ((put_other r _ hlk).trans hl)] at hg
      cases hg

/-- Otherwise it takes another one out of the slot, or leaves a detour there. -/
theorem InOrder.inTurn_of_detached (ho : r.InOrder) (hr : r.Stacked) (hk : r.hooks k = some h)
    (hin : h.attached = true) (ho' : (r.detached k h).InOrder) :
    r.slot = h.detour ∧ (h.replaced = .plain ∨ ∃ l g, l ≠ k ∧ r.hooks l = some g ∧ g.attached = true) := by
  obtain ⟨t, f, ht, hf, hslot, hle⟩ := (ho.truthful k h hk hin).exists_top hr hk hin
  have htk : t = k := by
    by_contra htk
    -- a hook above the one switched off has to be in force still
    have ht' : (r.detached k h).hooks t = some f := (put_other r _ htk).trans ht
    cases ho'.truthful t f ht' hf with
    | top hk' htop =>
      rw [ht'] at hk'
      cases hk'
      have hlt : t.index < k.index := hr.lt_of_replaced ht hk htop
      omega
    | @kept _ m _ f' hk' hm hin' _ hkept =>
      rw [ht'] at hk'
      cases hk'
      obtain ⟨-, hm⟩ : m ≠ k ∧ r.hooks m = some f' := (of_put hm).resolve_left fun he => by
        rw [he.2] at hin'
        cases hin'
      have hle' : m.index ≤ t.index := ho.le_top hr ht hslot hm hin'
      have hlt : t.index < m.index := hr.lt_of_replaced ht hm hkept
      omega
  subst htk
  rw [hk] at ht
  cases ht
  refine ⟨hslot, ?_⟩
  by_cases hothers : ∃ l g, l ≠ t ∧ r.hooks l = some g ∧ g.attached = true
  · exact .inr hothers
  · refine .inl (ho'.reversible fun l g hl => ?_)
    rcases of_put hl with ⟨-, rfl⟩ | ⟨hlt, hl⟩
    · rfl
    · exact Bool.eq_false_iff.2 fun hg => hothers ⟨l, g, hlt, hl, hg⟩

/-- A switch keeps hooks in order exactly if it is in turn. -/
theorem InOrder.toggle_iff (ho : r.InOrder) (hr : r.Stacked) (k : SubsystemId) (on : Bool) :
    (r.toggle k on).InOrder ↔ r.InTurn k on := by
  cases hk : r.hooks k with
  | none =>
    have hsame : r.toggle k on = r := by
      unfold toggle
      rw [hk]
    rw [hsame]
    refine ⟨fun _ h hk' => ?_, fun _ => ho⟩
    rw [hk] at hk'
    cases hk'
  | some h =>
    have hturn : r.InTurn k on ↔ (h.attached ≠ on → if on then r.Bare ∨ r.slot = h.replaced
        else r.slot = h.detour ∧ (h.replaced = .plain ∨ ∃ l g, l ≠ k ∧ r.hooks l = some g ∧ g.attached = true)) := by
      refine ⟨fun hall => hall h hk, fun hone g hg => ?_⟩
      rw [hk] at hg
      cases hg
      exact hone
    rw [hturn]
    by_cases ha : h.attached = on
    · rw [toggle_idle hk ha]
      exact ⟨fun _ hne => absurd ha hne, fun _ => ho.put_idle hk rfl rfl rfl rfl⟩
    · rw [toggle_moves hk ha]
      cases on with
      | true =>
        have hout : h.attached = false := Bool.eq_false_iff.2 ha
        exact ⟨fun ho' _ => ho.inTurn_of_attached hr hk hout ho', fun hin => ho.attached hk hout (hin ha)⟩
      | false =>
        have hin : h.attached = true := (Bool.not_eq_false _).mp ha
        exact ⟨fun ho' _ => ho.inTurn_of_detached hr hk hin ho',
          fun hturn => ho.detached hr hk (hturn ha).1 (hturn ha).2⟩

/-! ## New layers -/

theorem Stacked.add (hr : r.Stacked) (hk : r.hooks k = none) (hnewest : ∀ l g, r.hooks l = some g → l.index < k.index) :
    (r.add k).Stacked := by
  have hthere : ∀ {known : SubsystemId → Prop} {e}, r.Knows known e → (r.add k).Knows known e := by
    rintro known e (hplain | ⟨l, g, hl, hg, heq⟩)
    · exact .inl hplain
    · refine .inr ⟨l, g, hl, (put_other r _ ?_).trans hg, heq⟩
      rintro rfl
      rw [hk] at hg
      cases hg
  refine ⟨fun l g hl => ?_, fun l g hl => hthere ?_, hthere hr.slot⟩
  · rcases of_put hl with ⟨rfl, rfl⟩ | ⟨-, hl⟩
    · rfl
    · exact hr.detour l g hl
  · rcases of_put hl with ⟨rfl, rfl⟩ | ⟨-, hl⟩
    · -- whatever is in the slot was there before
      rcases hr.slot with hplain | ⟨j, f, -, hj, heq⟩
      · exact .inl hplain
      · exact .inr ⟨j, f, hnewest j f hj, hj, heq⟩
    · exact hr.replaced l g hl

/-- A new hook is not attached, and hides nothing. -/
theorem InOrder.add (ho : r.InOrder) (hk : r.hooks k = none) : (r.add k).InOrder := by
  have hother : ∀ {l g}, r.hooks l = some g → (r.add k).hooks l = some g := by
    intro l g hl
    refine (put_other r _ ?_).trans hl
    rintro rfl
    rw [hk] at hl
    cases hl
  have hforce : ∀ {l}, r.InForce l → (r.add k).InForce l := by
    intro l hl
    induction hl with
    | top hj htop => exact .top (hother hj) htop
    | kept hj hm hin _ hkept ih => exact .kept (hother hj) (hother hm) hin ih hkept
  refine ⟨fun l g hl hg => ?_, fun hbare => ho.reversible fun l g hl => hbare l g (hother hl)⟩
  rcases of_put hl with ⟨-, rfl⟩ | ⟨-, hl⟩
  · cases hg
  · exact hforce (ho.truthful l g hl hg)

end Rack

/-! ## All exports -/

namespace World

/-- The hooks of an export. -/
def rack (w : World σ) (x : Export) : Rack where
  slot := w.exports.get x
  hooks k := (w.subsystem? k).map fun s => s.hooks.get x

/-- The hooks of every export are in order. -/
def InOrder (w : World σ) : Prop :=
  ∀ x, (w.rack x).InOrder

/-- The hooks of every export were made one after another. -/
def Stacked (w : World σ) : Prop :=
  ∀ x, (w.rack x).Stacked

end World

/-- What the owner of a layer does with it. -/
inductive Ownership
  | new (config : Config) (collaborators : Collaborators)
  | install (k : SubsystemId)
  | uninstall (k : SubsystemId)
  | installAll (k : SubsystemId)
  | toggle (k : SubsystemId) (x : Export) (on : Bool)
  | drop (k : SubsystemId)

namespace Ownership

/-- The operation that does it. -/
def operation : Ownership → Operation
  | new config collaborators => .newSubsystem config collaborators
  | install k => .install k
  | uninstall k => .uninstall k
  | installAll k => .installAll k
  | toggle k x on => .toggle k x on
  | drop k => .drop k

/-- The layer whose hooks are switched, those hooks, and whether they are switched on. -/
def switched (o : Ownership) (w : World σ) : Option (SubsystemId × List Export × Bool) :=
  match o with
  | new _ _ => none
  | install k => some (k, ((w.subsystem? k).map Subsystem.wantedExports).getD [], true)
  | uninstall k => some (k, Export.all, false)
  | installAll k => some (k, Export.all, true)
  | toggle k x on => some (k, [x], on)
  | drop k => some (k, Export.all, false)

/-- Whether every hook that is switched is so in turn. -/
def InTurn (o : Ownership) (w : World σ) : Prop :=
  ∀ k xs on, o.switched w = some (k, xs, on) → ∀ x ∈ xs, (w.rack x).InTurn k on

/-- Something holds of a world, and of every world that comes of doing one thing after another. -/
def Throughout (ids : CallbackIds σ) (resume : Resume σ) (inv : World σ → Prop) : List Ownership → World σ → Prop
  | [], w => inv w
  | o :: rest, w =>
    inv w ∧ ∀ r w', o.operation.perform ids resume w = some (r, w') → Throughout ids resume inv rest w'

/-- Whatever is switched when one thing is done after another is switched in turn. -/
def AllInTurn (ids : CallbackIds σ) (resume : Resume σ) : List Ownership → World σ → Prop
  | [], _ => True
  | o :: rest, w =>
    ∀ r w', o.operation.perform ids resume w = some (r, w') → o.InTurn w ∧ AllInTurn ids resume rest w'

end Ownership

/-! ## What switching does to the hooks of each export -/

namespace Act

variable {k : SubsystemId}

/-- An operation that switches certain hooks of a layer, and leaves all other hooks and slots alone. -/
def Switches (k : SubsystemId) (xs : List Export) (on : Bool) (act : Act σ α) : Prop :=
  ∀ ⦃w a w'⦄, act w = some (a, w') → ∀ x, w'.rack x = if x ∈ xs then (w.rack x).toggle k on else w.rack x

theorem rack_onMount {x : Export} {f : Mount → α × Mount} {w w' : World σ} {a : α}
    (he : onMount k x f w = some (a, w')) : ∃ s, w.subsystem? k = some s ∧ ∀ y, w'.rack y =
      if y = x then (w.rack x).put k (f ⟨s.hooks.get x, w.exports.get x⟩).2 else w.rack y := by
  obtain ⟨s, hs, hlayers⟩ := subsystem?_onMount he
  obtain ⟨t, ht, eq⟩ := Option.map_eq_some_iff.1 he
  rw [hs] at ht
  cases ht
  have hexports : w'.exports = w.exports.set (f ⟨s.hooks.get x, w.exports.get x⟩).2.slot x := by
    cases eq
    rfl
  refine ⟨s, hs, fun y => ?_⟩
  by_cases hyx : y = x
  · subst hyx
    rw [if_pos rfl]
    unfold World.rack Rack.put
    congr 1
    · rw [hexports, PerExport.get_set, if_pos rfl]
    · funext l
      rw [hlayers]
      split
      · show some (PerExport.get _ y) = _
        rw [PerExport.get_set, if_pos rfl]
      · rfl
  · rw [if_neg hyx]
    unfold World.rack
    congr 1
    · rw [hexports, PerExport.get_set, if_neg hyx]
    · funext l
      rw [hlayers]
      split
      · rename_i hl
        show some (PerExport.get _ y) = _
        rw [PerExport.get_set, if_neg hyx, hl, hs]
        rfl
      · rfl

theorem switches_toggle (k : SubsystemId) (x : Export) (on : Bool) :
    Switches k [x] on (toggle k x on : Act σ Bool) := by
  intro w a w' he y
  obtain ⟨s, hs, hracks⟩ := rack_onMount he
  have hhook : (w.rack x).hooks k = some (s.hooks.get x) := by
    show Option.map _ (w.subsystem? k) = _
    rw [hs]
    rfl
  simp only [hracks y, List.mem_singleton]
  by_cases hyx : y = x
  · subst hyx
    rw [if_pos rfl, if_pos rfl, Rack.toggle, hhook]
    rfl
  · rw [if_neg hyx, if_neg hyx]

theorem switches_toggleAll (k : SubsystemId) (on : Bool) {xs : List Export} (hxs : xs.Nodup) :
    Switches k xs on (toggleAll k on xs : Act σ Nat) := by
  induction xs with
  | nil =>
    intro w a w' he y
    cases he
    rw [if_neg List.not_mem_nil]
  | cons x rest ih =>
    obtain ⟨hx, hrest⟩ := List.nodup_cons.1 hxs
    intro w a w' he y
    obtain ⟨⟨changed, w₁⟩, h₁, he⟩ := Option.bind_eq_some_iff.1 he
    obtain ⟨⟨n, w₂⟩, h₂, he⟩ := Option.bind_eq_some_iff.1 he
    cases he
    simp only [ih hrest h₂ y, switches_toggle k x on h₁ y, List.mem_cons, List.not_mem_nil, or_false]
    -- no hook is switched twice
    by_cases hyx : y = x
    · subst hyx
      simp [hx]
    · simp [hyx]

theorem switches_drop (k : SubsystemId) : Switches k Export.all false (drop k : Act σ Unit) := by
  intro w a w' he y
  obtain ⟨⟨n, w₁⟩, h₁, h₂⟩ := Option.bind_eq_some_iff.1 he
  have hsame : w'.rack y = w₁.rack y := by
    obtain ⟨s, hs, eq⟩ := Option.map_eq_some_iff.1 h₂
    cases eq
    unfold World.rack
    congr 1
    funext l
    rw [World.subsystem?_setSubsystem hs]
    split
    · rename_i hl
      rw [hl, hs]
      rfl
    · rfl
  rw [hsame]
  exact switches_toggleAll k false (by decide) h₁ y

theorem switches_install (k : SubsystemId) {w w' : World σ} {n : Nat} (he : install k w = some (n, w')) (x : Export) :
    w'.rack x = if x ∈ ((w.subsystem? k).map Subsystem.wantedExports).getD [] then (w.rack x).toggle k true
      else w.rack x := by
  obtain ⟨⟨s, w₁⟩, h₁, h₂⟩ := Option.bind_eq_some_iff.1 he
  obtain ⟨t, hs, eq⟩ := Option.map_eq_some_iff.1 h₁
  cases eq
  rw [hs]
  have hall : Export.all.Nodup := by decide
  exact switches_toggleAll k true (hall.filter _) h₂ x

end Act

namespace Ownership

/-- A layer is made, or hooks of one layer are switched. -/
theorem rack_perform {ids : CallbackIds σ} {resume : Resume σ} {o : Ownership} {w w' : World σ}
    {r : o.operation.Reply} (he : o.operation.perform ids resume w = some (r, w')) :
    (o.switched w = none ∧ ∀ x, w'.rack x = (w.rack x).add ⟨w.subsystems.size⟩) ∨
      ∃ k xs on, o.switched w = some (k, xs, on) ∧
        ∀ x, w'.rack x = if x ∈ xs then (w.rack x).toggle k on else w.rack x := by
  cases o with
  | new config collaborators =>
    refine .inl ⟨rfl, fun x => ?_⟩
    cases he
    unfold World.rack Rack.add Rack.put
    congr 1
    funext l
    show Option.map _ (w.subsystems.push _)[l.index]? = _
    rw [Array.getElem?_push]
    by_cases hl : l = ⟨w.subsystems.size⟩
    · rw [if_pos (congrArg SubsystemId.index hl), if_pos hl]
      show some (PerExport.get (PerExport.map _ _) x) = _
      rw [PerExport.get_map]
    · rw [if_neg (fun h => hl (World.subsystemId_eq.1 h)), if_neg hl]
      rfl
  | install k => exact .inr ⟨k, _, true, rfl, Act.switches_install k he⟩
  | uninstall k => exact .inr ⟨k, _, false, rfl, Act.switches_toggleAll k false (by decide) he⟩
  | installAll k => exact .inr ⟨k, _, true, rfl, Act.switches_toggleAll k true (by decide) he⟩
  | toggle k x on => exact .inr ⟨k, _, on, rfl, Act.switches_toggle k x on he⟩
  | drop k => exact .inr ⟨k, _, false, rfl, Act.switches_drop k he⟩

/-- The step lemma. -/
theorem step {ids : CallbackIds σ} {resume : Resume σ} {o : Ownership} {w w' : World σ} {r : o.operation.Reply}
    (hstacked : w.Stacked) (horder : w.InOrder) (he : o.operation.perform ids resume w = some (r, w')) :
    w'.Stacked ∧ (w'.InOrder ↔ o.InTurn w) := by
  rcases rack_perform he with ⟨hnew, hracks⟩ | ⟨k, xs, on, hswitched, hracks⟩
  · have hfresh : ∀ x, (w.rack x).hooks ⟨w.subsystems.size⟩ = none := by
      intro x
      show Option.map _ (w.subsystems[w.subsystems.size]?) = none
      rw [Array.getElem?_eq_none (Nat.le_refl _)]
      rfl
    have hnewest : ∀ x l g, (w.rack x).hooks l = some g → l.index < w.subsystems.size := by
      intro x l g hl
      obtain ⟨s, hs, -⟩ := Option.map_eq_some_iff.1 hl
      exact (Array.getElem?_eq_some_iff.1 hs).1
    refine ⟨fun x => ?_, fun _ k xs on h => ?_, fun _ x => ?_⟩
    · rw [hracks x]
      exact (hstacked x).add (hfresh x) (hnewest x)
    · rw [hnew] at h
      cases h
    · rw [hracks x]
      exact (horder x).add (hfresh x)
  · refine ⟨fun x => ?_, fun horder' l ys on' h x hx => ?_, fun hturn x => ?_⟩
    · rw [hracks x]
      split
      · exact (hstacked x).toggle k on
      · exact hstacked x
    · rw [hswitched] at h
      cases h
      have horder' := horder' x
      rw [hracks x, if_pos hx] at horder'
      exact ((horder x).toggle_iff (hstacked x) k on).1 horder'
    · rw [hracks x]
      split
      · rename_i hx
        exact ((horder x).toggle_iff (hstacked x) k on).2 (hturn k xs on hswitched x hx)
      · exact horder x

theorem Throughout.head {ids : CallbackIds σ} {resume : Resume σ} {inv : World σ → Prop} {os : List Ownership}
    {w : World σ} (h : Throughout ids resume inv os w) : inv w := by
  cases os with
  | nil => exact h
  | cons o rest => exact h.1

/-- The run lemma: once hooks are out of order, whatever put them so was out of turn. -/
theorem throughout_iff {ids : CallbackIds σ} {resume : Resume σ} {os : List Ownership} {w : World σ}
    (hstacked : w.Stacked) (horder : w.InOrder) :
    Throughout ids resume World.InOrder os w ↔ AllInTurn ids resume os w := by
  induction os generalizing w with
  | nil => exact ⟨fun _ => trivial, fun _ => horder⟩
  | cons o rest ih =>
    constructor
    · rintro ⟨-, hrest⟩ r w' he
      obtain ⟨hstacked', hiff⟩ := step hstacked horder he
      have hafter := hrest r w' he
      exact ⟨hiff.1 hafter.head, (ih hstacked' hafter.head).1 hafter⟩
    · intro hturns
      refine ⟨horder, fun r w' he => ?_⟩
      obtain ⟨hturn, hrest⟩ := hturns r w' he
      obtain ⟨hstacked', hiff⟩ := step hstacked horder he
      exact (ih hstacked' (hiff.2 hturn)).2 hrest

/-- Where there is no layer, there is nothing to be out of order. -/
theorem stacked_initial (resumer : Resumer) (state : σ) (instances : Array Instance) :
    World.Stacked { World.initial resumer state with instances } ∧
      World.InOrder { World.initial resumer state with instances } := by
  have hslot : ∀ x, (World.rack { World.initial resumer state with instances } x).slot = .plain :=
    fun x => PerExport.get_const _ x
  exact ⟨fun x => ⟨nofun, nofun, .inl (hslot x)⟩, fun x => ⟨nofun, fun _ => hslot x⟩⟩

/-- Whatever the owners of any number of layers do with them, beginning with a table of the machine's own entries: at
every moment the flag of every hook says whether the hook is reached, and the table is the machine's own once all hooks
are off, exactly if every hook was switched in turn. -/
theorem inOrder_iff_inTurn (ids : CallbackIds σ) (resume : Resume σ) (resumer : Resumer) (state : σ)
    (instances : Array Instance) (os : List Ownership) :
    Throughout ids resume World.InOrder os { World.initial resumer state with instances } ↔
      AllInTurn ids resume os { World.initial resumer state with instances } := by
  obtain ⟨hstacked, horder⟩ := stacked_initial resumer state instances
  exact throughout_iff hstacked horder

/-- Does one thing after another. -/
def performAll (ids : CallbackIds σ) (resume : Resume σ) : List Ownership → Act σ Unit
  | [] => pure ()
  | o :: rest => do
    let _ ← o.operation.perform ids resume
    performAll ids resume rest

theorem Throughout.last {ids : CallbackIds σ} {resume : Resume σ} {inv : World σ → Prop} {os : List Ownership}
    {w w' : World σ} (h : Throughout ids resume inv os w) (he : performAll ids resume os w = some ((), w')) :
    inv w' := by
  induction os generalizing w with
  | nil =>
    cases he
    exact h
  | cons o rest ih =>
    obtain ⟨⟨r, w₁⟩, h₁, he⟩ := Option.bind_eq_some_iff.1 he
    exact ih (h.2 r w₁ h₁) he

/-- Two layers, of which the second is made and switched on while the first is on. -/
def twoLayers : List Ownership :=
  [.new .standard ⟨.unsupported, .unsupported, .host⟩, .installAll ⟨0⟩,
    .new .standard ⟨.unsupported, .unsupported, .host⟩, .installAll ⟨1⟩]

/-- The layer below is switched off first: that takes the other one out of the slots as well, though its hooks say that
they are there; and switched off after it, the other one writes back what it found. -/
theorem not_inOrder_twoLayers :
    ¬ Throughout (fun _ _ _ _ => none) (fun _ _ state => state)
        (fun w => ∀ x k h, (w.rack x).hooks k = some h → h.attached = true → (w.rack x).InForce k)
        (twoLayers ++ [.uninstall ⟨0⟩]) (World.initial .drop ()) ∧
      ¬ Throughout (fun _ _ _ _ => none) (fun _ _ state => state)
        (fun w => ∀ x, (w.rack x).Bare → (w.rack x).slot = .plain)
        (twoLayers ++ [.uninstall ⟨0⟩, .uninstall ⟨1⟩]) (World.initial .drop ()) := by
  constructor
  · intro h
    have hreached : (performAll (fun _ _ _ _ => none) (fun _ _ state => state) (twoLayers ++ [.uninstall ⟨0⟩])
        (World.initial .drop ())).any (fun p => decide (p.2.exports.exec = .plain) &&
          (p.2.subsystem? ⟨1⟩).any (fun s => s.hooks.exec.attached) &&
          p.2.subsystems.all fun s => decide (s.hooks.exec.detour ≠ .plain)) = true := by decide +kernel
    obtain ⟨⟨u, w⟩, hw, hthere⟩ := (Option.any_eq_true _ _).1 hreached
    simp only [Bool.and_eq_true, decide_eq_true_eq, Option.any_eq_true, Array.all_eq_true'] at hthere
    obtain ⟨⟨hslot, s, hs, ha⟩, hdetours⟩ := hthere
    have hhook : (w.rack .exec).hooks ⟨1⟩ = some s.hooks.exec := congrArg (Option.map _) hs
    -- the hook says that its detour is there, but no detour is
    obtain ⟨t, f, ht, htop⟩ := (h.last hw .exec ⟨1⟩ s.hooks.exec hhook ha).slot
    obtain ⟨s', hs', rfl⟩ := Option.map_eq_some_iff.1 ht
    exact hdetours s' (Array.mem_of_getElem? hs') (htop.symm.trans hslot)
  · intro h
    have hreached : (performAll (fun _ _ _ _ => none) (fun _ _ state => state)
        (twoLayers ++ [.uninstall ⟨0⟩, .uninstall ⟨1⟩]) (World.initial .drop ())).any (fun p =>
          decide (p.2.exports.lookup ≠ .plain) &&
          p.2.subsystems.all fun s => decide (s.hooks.lookup.attached = false)) = true := by decide +kernel
    obtain ⟨⟨u, w⟩, hw, hthere⟩ := (Option.any_eq_true _ _).1 hreached
    simp only [Bool.and_eq_true, decide_eq_true_eq, Array.all_eq_true'] at hthere
    obtain ⟨hslot, hout⟩ := hthere
    refine hslot (h.last hw .lookup fun k f hk => ?_)
    obtain ⟨s, hs, rfl⟩ := Option.map_eq_some_iff.1 hk
    exact hout s (Array.mem_of_getElem? hs)

end Ownership

end Interpose

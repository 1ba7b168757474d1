import Interpose.Proofs.PooledReading

/-!
# Following references

A script hands its variadic arguments over by reference: what stands behind the address may be the address of a string. A
layer that follows references therefore looks at the cell behind an address that the machine's own entry knows, and if that
cell is an address of the pool, leads there instead. Any number may stand in memory, so it matters which numbers are taken
for addresses: those that the instance itself has bound and whose string lives, and the two of the null string. Nothing else
makes a difference, and an address that leads somewhere never comes to lead nowhere.

One step is followed and no more: the cells of the string that an address leads to may be addresses again, and are left
alone. Besides the answer there is only what the pool remembers, the string that was resolved last.

Main statement: `Machine.references_followed`.
-/

namespace Interpose

open World

variable {σ α : Type}

/-! ## Where an address leads -/

/-- The place of an address in a pool: the buffer of the null string, or a part of a string that the instance has bound. -/
def Pool.leads? (p : Pool) (k : SubsystemId) (i : InstanceId) (address : Cell) : Option Place :=
  if Address.isNull address then some (.null k)
  else (p.resolve? i address).map fun target => .pooled k target.1 target.2

/-- A pool with the same strings under the same numbers, and the same bindings. What it remembers of what was resolved, and
what stands in the buffer of the null string, may differ. -/
structure Pool.Recalls (p q : Pool) : Prop where
  alike : p.Alike q
  bindings : q.bindings = p.bindings

/-- The world after an address was resolved: a string that it leads to is remembered, and the buffer of the null string is
emptied. -/
def World.resolved (w : World σ) (k : SubsystemId) (s : Subsystem) : Except Status Place → World σ
  | .ok (.pooled _ id _) => w.setSubsystem k { s with pool := s.pool.setCache id }
  | .ok (.null _) => w.setSubsystem k { s with pool := s.pool.resetNull }
  | _ => w

/-- Where an address leads an instance past a layer: where the machine's own entry leads, or where the pool leads from there
if references are followed; and where the machine's own entry leads nowhere, where the pool leads. -/
def Subsystem.leads (s : Subsystem) (k : SubsystemId) (i : InstanceId) (a : Instance) (address : Cell) :
    Except Status Place :=
  match a.cellIndex? address with
  | some index =>
    if s.refArgs then .ok ((a.memory[index]?.bind (s.pool.leads? k i)).getD (.memory i index)) else .ok (.memory i index)
  | none =>
    match s.pool.leads? k i address with
    | some p => .ok p
    | none => .error .memoryAccess

/-- An address of an instance is the address of a cell. -/
theorem Instance.exists_getElem? {a : Instance} {address : Cell} {index : Nat} (h : a.cellIndex? address = some index) :
    ∃ value, a.memory[index]? = some value := by
  unfold Instance.cellIndex? at h
  split at h
  · cases h
  · split at h
    · dsimp only at h
      split at h
      · rename_i hlt
        cases h
        exact ⟨_, List.getElem?_eq_getElem hlt⟩
      · cases h
    · cases h

namespace Subsystem

variable {s : Subsystem} {k : SubsystemId} {i : InstanceId} {a : Instance} {address value : Cell} {index : Nat}

theorem leads_direct (hindex : a.cellIndex? address = some index) (hrefs : s.refArgs = false) :
    s.leads k i a address = .ok (.memory i index) := by
  simp [leads, hindex, hrefs]

theorem leads_following (hindex : a.cellIndex? address = some index) (hrefs : s.refArgs = true)
    (hvalue : a.memory[index]? = some value) :
    s.leads k i a address = .ok ((s.pool.leads? k i value).getD (.memory i index)) := by
  simp [leads, hindex, hrefs, hvalue]

theorem leads_beyond (hindex : a.cellIndex? address = none) : s.leads k i a address =
    match s.pool.leads? k i address with
    | some p => .ok p
    | none => .error .memoryAccess := by
  simp only [leads, hindex]

end Subsystem

namespace Pool

variable {p : Pool} {k : SubsystemId} {i : InstanceId} {address : Cell} {id : StringId} {part : Part}

theorem Recalls.refl (p : Pool) : p.Recalls p :=
  ⟨.refl p, rfl⟩

theorem leads?_null (h : Address.isNull address = true) : p.leads? k i address = some (.null k) := by
  rw [leads?, if_pos h]

theorem leads?_bound (h : p.resolve? i address = some (id, part)) : p.leads? k i address = some (.pooled k id part) := by
  have hnull := Address.not_isNull_of_decode? (resolve?_eq_some.1 h).1
  rw [leads?, if_neg (by simp [hnull]), h, Option.map_some]

theorem leads?_none (hnull : Address.isNull address = false) (h : p.resolve? i address = none) :
    p.leads? k i address = none := by
  rw [leads?, if_neg (by simp [hnull]), h, Option.map_none]

/-- An address of the pool leads to the null string, or to a string, or nowhere. -/
theorem leads?_cases (p : Pool) (i : InstanceId) (address : Cell) :
    Address.isNull address = true ∨ (∃ id part, p.resolve? i address = some (id, part)) ∨
      Address.isNull address = false ∧ p.resolve? i address = none := by
  cases hnull : Address.isNull address with
  | true => exact .inl rfl
  | false =>
    cases hresolve : p.resolve? i address with
    | none => exact .inr (.inr ⟨rfl, rfl⟩)
    | some target => exact .inr (.inl ⟨target.1, target.2, rfl⟩)

end Pool

namespace Act

variable {k : SubsystemId} {w : World σ} {s : Subsystem} {i : InstanceId} {a : Instance} {address : Cell}

/-- The pool answers where an address leads, and remembers it. What comes of the answer is `r`. -/
theorem resolvePooled_eq (hs : w.subsystem? k = some s) (r : Option Place → Except Status Place)
    (hsome : ∀ p, r (some p) = .ok p) (hnone : w.resolved k s (r none) = w) :
    resolvePooled k i address w = some (s.pool.leads? k i address, w.resolved k s (r (s.pool.leads? k i address))) := by
  rcases s.pool.leads?_cases i address with hnull | ⟨id, part, hbound⟩ | ⟨hnull, hunbound⟩
  · rw [resolvePooled_null hs hnull, Pool.leads?_null hnull, hsome]
    rfl
  · have hnull := Address.not_isNull_of_decode? (Pool.resolve?_eq_some.1 hbound).1
    rw [resolvePooled_bound hs hnull hbound, Pool.leads?_bound hbound, hsome]
    rfl
  · rw [resolvePooled_none hs hnull hunbound, Pool.leads?_none hnull hunbound, hnone]

/-- Past a layer an address is answered, and nothing happens but what follows from the answer. -/
theorem resolve_leads (h : Served k .resolve s w) (ha : w.instance? i = some a) :
    resolve i address w = some (s.leads k i a address, w.resolved k s (s.leads k i a address)) := by
  have hget : getSubsystem k w = some (s, w) := congrArg (Option.map _) h.layer
  rw [resolve_past h ha, Instance.place]
  cases hindex : a.cellIndex? address with
  | some index =>
    show (getSubsystem k >>= _) w = _
    rw [bind_of_some hget]
    cases hrefs : s.refArgs with
    | false =>
      rw [Subsystem.leads_direct hindex hrefs]
      rfl
    | true =>
      -- there is a cell behind the address, and the pool is asked about it
      obtain ⟨value, hvalue⟩ := Instance.exists_getElem? hindex
      have hcell : cellAt (.memory i index) w = some (value, w) := by
        have hcells : cellsAt (.memory i index) w = some (a.memory.drop index, w) := by
          rw [cellsAt, cellsAt?, ha]
          rfl
        unfold cellAt
        rw [bind_of_some hcells, List.head?_drop, hvalue]
        rfl
      rw [Subsystem.leads_following hindex hrefs hvalue, if_pos rfl, bind_of_some hcell,
        bind_of_some (resolvePooled_eq h.layer (fun led => .ok (led.getD (.memory i index))) (fun _ => rfl) rfl)]
      cases s.pool.leads? k i value <;> rfl
  | none =>
    show (resolvePooled k i address >>= _) w = _
    rw [Subsystem.leads_beyond hindex, bind_of_some (resolvePooled_eq h.layer
      (fun led => match led with | some p => .ok p | none => .error .memoryAccess) (fun _ => rfl) rfl)]
    cases s.pool.leads? k i address <;> rfl

end Act

namespace World

variable {k : SubsystemId} {w : World σ} {s : Subsystem} {i : InstanceId} {a : Instance} {actions : List Pool.Action}
  {r : Except Status Place}

/-- Where addresses lead an instance past a layer, by the operations that the pool of the layer follows. -/
structure Refers (actions : List Pool.Action) (k : SubsystemId) (s : Subsystem) (i : InstanceId) (a : Instance)
    (w : World σ) : Prop where
  /-- As long as no references are followed, an address of a cell leads to that cell. -/
  direct : s.refArgs = false → ∀ {address index}, a.cellIndex? address = some index →
    Act.resolve i address w = some (.ok (.memory i index), w)
  /-- A cell that is an address of the null string leads to its buffer, which is emptied. -/
  null : s.refArgs = true → ∀ {address index value}, a.cellIndex? address = some index → a.memory[index]? = some value →
    Address.isNull value = true →
    Act.resolve i address w = some (.ok (.null k), w.setSubsystem k { s with pool := s.pool.resetNull })
  /-- A cell that is an address which the instance has bound, of a string that lives, leads to that part of the string and
  no further, whatever cells the string has. -/
  bound : s.refArgs = true → ∀ {address index value id part}, a.cellIndex? address = some index →
    a.memory[index]? = some value → Address.decode? value = some (id, part) → s.pool.isBound i value = true →
    s.pool.contains id = true →
    Act.resolve i address w = some (.ok (.pooled k id part), w.setSubsystem k { s with pool := s.pool.setCache id })
  /-- Every other cell is a number, and the address leads to the cell itself. -/
  other : s.refArgs = true → ∀ {address index value}, a.cellIndex? address = some index → a.memory[index]? = some value →
    Address.isNull value = false →
    (∀ id part, Address.decode? value = some (id, part) →
      ¬ (s.pool.isBound i value = true ∧ s.pool.contains id = true)) →
    Act.resolve i address w = some (.ok (.memory i index), w)
  /-- So a cell leads to a string if the instance was given the address that stands in it, for as long as the string lives
  and the instance is not unloaded. -/
  current : s.refArgs = true → ∀ {address index value n id part}, a.cellIndex? address = some index →
    a.memory[index]? = some value → Pool.Gives actions n i id part value →
    (∀ m, n ≤ m → (Pool.upTo actions m).contains id = true) → (∀ m, n < m → actions[m]? ≠ some (.forget i)) →
    Act.resolve i address w = some (.ok (.pooled k id part), w.setSubsystem k { s with pool := s.pool.setCache id })
  /-- It leads to a string no longer when the string is gone, whatever string has the number by now. -/
  gone : s.refArgs = true → ∀ {address index value n id part}, a.cellIndex? address = some index →
    a.memory[index]? = some value → Address.decode? value = some (id, part) → (Pool.upTo actions n).contains id = false →
    (∀ m, n ≤ m → ¬ Pool.Gives actions m i id part value) →
    Act.resolve i address w = some (.ok (.memory i index), w)
  /-- Nor does it lead to one if the address was never given to this instance, but perhaps to another. -/
  foreign : s.refArgs = true → ∀ {address index value id part}, a.cellIndex? address = some index →
    a.memory[index]? = some value → Address.decode? value = some (id, part) →
    (∀ m, ¬ Pool.Gives actions m i id part value) → Act.resolve i address w = some (.ok (.memory i index), w)
  /-- An address that leads somewhere by the machine's own entry leads somewhere. -/
  succeeds : ∀ {address index}, a.cellIndex? address = some index → ∃ p w', Act.resolve i address w = some (.ok p, w')
  /-- Where an address leads that is none of a cell, does not depend on whether references are followed. -/
  beyond : ∀ {address}, a.cellIndex? address = none → ∃ r, ∀ on,
    Act.resolve i address (w.setSubsystem k { s with refArgs := on }) =
      some (r, (w.setSubsystem k { s with refArgs := on }).resolved k { s with refArgs := on } r)
  /-- Whatever is answered, nothing is changed but in the pool, and there no string and no binding; and the string that is
  remembered is the one that the address led to, if it led to one. -/
  remembers : ∀ {address r w'}, Act.resolve i address w = some (r, w') → w'.instances = w.instances ∧
    ∃ q, w' = w.setSubsystem k { s with pool := q } ∧ s.pool.Recalls q ∧
      q.cache = match r with
        | .ok (.pooled _ id _) => some id
        | _ => s.pool.cache

/-- What is remembered when an address has been answered. -/
theorem resolved_eq (hs : w.subsystem? k = some s) (r : Except Status Place) :
    ∃ q, w.resolved k s r = w.setSubsystem k { s with pool := q } ∧ s.pool.Recalls q ∧ q.cache = match r with
      | .ok (.pooled _ id _) => some id
      | _ => s.pool.cache := by
  have hsame : w = w.setSubsystem k { s with pool := s.pool } := (setSubsystem_self hs).symm
  match r with
  | .error e => exact ⟨s.pool, hsame, .refl s.pool, rfl⟩
  | .ok (.memory j index) => exact ⟨s.pool, hsame, .refl s.pool, rfl⟩
  | .ok (.null l) => exact ⟨s.pool.resetNull, rfl, ⟨⟨rfl, rfl, rfl⟩, rfl⟩, rfl⟩
  | .ok (.pooled l id part) => exact ⟨s.pool.setCache id, rfl, ⟨⟨rfl, rfl, rfl⟩, rfl⟩, rfl⟩

/-- A layer whose hook is in its slot leads an instance so. -/
theorem Served.refers (h : Served k .resolve s w) (ha : w.instance? i = some a) (hactions : s.pool.Follows actions) :
    Refers actions k s i a w := by
  have hanswer : ∀ address, Act.resolve i address w = _ := fun address => Act.resolve_leads h ha
  have hdirect : s.refArgs = false → ∀ {address index}, a.cellIndex? address = some index →
      Act.resolve i address w = some (.ok (.memory i index), w) := fun hrefs address index hindex => by
    rw [hanswer, Subsystem.leads_direct hindex hrefs]
    rfl
  -- what the pool makes of the cell behind the address decides
  have hfollowed : s.refArgs = true → ∀ {address index value}, a.cellIndex? address = some index →
      a.memory[index]? = some value → ∀ {p}, s.pool.leads? k i value = some p →
      Act.resolve i address w = some (.ok p, w.resolved k s (.ok p)) :=
    fun hrefs address index value hindex hvalue p hp => by
      rw [hanswer, Subsystem.leads_following hindex hrefs hvalue, hp]
      rfl
  have hleft : s.refArgs = true → ∀ {address index value}, a.cellIndex? address = some index →
      a.memory[index]? = some value → Address.isNull value = false → s.pool.resolve? i value = none →
      Act.resolve i address w = some (.ok (.memory i index), w) :=
    fun hrefs address index value hindex hvalue hnull hnone => by
      rw [hanswer, Subsystem.leads_following hindex hrefs hvalue, Pool.leads?_none hnull hnone]
      rfl
  refine
    { direct := hdirect
      null := fun hrefs _ _ _ hindex hvalue hnull => hfollowed hrefs hindex hvalue (Pool.leads?_null hnull)
      bound := fun hrefs _ _ _ _ _ hindex hvalue haddress hbound hc =>
        hfollowed hrefs hindex hvalue (Pool.leads?_bound (Pool.resolve?_eq_some.2 ⟨haddress, hbound, hc⟩))
      other := ?other
      current := fun hrefs _ _ _ _ _ _ hindex hvalue hgives hlives hkept =>
        hfollowed hrefs hindex hvalue (Pool.leads?_bound (hactions.resolve?_of_given hgives hlives hkept))
      gone := fun hrefs _ _ _ _ _ _ hindex hvalue haddress hgone hnever =>
        hleft hrefs hindex hvalue (Address.not_isNull_of_decode? haddress)
          (hactions.resolve?_of_gone haddress hgone hnever)
      foreign := fun hrefs _ _ _ _ _ hindex hvalue haddress hnever =>
        hleft hrefs hindex hvalue (Address.not_isNull_of_decode? haddress)
          (hactions.resolve?_of_gone haddress (Pool.contains_upTo_zero actions _) fun m _ => hnever m)
      succeeds := ?succeeds
      beyond := ?beyond
      remembers := ?remembers }
  case other =>
    intro hrefs address index value hindex hvalue hnull hno
    refine hleft hrefs hindex hvalue hnull (Option.eq_none_iff_forall_not_mem.2 fun target htarget => ?_)
    obtain ⟨haddress, hbound, hc⟩ := Pool.resolve?_eq_some.1 htarget
    exact hno target.1 target.2 haddress ⟨hbound, hc⟩
  case succeeds =>
    -- a cell that leads nowhere is itself an answer
    intro address index hindex
    cases hrefs : s.refArgs with
    | false => exact ⟨_, _, hdirect hrefs hindex⟩
    | true =>
      obtain ⟨value, hvalue⟩ := Instance.exists_getElem? hindex
      exact ⟨_, _, (hanswer address).trans (by rw [Subsystem.leads_following hindex hrefs hvalue])⟩
  case beyond =>
    -- the layer with the switch set either way is served like the layer itself, and only cells are looked into
    intro address hindex
    refine ⟨s.leads k i a address, fun on => ?_⟩
    have hflipped : Served k .resolve { s with refArgs := on } (w.setSubsystem k { s with refArgs := on }) :=
      ⟨(subsystem?_setSubsystem h.layer _ k).trans (if_pos rfl), h.alive, h.sound, h.attached⟩
    have hsame : ({ s with refArgs := on } : Subsystem).leads k i a address = s.leads k i a address := by
      rw [Subsystem.leads_beyond hindex, Subsystem.leads_beyond hindex]
    rw [Act.resolve_leads hflipped ha, hsame]
  case remembers =>
    intro address r w' hr
    rw [hanswer] at hr
    cases hr
    obtain ⟨q, hq, hkept⟩ := resolved_eq h.layer (s.leads k i a address)
    exact ⟨by rw [hq]; rfl, q, hq, hkept⟩

end World

namespace Machine

/-- **Following references.** Whatever the host does with one hook layer, and whatever its scripts, natives and handlers do,
at every moment of a run at which the hook of the resolve export is switched on: a cell is followed as a reference if it is
an address of the null string, or one of a string that lives and that the instance was given; and otherwise it is a cell. -/
theorem references_followed {host : Host σ} (hhost : host.UsesOnly (.operations Operation.keepsLayers))
    {p : Program σ α} (hp : p.Uses (.operations Operation.keepsLayers)) {instances : Array Instance} {resumer : Resumer}
    {state : σ} {config : Config} {collaborators : Collaborators} {fuel : Nat} {w : World σ}
    (hmoment : (p.runIn host fuel (.single instances resumer state config collaborators)).world = w) {s : Subsystem}
    (hs : w.subsystem? ⟨0⟩ = some s) (hserves : s.serves .resolve = true) :
    (∃ actions, s.pool.Follows actions) ∧ ∀ actions, s.pool.Follows actions → ∀ i a, w.instance? i = some a →
      w.Refers actions ⟨0⟩ s i a := by
  obtain ⟨made, htended⟩ := tended_runIn hhost hp instances resumer state config collaborators fuel
  rw [hmoment] at htended
  have hserved : Served ⟨0⟩ .resolve s w := htended.served hs (by decide) hserves
  exact ⟨⟨made, (htended.of_subsystem? hs).2⟩, fun actions hactions i a ha => hserved.refers ha hactions⟩

/-- Gives an instance the address of a string, and puts the address into the memory of the instance, and into the string. -/
def referringProgram : Program Unit Unit := do
  let i ← Program.perform (.newInstance 4)
  let _ ← Program.perform (.installAll ⟨0⟩)
  let _ ← Program.perform (.setRefArgs ⟨0⟩ true)
  let _ ← Program.perform (.pool ⟨0⟩ (.addPinned (.ofCells [⟨0x40000008, by decide, by decide⟩])))
  let _ ← Program.perform (.pool ⟨0⟩ (.bind i ⟨1⟩ .view))
  let _ ← Program.perform (.allocCells i [⟨0x40000008, by decide, by decide⟩])

/-- What it does with the pool. -/
def referring : List Pool.Action :=
  [.addPinned (.ofCells [⟨0x40000008, by decide, by decide⟩]), .bind ⟨0⟩ ⟨1⟩ .view]

/-- The reference is followed to the string, and no further. -/
theorem references_followed_once :
    ∃ w w', (referringProgram.runIn (.scripted fun _ _ => .done (.ok 0)) 9
        (.single #[] .drop () .standard ⟨.host, .unsupported, .host⟩)).world = w ∧
      Act.resolve ⟨0⟩ 0 w = some (.ok (.pooled ⟨0⟩ ⟨1⟩ .view), w') := by
  have hhost : (Host.scripted fun _ _ => .done (.ok 0) : Host Unit).UsesOnly (.operations Operation.keepsLayers) :=
    Host.scripted_uses _ fun _ _ => trivial
  have hprogram : referringProgram.Uses (.operations Operation.keepsLayers) :=
    ⟨trivial, fun _ => ⟨trivial, fun _ => ⟨trivial, fun _ => ⟨trivial, fun _ => ⟨trivial, fun _ => ⟨trivial,
      fun _ => trivial⟩⟩⟩⟩⟩⟩
  have hlayer : ((referringProgram.runIn (.scripted fun _ _ => .done (.ok 0)) 9
      (.single #[] .drop () .standard ⟨.host, .unsupported, .host⟩)).world.subsystem? ⟨0⟩).any (fun s =>
        s.serves .resolve && s.refArgs && decide (s.pool = Pool.empty.after referring)) = true := by
    decide +kernel
  have hinstance : ((referringProgram.runIn (.scripted fun _ _ => .done (.ok 0)) 9
      (.single #[] .drop () .standard ⟨.host, .unsupported, .host⟩)).world.instance? ⟨0⟩).any (fun a =>
        decide (a.cellIndex? 0 = some 0) && decide (a.memory[0]? = some ⟨0x40000008, by decide, by decide⟩)) = true := by
    decide +kernel
  generalize hmoment : (referringProgram.runIn (.scripted fun _ _ => .done (.ok 0)) 9
    (.single #[] .drop () .standard ⟨.host, .unsupported, .host⟩)).world = w at hlayer hinstance ⊢
  obtain ⟨s, hs, hlayer⟩ := (Option.any_eq_true _ _).1 hlayer
  obtain ⟨a, ha, hcell⟩ := (Option.any_eq_true _ _).1 hinstance
  simp only [Bool.and_eq_true, decide_eq_true_eq] at hlayer hcell
  obtain ⟨⟨hserves, hrefs⟩, hpool⟩ := hlayer
  have hfollows : s.pool.Follows referring := hpool ▸ fun i => ⟨.refl _, fun _ => Iff.rfl⟩
  have hlaw := (references_followed hhost hprogram hmoment hs hserves).2 referring hfollows ⟨0⟩ a ha
  have hbound : s.pool.isBound ⟨0⟩ ⟨0x40000008, by decide, by decide⟩ = true := by
    rw [hpool]
    decide +kernel
  have hlives : s.pool.contains ⟨1⟩ = true := by
    rw [hpool]
    decide +kernel
  exact ⟨w, _, rfl, hlaw.bound hrefs hcell.1 hcell.2 (by decide +kernel) hbound hlives⟩

end Machine

end Interpose

import Interpose.Proofs.CallbackRouting
import Interpose.Proofs.Mirroring

/-!
# A hook layer behind which nothing is seen

A world with a hook layer is held against a world whose slots hold the machine's own entries. To unaware code the two look
the same (`World.Veils`): some of the hooks may be in their slots, but the layer follows no references and answers no
callbacks; and an instance may have another callback, but then the layer keeps the one that it has in the other world.

Every operation of unaware code keeps the two so and answers the same in both. A detour asks the machine's own entry and
makes nothing else of what it answers: addresses below those of pooled strings lead to no string, names belong to no
callback, and the layer knows the length of nothing in memory.

Main statement: `World.likeness_veils`, for the operations of unaware code.
-/

namespace Interpose

variable {σ α : Type}

/-! ## Instances and their callbacks -/

namespace Instance

variable {a : Instance} {c : Callback}

theorem restore_withCallback (a : Instance) (c : Callback) (i : InstanceId) (token : Token) :
    (a.withCallback c).restore i token = ((a.restore i token).1, (a.restore i token).2.withCallback c) := by
  unfold restore
  split <;> rfl

theorem natives_restore (a : Instance) (i : InstanceId) (token : Token) : (a.restore i token).2.natives = a.natives := by
  unfold restore
  split <;> rfl

theorem release_withCallback (a : Instance) (c : Callback) (hea : Cell) :
    (a.withCallback c).release hea = (a.release hea).withCallback c := by
  show (if 0 ≤ hea ∧ hea < a.registers.hea then _ else _) = _
  unfold release
  split <;> rfl

theorem natives_release (a : Instance) (hea : Cell) : (a.release hea).natives = a.natives := by
  unfold release
  split <;> rfl

theorem allot?_withCallback (a : Instance) (c : Callback) (cells : Nat) :
    (a.withCallback c).allot? cells = (a.allot? cells).map fun r => (r.1, r.2.withCallback c) := by
  unfold allot?
  cases (Cell.ofNat? cells).bind fun c => c.mul? Cell.bytes with
  | none => rfl
  | some bytes =>
    simp only [withCallback]
    cases hlimit : a.registers.hea.add? bytes with
    | none => simp
    | some limit =>
      by_cases hstack : a.registers.stk < limit
      · simp [hstack, raise]
      · cases hstart : heapIndex? a.registers.hea with
        | none => simp [hstack]
        | some start =>
          cases hmemory : Buffer.overwrite? a.memory start (List.replicate cells 0) <;> simp [hstack, hmemory]

theorem natives_allot? {a : Instance} {cells : Nat} {r : Except Status Cell × Instance} (h : a.allot? cells = some r) :
    r.2.natives = a.natives := by
  unfold allot? at h
  split at h
  · cases h
    rfl
  · split at h
    · cases h
      rfl
    · split at h
      · cases h
        rfl
      · obtain ⟨start, -, h⟩ := Option.bind_eq_some_iff.1 h
        obtain ⟨memory, -, h⟩ := Option.bind_eq_some_iff.1 h
        cases h
        rfl

theorem allocCells?_withCallback (a : Instance) (c : Callback) (cells : List Cell) :
    (a.withCallback c).allocCells? cells = (a.allocCells? cells).map fun r => (r.1, r.2.withCallback c) := by
  unfold allocCells?
  rw [allot?_withCallback]
  cases a.allot? (cells.length + 1) with
  | none => rfl
  | some r =>
    obtain ⟨answer, b⟩ := r
    cases answer with
    | error s => rfl
    | ok address =>
      cases hstart : heapIndex? address with
      | none => simp [hstart]
      | some start =>
        cases hmemory : Buffer.overwrite? b.memory start cells <;> simp [hstart, withCallback, hmemory]

theorem natives_allocCells? {a : Instance} {cells : List Cell} {r : Except Status Cell × Instance}
    (h : a.allocCells? cells = some r) : r.2.natives = a.natives := by
  unfold allocCells? at h
  obtain ⟨⟨answer, b⟩, hallot, h⟩ := Option.bind_eq_some_iff.1 h
  have hb : b.natives = a.natives := natives_allot? hallot
  cases answer with
  | error s =>
    cases h
    exact hb
  | ok address =>
    obtain ⟨start, -, h⟩ := Option.bind_eq_some_iff.1 h
    obtain ⟨memory, -, h⟩ := Option.bind_eq_some_iff.1 h
    cases h
    exact hb

end Instance

namespace Act

open World

variable {k : SubsystemId} {w : World σ} {s : Subsystem} {i : InstanceId} {address : Cell} {name : String} {p : Place}

/-- Where nobody answers callbacks, no name belongs to one. -/
theorem callbackId_unsupported (ids : CallbackIds σ) (i : InstanceId) (name : String) (hs : w.subsystem? k = some s)
    (hevents : s.collaborators.events = .unsupported) :
    callbackId ids k i name w = some (none, w.record (.lookedUp k i name none)) := by
  have hget : getSubsystem k w = some (s, w) := congrArg (Option.map _) hs
  unfold callbackId
  rw [bind_of_some hget, hevents]
  rfl

/-- A layer that follows no references makes nothing of an address below those of pooled strings. -/
theorem virtualize_below (hs : w.subsystem? k = some s) (hrefs : s.refArgs = false) (haddress : address < Address.base)
    (r : Except Status Place) : virtualize k i address r w = some (r, w) := by
  have hget : getSubsystem k w = some (s, w) := congrArg (Option.map _) hs
  have hnone : s.pool.resolve? i address = none := by
    rw [Pool.resolve?, Address.decode?_of_lt haddress]
    rfl
  have hpool := resolvePooled_none hs (Address.not_isNull_of_lt haddress) hnone
  cases r with
  | ok p =>
    show (getSubsystem k >>= _) w = _
    rw [bind_of_some hget, hrefs]
    rfl
  | error e =>
    cases e with
    | memoryAccess =>
      show (resolvePooled k i address >>= _) w = _
      rw [bind_of_some hpool]
      rfl
    | _ => rfl

theorem measurePlain_memory (i : InstanceId) (index : Nat) (w : World σ) : measurePlain (.memory i index) w =
    (w.instance? i).bind fun a => (Buffer.terminated? (a.memory.drop index)).map fun n => (n, w) := by
  rw [measurePlain_eq, cellsAt?]
  cases w.instance? i <;> rfl

end Act

/-- A layer that follows no references and answers no callbacks, with hooks over the machine's own entries. -/
structure Subsystem.Sheer (k : SubsystemId) (slots : PerExport Entry) (s : Subsystem) : Prop where
  owned : s.owned = true
  refArgs : s.refArgs = false
  events : s.collaborators.events = .unsupported
  sound : ∀ x, Mount.Sound k ⟨s.hooks.get x, slots.get x⟩

namespace World

/-- What is seen of the first world is seen of the second, behind a hook layer. The layer may have taken callbacks of
instances that are `kept`; what `own` tells are the callbacks that instances have in the first world. -/
structure Veils (k : SubsystemId) (own : InstanceId → Option Callback) (kept : InstanceId → Prop) (w w' : World σ) :
    Prop where
  plain : w.exports = .const .plain
  looks : w.LooksLike w'
  natives : ∀ i a, w.instance? i = some a → ∀ n ∈ a.natives, n.2.isHost = true
  callbacks : ∀ i, w.callback? i = own i
  proper : ∀ i l, own i ≠ some (.intercept l)
  taken : ∀ i c, own i = some c → w'.callback? i = some c ∧ w'.saved? k i = none ∨
    w'.callback? i = some (.intercept k) ∧ w'.saved? k i = some c ∧ kept i
  layer : ∃ s, w'.subsystem? k = some s ∧ s.Sheer k w'.exports

variable {k : SubsystemId} {own : InstanceId → Option Callback} {kept : InstanceId → Prop} {w w' v v' : World σ}
  {i : InstanceId} {a : Instance} {c : Callback} {s : Subsystem} {address : Cell}

namespace Veils

theorem entry_plain (h : Veils k own kept w w') (x : Export) : w.entry x = .plain := by
  show (w.exports.get x).effective _ = _
  rw [h.plain, PerExport.get_const]
  rfl

/-- A call in the second world reaches the machine's own entry or the layer. -/
theorem entry_cases (h : Veils k own kept w w') (x : Export) :
    w'.entry x = .plain ∨ ∃ s, Served k x s w' ∧ s.Sheer k w'.exports := by
  obtain ⟨s, hs, hsheer⟩ := h.layer
  rcases served_or_plain hs (hsheer.sound x) with ⟨-, hserved⟩ | ⟨-, hplain⟩
  · exact .inr ⟨s, hserved, hsheer⟩
  · exact .inl hplain

/-! ## Instances -/

/-- The same is done to an instance in both worlds. -/
theorem setInstance (h : Veils k own kept w w') (ha : w.instance? i = some a)
    (ha' : w'.instance? i = some (a.withCallback c)) {b : Instance} (hcallback : b.callback = a.callback)
    (hnatives : b.natives = a.natives) :
    Veils k own kept (w.setInstance i b) (w'.setInstance i (b.withCallback c)) where
  plain := h.plain
  looks := by
    refine ⟨h.looks.host, fun j => ?_⟩
    rw [instance?_setInstance ha, instance?_setInstance ha']
    split
    · rfl
    · exact h.looks.instances j
  natives j a' hj n hn := by
    rw [instance?_setInstance ha] at hj
    split at hj
    · cases hj
      exact h.natives i a ha n (hnatives ▸ hn)
    · exact h.natives j a' hj n hn
  callbacks j := by
    rw [callback?_setInstance ha, ← h.callbacks j]
    split
    · rename_i hj
      rw [hj, World.callback?, ha, hcallback]
      rfl
    · rfl
  proper := h.proper
  taken j d hd := by
    have hj : (w'.setInstance i (b.withCallback c)).callback? j = w'.callback? j := by
      rw [callback?_setInstance ha']
      split
      · rename_i hj
        rw [hj, World.callback?, ha']
        rfl
      · rfl
    rw [hj]
    exact h.taken j d hd
  layer := h.layer

/-- What is done to an instance without regard to its callback has the same answer in both worlds. -/
theorem onInstance? (h : Veils k own kept w w') {f : Instance → Option (α × Instance)}
    (hf : ∀ a c, f (a.withCallback c) = (f a).map fun r => (r.1, r.2.withCallback c))
    (hnatives : ∀ a r, f a = some r → r.2.natives = a.natives) :
    (Act.onInstance? i f).Mirrors w w' fun _ => Veils k own kept := by
  intro r v he
  obtain ⟨a, ha, he⟩ := Option.bind_eq_some_iff.1 he
  obtain ⟨⟨r, b⟩, hr, heq⟩ := Option.map_eq_some_iff.1 he
  cases heq
  obtain ⟨c, ha'⟩ := h.looks.instance? ha
  -- putting the callback back that is there changes nothing, so the result has that one too
  have hcallback : b.callback = a.callback := by
    have hself := hf a a.callback
    rw [show a.withCallback a.callback = a from rfl, hr] at hself
    exact congrArg (·.2.callback) (Option.some.inj hself)
  refine ⟨w'.setInstance i (b.withCallback c), ?_, h.setInstance ha ha' hcallback (hnatives a _ hr)⟩
  show (w'.instance? i).bind _ = _
  rw [ha', Option.bind_some, hf, hr]
  rfl

theorem onInstance (h : Veils k own kept w w') {f : Instance → α × Instance}
    (hf : ∀ a c, f (a.withCallback c) = ((f a).1, (f a).2.withCallback c)) (hnatives : ∀ a, (f a).2.natives = a.natives) :
    (Act.onInstance i f).Mirrors w w' fun _ => Veils k own kept := by
  have hsome : (Act.onInstance i f : Act σ α) = Act.onInstance? i fun a => some (f a) := by
    funext w
    show (w.instance? i).map _ = (w.instance? i).bind _
    cases w.instance? i <;> rfl
  rw [hsome]
  refine h.onInstance? (fun a c => ?_) fun a r hr => ?_
  · rw [hf]
    rfl
  · cases hr
    exact hnatives a

/-- What an instance is asked without regard to its callback has the same answer in both worlds. -/
theorem reading (h : Veils k own kept w w') {f : Instance → α} (hf : ∀ a c, f (a.withCallback c) = f a) :
    (do
      let a ← Act.getInstance i
      pure (f a) : Act σ α).Mirrors w w' fun _ => Veils k own kept := by
  intro r v he
  obtain ⟨⟨a, u⟩, hget, heq⟩ := Option.bind_eq_some_iff.1 he
  obtain ⟨a₀, ha, hsame⟩ := Option.map_eq_some_iff.1 hget
  cases hsame
  cases heq
  obtain ⟨c, ha'⟩ := h.looks.instance? ha
  have hget' : Act.getInstance i w' = some (a.withCallback c, w') := congrArg (Option.map _) ha'
  refine ⟨w', ?_, h⟩
  rw [Act.bind_of_some hget', hf]
  rfl

/-! ## The journal -/

theorem record (h : Veils k own kept w w') (e : Event) :
    (Act.record e : Act σ Unit).Mirrors w w' fun _ => Veils k own kept := by
  intro r v he
  cases he
  exact ⟨w'.record e, rfl, h.plain, ⟨h.looks.host, h.looks.instances⟩, h.natives, h.callbacks, h.proper, h.taken, h.layer⟩

/-- What happens behind the layer is not seen. -/
theorem recorded (h : Veils k own kept w w') (e : Event) : Veils k own kept w (w'.record e) :=
  ⟨h.plain, ⟨h.looks.host, h.looks.instances⟩, h.natives, h.callbacks, h.proper, h.taken, h.layer⟩

/-! ## Names -/

theorem lookup (h : Veils k own kept w w') (ids : CallbackIds σ) (name : String) :
    (Act.lookup ids i name).Mirrors w w' fun _ => Veils k own kept := by
  intro r v he
  have hplain : Act.lookup ids i name w = _ := Act.lookupWithin_plain ids (h.entry_plain .lookup) w.subsystems.size
  obtain ⟨a, ha, eq⟩ := Option.map_eq_some_iff.1 (hplain.symm.trans he)
  cases eq
  obtain ⟨c, ha'⟩ := h.looks.instance? ha
  rcases h.entry_cases .lookup with hentry | ⟨s, hserved, hsheer⟩
  · refine ⟨w', ?_, h⟩
    exact (Act.lookupWithin_plain ids hentry w'.subsystems.size).trans (congrArg (Option.map _) ha')
  · -- the layer is asked first, and knows no callback by that name
    have hask := Act.callbackId_unsupported ids i name hserved.layer hsheer.events
    exact ⟨_, Act.lookup_past (a := a.withCallback c) ids hserved hask ha', h.recorded _⟩

/-! ## Memory -/

/-- An address leads to the same place in both worlds. -/
theorem resolve (h : Veils k own kept w w') (haddress : address < Address.base) :
    (Act.resolve i address).Mirrors w w' fun r v v' =>
      Veils k own kept v v' ∧ ∀ p, r = .ok p → ∃ index, p = .memory i index := by
  intro r v he
  have hplain : Act.resolve i address w = _ := Act.resolveWithin_plain (h.entry_plain .resolve) w.subsystems.size
  obtain ⟨a, ha, eq⟩ := Option.map_eq_some_iff.1 (hplain.symm.trans he)
  cases eq
  obtain ⟨c, ha'⟩ := h.looks.instance? ha
  have hmemory : ∀ p, a.place i address = .ok p → ∃ index, p = .memory i index := by
    intro p hp
    unfold Instance.place at hp
    split at hp
    · rename_i index _
      exact ⟨index, (Except.ok.inj hp).symm⟩
    · cases hp
  refine ⟨w', ?_, h, hmemory⟩
  -- the detour of the layer makes nothing else of what the machine's own entry answers
  rcases h.entry_cases .resolve with hentry | ⟨s, hserved, hsheer⟩
  · exact (Act.resolveWithin_plain hentry w'.subsystems.size).trans (congrArg (Option.map _) ha')
  · rw [Act.resolve_past hserved ha']
    exact Act.virtualize_below hserved.layer hsheer.refArgs haddress (a.place i address)

theorem cellsAt (h : Veils k own kept w w') (i : InstanceId) (index : Nat) :
    (Act.cellsAt (.memory i index)).Mirrors w w' fun _ => Veils k own kept := by
  intro r v he
  obtain ⟨cells, hcells, eq⟩ := Option.map_eq_some_iff.1 he
  cases eq
  obtain ⟨a, ha, rfl⟩ := Option.map_eq_some_iff.1 hcells
  obtain ⟨c, ha'⟩ := h.looks.instance? ha
  refine ⟨w', ?_, h⟩
  show ((w'.instance? i).map _).map _ = _
  rw [ha']
  rfl

theorem cellAt (h : Veils k own kept w w') (i : InstanceId) (index : Nat) :
    (Act.cellAt (.memory i index)).Mirrors w w' fun _ => Veils k own kept :=
  .bind ((h.cellsAt i index).mono fun _ _ _ hv => .ofOption fun _ _ => hv)

/-- The layer knows the length of no string in memory. -/
theorem measure (h : Veils k own kept w w') (i : InstanceId) (index : Nat) :
    (Act.measure (.memory i index)).Mirrors w w' fun _ => Veils k own kept := by
  intro r v he
  have hplain : Act.measure (.memory i index) w = _ :=
    Act.measureWithin_plain (h.entry_plain .measure) w.subsystems.size
  rw [hplain, Act.measurePlain_memory] at he
  obtain ⟨a, ha, he⟩ := Option.bind_eq_some_iff.1 he
  obtain ⟨length, hlength, eq⟩ := Option.map_eq_some_iff.1 he
  cases eq
  obtain ⟨c, ha'⟩ := h.looks.instance? ha
  refine ⟨w', ?_, h⟩
  rcases h.entry_cases .measure with hentry | ⟨s, hserved, -⟩
  · refine (Act.measureWithin_plain hentry w'.subsystems.size).trans ?_
    rw [Act.measurePlain_memory, ha']
    exact congrArg (Option.map fun n => (n, w')) hlength
  · exact Act.measure_unknown hserved rfl (congrArg (Option.map _) ha') hlength

theorem writeAt (h : Veils k own kept w w') (i : InstanceId) (index : Nat) (cells : List Cell) :
    (Act.writeAt (.memory i index) cells).Mirrors w w' fun _ => Veils k own kept := by
  refine h.onInstance? (fun a c => ?_) fun a r hr => ?_
  · show (Buffer.overwrite? a.memory index cells).map _ = ((Buffer.overwrite? a.memory index cells).map _).map _
    rw [Option.map_map]
    rfl
  · obtain ⟨memory, -, rfl⟩ := Option.map_eq_some_iff.1 hr
    rfl

/-- What is done at the place of an address is the same in both worlds, if it is the same at places in memory. -/
theorem resolved (h : Veils k own kept w w') (haddress : address < Address.base)
    {next : Except Status Place → Act σ (Except Status α)}
    (herror : ∀ s, next (.error s) = pure (.error s))
    (hplace : ∀ {v v'}, Veils k own kept v v' → ∀ index,
      (next (.ok (.memory i index))).Mirrors v v' fun _ => Veils k own kept) :
    (Act.resolve i address >>= next).Mirrors w w' fun _ => Veils k own kept := by
  refine .bind ((h.resolve haddress).mono fun r v v' hv => ?_)
  cases r with
  | error s =>
    rw [herror]
    exact .pure hv.1
  | ok p =>
    obtain ⟨index, rfl⟩ := hv.2 p rfl
    exact hplace hv.1 index

theorem peek (h : Veils k own kept w w') (haddress : address < Address.base) :
    (Act.peek i address).Mirrors w w' fun _ => Veils k own kept :=
  h.resolved haddress (fun _ => rfl) fun hv index => .bind ((hv.cellAt i index).mono fun _ _ _ hv => .pure hv)

theorem poke (h : Veils k own kept w w') (haddress : address < Address.base) (c : Cell) :
    (Act.poke i address c).Mirrors w w' fun _ => Veils k own kept :=
  h.resolved haddress (fun _ => rfl) fun hv index => .bind ((hv.writeAt i index [c]).mono fun _ _ _ hv => .pure hv)

theorem stringLength (h : Veils k own kept w w') (haddress : address < Address.base) :
    (Act.stringLength i address).Mirrors w w' fun _ => Veils k own kept :=
  h.resolved haddress (fun _ => rfl) fun hv index => .bind ((hv.measure i index).mono fun _ _ _ hv => .pure hv)

theorem readString (h : Veils k own kept w w') (haddress : address < Address.base) :
    (Act.readString i address).Mirrors w w' fun _ => Veils k own kept := by
  refine h.resolved haddress (fun _ => rfl) fun hv index => ?_
  refine .bind ((hv.measure i index).mono fun length _ _ hv => ?_)
  refine .bind ((hv.cellsAt i index).mono fun cells _ _ hv => ?_)
  exact .bind (.ofOption fun text _ => .pure hv)

theorem readCells (h : Veils k own kept w w') (haddress : address < Address.base) (count : Nat) :
    (Act.readCells i address count).Mirrors w w' fun _ => Veils k own kept := by
  unfold Act.readCells
  split
  · exact .pure h
  · refine h.resolved haddress (fun _ => rfl) fun hv index => ?_
    refine .bind ((hv.cellsAt i index).mono fun cells _ _ hv => ?_)
    exact .bind (.ofOption fun first _ => .pure hv)

theorem writeString (h : Veils k own kept w w') (haddress : address < Address.base) (cells : List Cell)
    (capacity : Nat) : (Act.writeString i address cells capacity).Mirrors w w' fun _ => Veils k own kept := by
  unfold Act.writeString
  split
  · exact .pure h
  · exact h.resolved haddress (fun _ => rfl) fun hv index =>
      .bind ((hv.writeAt i index _).mono fun _ _ _ hv => .pure hv)

end Veils

/-! ## Operations of unaware code -/

theorem likeness_veils : Likeness (Veils k own kept : World σ → World σ → Prop) where
  looks h := h.looks
  natives h i a ha := h.natives i a ha
  remember h change :=
    ⟨h.plain, ⟨congrArg change h.looks.host, h.looks.instances⟩, h.natives, h.callbacks, h.proper, h.taken, h.layer⟩
  perform h ids resume o ho := by
    cases o with
    | findNative i name => exact h.reading fun _ _ => rfl
    | readRegisters i => exact h.reading fun _ _ => rfl
    | lookup i name => exact h.lookup ids name
    | setRegister i r c => exact h.onInstance (fun _ _ => rfl) fun _ => rfl
    | clearError i => exact h.onInstance (fun _ _ => rfl) fun _ => rfl
    | raise i s => exact h.onInstance (fun _ _ => rfl) fun _ => rfl
    | restore i token => exact h.onInstance (fun a c => Instance.restore_withCallback ..) fun a => Instance.natives_restore ..
    | release i hea =>
      exact h.onInstance (fun a c => congrArg (Prod.mk ()) (Instance.release_withCallback ..)) fun a =>
        Instance.natives_release ..
    | allot i cells => exact h.onInstance? (fun a c => Instance.allot?_withCallback ..) fun a r => Instance.natives_allot?
    | allocCells i cells =>
      exact h.onInstance? (fun a c => Instance.allocCells?_withCallback ..) fun a r => Instance.natives_allocCells?
    | mark number => exact h.record _
    | notify n => exact h.record _
    | peek i address => exact h.peek (of_decide_eq_true ho)
    | poke i address c => exact h.poke (of_decide_eq_true ho) c
    | stringLength i address => exact h.stringLength (of_decide_eq_true ho)
    | readString i address => exact h.readString (of_decide_eq_true ho)
    | readCells i address count => exact h.readCells (of_decide_eq_true ho) count
    | writeString i address cells capacity => exact h.writeString (of_decide_eq_true ho) cells capacity
    | _ => cases ho

end World

end Interpose

import Interpose.Proofs.MemoryHooks

/-!
# Reading pooled strings

An instance reads a string in three steps: the address is resolved to a place, the string there is measured, and that many
cells are taken. With a hook layer in both slots, the machine's own entry is asked first and knows nothing of an address
that lies above all memory; then the pool is asked, whether the instance has bound the address. The string that is resolved
is remembered, so the layer knows its length and need not look for a zero; and nothing comes in between, so the length is
that of this string as it is now.

So what is read depends on the pool alone, and of the pool on which addresses are bound. What was resolved or written
before does not matter, and neither does the layer's following of references, since the machine's own entry fails.

Main statement: `Machine.pooled_strings_read`, what every instance reads at every moment of a run with one hook layer.
-/

namespace Interpose

variable {σ α : Type}

/-! ## A hook out of its slot and back -/

namespace PerExport

theorem set_set (t : PerExport α) (a b : α) (x : Export) : (t.set a x).set b x = t.set b x := by
  cases x <;> rfl

theorem set_get (t : PerExport α) (x : Export) : t.set (t.get x) x = t := by
  cases x <;> rfl

end PerExport

/-- A hook that is taken out of its slot and put back is where it was. -/
theorem Mount.Sound.reattach_detach {k : SubsystemId} {m : Mount} (h : m.Sound k) (ha : m.hook.attached = true) :
    m.detach.1 = true ∧ m.detach.2.slot = .plain ∧ m.detach.2.reattach = m := by
  obtain ⟨⟨replaced, detour, wanted, attached⟩, slot⟩ := m
  obtain ⟨hreplaced, hdetour, hwanted, hslot⟩ := h
  dsimp only at ha hreplaced hdetour hwanted hslot
  subst ha hreplaced hdetour
  rw [hslot, hwanted rfl]
  exact ⟨rfl, rfl, rfl⟩

/-- Whether a hook was in its slot or not, it is where it was once it has been given back. -/
theorem Mount.Sound.giveBack_detach {k : SubsystemId} {m : Mount} (h : m.Sound k) :
    m.detach.2.giveBack m.detach.1 = m := by
  cases ha : m.hook.attached with
  | true =>
    obtain ⟨htook, -, hback⟩ := h.reattach_detach ha
    rw [htook, Mount.giveBack, if_pos rfl, hback]
  | false =>
    unfold Mount.detach
    rw [ha]
    rfl

namespace World

variable {k : SubsystemId} {x : Export} {w : World σ} {s : Subsystem} {m : Mount}

theorem setSubsystem_self (h : w.subsystem? k = some s) : w.setSubsystem k s = w := by
  obtain ⟨hsize, hs⟩ := Array.getElem?_eq_some_iff.1 h
  simp [setSubsystem, Array.setIfInBounds, hsize, ← hs]

/-- The world with a hook and its slot changed. -/
def remount (w : World σ) (k : SubsystemId) (x : Export) (s : Subsystem) (m : Mount) : World σ :=
  { w.setSubsystem k { s with hooks := s.hooks.set m.hook x } with exports := w.exports.set m.slot x }

theorem onMount_eq_remount (h : w.subsystem? k = some s) (f : Mount → α × Mount) : Act.onMount k x f w =
    some ((f ⟨s.hooks.get x, w.exports.get x⟩).1, w.remount k x s (f ⟨s.hooks.get x, w.exports.get x⟩).2) := by
  show (w.subsystem? k).map _ = _
  rw [h]
  rfl

theorem subsystem?_remount (h : w.subsystem? k = some s) (m : Mount) :
    (w.remount k x s m).subsystem? k = some { s with hooks := s.hooks.set m.hook x } :=
  (subsystem?_setSubsystem h _ k).trans (if_pos rfl)

theorem mount_remount (w : World σ) (s : Subsystem) (m : Mount) :
    (⟨(s.hooks.set m.hook x).get x, (w.remount k x s m).exports.get x⟩ : Mount) = m := by
  show (⟨(s.hooks.set m.hook x).get x, (w.exports.set m.slot x).get x⟩ : Mount) = m
  rw [PerExport.get_set, PerExport.get_set, if_pos rfl, if_pos rfl]

theorem remount_remount (w : World σ) (s : Subsystem) (m m' : Mount) :
    (w.remount k x s m).remount k x { s with hooks := s.hooks.set m.hook x } m' = w.remount k x s m' := by
  simp [remount, setSubsystem, PerExport.set_set]

theorem remount_self (h : w.subsystem? k = some s) : w.remount k x s ⟨s.hooks.get x, w.exports.get x⟩ = w := by
  unfold remount
  rw [PerExport.set_get, PerExport.set_get, setSubsystem_self h]

/-- What can be read at a place has nothing to do with hooks. -/
theorem cellsAt?_remount (h : w.subsystem? k = some s) (m : Mount) (p : Place) :
    (w.remount k x s m).cellsAt? p = w.cellsAt? p := by
  have hlayers : ∀ l, (w.remount k x s m).subsystem? l = if l = k then some { s with hooks := s.hooks.set m.hook x }
      else w.subsystem? l := subsystem?_setSubsystem h _
  cases p with
  | memory i index => rfl
  | null l =>
    rw [cellsAt?, cellsAt?, hlayers]
    by_cases hl : l = k
    · rw [if_pos hl, hl, h]
      rfl
    · rw [if_neg hl]
  | pooled l id part =>
    rw [cellsAt?, cellsAt?, hlayers]
    by_cases hl : l = k
    · rw [if_pos hl, hl, h]
      rfl
    · rw [if_neg hl]

/-- With its hook out of the slot, a call that leaves everything as it is, is passed on with everything as it was. -/
theorem pastHook_of_sound (h : w.subsystem? k = some s) (hm : Mount.Sound k ⟨s.hooks.get x, w.exports.get x⟩)
    {call : Act σ α} {a : α}
    (hcall : call (w.remount k x s (Mount.detach ⟨s.hooks.get x, w.exports.get x⟩).2) =
      some (a, w.remount k x s (Mount.detach ⟨s.hooks.get x, w.exports.get x⟩).2)) :
    Act.pastHook k x call w = some (a, w) := by
  -- the hook is taken out, the call finds the world so and leaves it so, and the hook is put back
  have hborrow : Act.borrow k x w = some ((Mount.detach ⟨s.hooks.get x, w.exports.get x⟩).1,
      w.remount k x s (Mount.detach ⟨s.hooks.get x, w.exports.get x⟩).2) := onMount_eq_remount h Mount.detach
  have hgiveBack : Act.giveBack k x (Mount.detach ⟨s.hooks.get x, w.exports.get x⟩).1
      (w.remount k x s (Mount.detach ⟨s.hooks.get x, w.exports.get x⟩).2) = some ((), w) := by
    refine (onMount_eq_remount (subsystem?_remount h _) _).trans ?_
    dsimp only
    rw [mount_remount, hm.giveBack_detach, remount_remount, remount_self h]
  unfold Act.pastHook
  rw [Act.bind_of_some hborrow, Act.bind_of_some hcall, Act.bind_of_some hgiveBack]
  rfl

/-- The hook of an export is in its slot, and its layer is not gone. -/
structure Served (k : SubsystemId) (x : Export) (s : Subsystem) (w : World σ) : Prop where
  layer : w.subsystem? k = some s
  alive : s.alive = true
  sound : Mount.Sound k ⟨s.hooks.get x, w.exports.get x⟩
  attached : (s.hooks.get x).attached = true

namespace Served

/-- The world while the hook is out of its slot. -/
def out (_ : Served k x s w) : World σ :=
  w.remount k x s (Mount.detach ⟨s.hooks.get x, w.exports.get x⟩).2

/-- A call through the export reaches the layer. -/
theorem entry (h : Served k x s w) : w.entry x = .detour k .plain := by
  have halive : w.isAlive k = true := by
    unfold World.isAlive
    rw [h.layer]
    exact h.alive
  have hslot := h.sound.slot
  rw [h.attached] at hslot
  show (w.exports.get x).effective w.isAlive = _
  rw [show w.exports.get x = .detour k .plain from hslot, Entry.effective, if_pos halive]

theorem entry_out (h : Served k x s w) : h.out.entry x = .plain := by
  have hslot := (h.sound.reattach_detach h.attached).2.1
  show ((w.exports.set _ x).get x).effective _ = _
  rw [PerExport.get_set, if_pos rfl, hslot]
  rfl

/-- A call that leaves everything as it is, is passed on with everything as it was. -/
theorem pastHook (h : Served k x s w) {call : Act σ α} {a : α} (hcall : call h.out = some (a, h.out)) :
    Act.pastHook k x call w = some (a, w) :=
  pastHook_of_sound h.layer h.sound hcall

/-- So is one that has no answer then. -/
theorem pastHook_none (h : Served k x s w) {call : Act σ α} (hcall : call h.out = none) :
    Act.pastHook k x call w = none := by
  have hborrow : Act.borrow k x w = some ((Mount.detach ⟨s.hooks.get x, w.exports.get x⟩).1, h.out) :=
    onMount_eq_remount h.layer Mount.detach
  unfold Act.pastHook
  rw [Act.bind_of_some hborrow]
  show Option.bind (call h.out) _ = none
  rw [hcall]
  rfl

/-- The hook stays in its slot when the pool changes. -/
theorem setPool (h : Served k x s w) (q : Pool) :
    Served k x { s with pool := q } (w.setSubsystem k { s with pool := q }) :=
  ⟨(subsystem?_setSubsystem h.layer _ k).trans (if_pos rfl), h.alive, h.sound, h.attached⟩

end Served

/-- A call through an export reaches the layer if its hook is in the slot and it is not gone, or else the machine's own
entry. -/
theorem served_or_plain (hs : w.subsystem? k = some s) (hm : Mount.Sound k ⟨s.hooks.get x, w.exports.get x⟩) :
    (s.alive = true ∧ (s.hooks.get x).attached = true) ∧ Served k x s w ∨
      ¬ (s.alive = true ∧ (s.hooks.get x).attached = true) ∧ w.entry x = .plain := by
  by_cases hreached : s.alive = true ∧ (s.hooks.get x).attached = true
  · exact .inl ⟨hreached, hs, hreached.1, hm, hreached.2⟩
  · refine .inr ⟨hreached, ?_⟩
    show (w.exports.get x).effective w.isAlive = .plain
    rw [show w.exports.get x = _ from hm.slot]
    split
    · -- the layer is gone, and its detour passes everything on
      rename_i hattached
      have hgone : w.isAlive k = false := by
        unfold World.isAlive
        rw [hs]
        exact Bool.eq_false_iff.2 fun halive => hreached ⟨halive, hattached⟩
      rw [Entry.effective, if_neg (by simp [hgone])]
      rfl
    · rfl

end World

/-- Whether calls through an export reach the layer as long as no call is being passed on. -/
def Subsystem.serves (s : Subsystem) (x : Export) : Bool :=
  s.alive && (s.hooks.get x).wanted

/-- In a tended world in which no hook is out, a call reaches the layer exactly if its hook is switched on. -/
theorem World.Tended.served_or_plain {actions : List Pool.Action} {k : SubsystemId} {x : Export} {w : World σ}
    {s : Subsystem} (h : w.Tended k (fun _ => False) actions) (hs : w.subsystem? k = some s) (hx : x ≠ .exec) :
    s.serves x = true ∧ World.Served k x s w ∨ s.serves x = false ∧ w.entry x = .plain := by
  obtain ⟨hsound, hsettled⟩ := (h.of_subsystem? hs).1 x hx
  have hattached : (s.hooks.get x).attached = (s.hooks.get x).wanted := hsettled not_false
  have hserves : s.serves x = true ↔ s.alive = true ∧ (s.hooks.get x).attached = true := by
    rw [Subsystem.serves, Bool.and_eq_true, hattached]
  rcases World.served_or_plain hs hsound with ⟨hreached, hserved⟩ | ⟨hreached, hplain⟩
  · exact .inl ⟨hserves.2 hreached, hserved⟩
  · exact .inr ⟨Bool.eq_false_iff.2 fun h => hreached (hserves.1 h), hplain⟩

theorem World.Tended.served {actions : List Pool.Action} {k : SubsystemId} {x : Export} {w : World σ} {s : Subsystem}
    (h : w.Tended k (fun _ => False) actions) (hs : w.subsystem? k = some s) (hx : x ≠ .exec)
    (hserves : s.serves x = true) : World.Served k x s w := by
  rcases h.served_or_plain hs hx with ⟨-, hserved⟩ | ⟨hoff, -⟩
  · exact hserved
  · rw [hserves] at hoff
    cases hoff

/-! ## Resolving and measuring -/

/-- Where an address leads by the machine's own entry. -/
def Instance.place (a : Instance) (i : InstanceId) (address : Cell) : Except Status Place :=
  match a.cellIndex? address with
  | some index => .ok (.memory i index)
  | none => .error .memoryAccess

namespace Act

open World

variable {k : SubsystemId} {w w' : World σ} {s : Subsystem} {i : InstanceId} {a : Instance} {address : Cell} {p : Place}
  {n : Nat} {cells text : List Cell}

theorem get_eq (w : World σ) : (get : Act σ (World σ)) w = some (w, w) := rfl

/-- There is room for the detour and the entry behind it. -/
theorem size_eq (h : w.subsystem? k = some s) : ∃ n, w.subsystems.size = n + 1 := by
  obtain ⟨hsize, -⟩ := Array.getElem?_eq_some_iff.1 h
  exact ⟨w.subsystems.size - 1, by omega⟩

/-- Where the export leads to the machine's own entry, the memory of the instance is asked. -/
theorem resolveWithin_plain (hentry : w.entry .resolve = .plain) (n : Nat) :
    resolveWithin i address (n + 1) w = (w.instance? i).map fun a => (a.place i address, w) := by
  unfold resolveWithin
  rw [bind_of_some (get_eq w), hentry]
  show Option.bind ((w.instance? i).map _) _ = _
  cases w.instance? i with
  | none => rfl
  | some a =>
    show (match a.cellIndex? address with | some index => _ | none => _ : Act σ _) w = some (a.place i address, w)
    unfold Instance.place
    cases a.cellIndex? address <;> rfl

/-- The layer makes something of what the machine's own entry answers. -/
theorem resolve_past (h : Served k .resolve s w) (ha : w.instance? i = some a) :
    resolve i address w = virtualize k i address (a.place i address) w := by
  obtain ⟨n, hsize⟩ := size_eq h.layer
  have hplain : resolveWithin i address (n + 1) h.out = some (a.place i address, h.out) :=
    (resolveWithin_plain h.entry_out n).trans (congrArg (Option.map _) ha)
  unfold resolve
  rw [bind_of_some (get_eq w), hsize]
  unfold resolveWithin
  rw [bind_of_some (get_eq w), h.entry]
  exact bind_of_some (h.pastHook hplain)

/-- Where the machine's own entry knows nothing of an address, the layer decides. -/
theorem resolve_eq (h : Served k .resolve s w) (ha : w.instance? i = some a) (hbeyond : a.cellIndex? address = none) :
    resolve i address w = virtualize k i address (.error .memoryAccess) w := by
  rw [resolve_past h ha, Instance.place, hbeyond]

theorem onPool_eq (hs : w.subsystem? k = some s) (f : Pool → α × Pool) :
    onPool k f w = some ((f s.pool).1, w.setSubsystem k { s with pool := (f s.pool).2 }) :=
  congrArg (Option.map _) hs

theorem resolvePooled_null (hs : w.subsystem? k = some s) (hnull : Address.isNull address = true) :
    resolvePooled k i address w =
      some (some (.null k), w.setSubsystem k { s with pool := s.pool.resetNull }) := by
  unfold resolvePooled
  rw [if_pos hnull, onPool_eq hs]

theorem resolvePooled_bound {id : StringId} {part : Part} (hs : w.subsystem? k = some s)
    (hnull : Address.isNull address = false) (hresolve : s.pool.resolve? i address = some (id, part)) :
    resolvePooled k i address w =
      some (some (.pooled k id part), w.setSubsystem k { s with pool := s.pool.setCache id }) := by
  unfold resolvePooled
  rw [if_neg (by simp [hnull]), onPool_eq hs]
  simp only [hresolve]

theorem resolvePooled_none (hs : w.subsystem? k = some s) (hnull : Address.isNull address = false)
    (hresolve : s.pool.resolve? i address = none) : resolvePooled k i address w = some (none, w) := by
  unfold resolvePooled
  rw [if_neg (by simp [hnull]), onPool_eq hs]
  simp only [hresolve, setSubsystem_self hs]

/-- A place whose length the layer knows is not looked at. -/
theorem measure_known (h : Served k .measure s w) (hknown : knownLength s k p = some n) :
    measure p w = some (n, w) := by
  have hget : getSubsystem k w = some (s, w) := congrArg (Option.map _) h.layer
  unfold measure
  rw [bind_of_some (get_eq w)]
  unfold measureWithin
  rw [bind_of_some (get_eq w), h.entry]
  show (getSubsystem k >>= _) w = _
  rw [bind_of_some hget, hknown]
  rfl

/-- Where the export leads to the machine's own entry, the first zero is looked for. -/
theorem measureWithin_plain (hentry : w.entry .measure = .plain) (n : Nat) :
    measureWithin p (n + 1) w = measurePlain p w := by
  unfold measureWithin
  rw [bind_of_some (get_eq w), hentry]

/-- The machine's own entry reads, and that is all. -/
theorem measurePlain_eq (p : Place) (w : World σ) :
    measurePlain p w = ((w.cellsAt? p).bind Buffer.terminated?).map fun n => (n, w) := by
  show Option.bind ((w.cellsAt? p).map _) _ = _
  cases w.cellsAt? p with
  | none => rfl
  | some cells =>
    show ofOption (Buffer.terminated? cells) w = _
    rw [Option.bind_some]
    cases Buffer.terminated? cells <;> rfl

/-- At a place whose length the layer does not know, the string is measured as by the machine's own entry. -/
theorem measure_elsewhere (h : Served k .measure s w) (hknown : knownLength s k p = none) :
    measure p w = measurePlain p w := by
  obtain ⟨m, hsize⟩ := size_eq h.layer
  have hget : getSubsystem k w = some (s, w) := congrArg (Option.map _) h.layer
  -- with the hook out of its slot the machine's own entry looks for the zero
  have hout : measureWithin p (m + 1) h.out = ((w.cellsAt? p).bind Buffer.terminated?).map fun n => (n, h.out) := by
    rw [measureWithin_plain h.entry_out, measurePlain_eq, Served.out, cellsAt?_remount h.layer]
  have hpast : pastHook k .measure (measureWithin p (m + 1)) w = measurePlain p w := by
    rw [measurePlain_eq]
    cases hn : (w.cellsAt? p).bind Buffer.terminated? with
    | none => exact h.pastHook_none (hout.trans (congrArg (Option.map _) hn))
    | some n => exact h.pastHook (hout.trans (congrArg (Option.map _) hn))
  unfold measure
  rw [bind_of_some (get_eq w), hsize]
  unfold measureWithin
  rw [bind_of_some (get_eq w), h.entry]
  show (getSubsystem k >>= _) w = _
  rw [bind_of_some hget, hknown]
  exact hpast

theorem measure_unknown (h : Served k .measure s w) (hknown : knownLength s k p = none)
    (hcells : w.cellsAt? p = some cells) (hn : Buffer.terminated? cells = some n) : measure p w = some (n, w) := by
  rw [measure_elsewhere h hknown, measurePlain_eq, hcells, Option.bind_some, hn]
  rfl

/-- A string is resolved, measured, and read. -/
theorem readString_eq (hresolve : resolve i address w = some (.ok p, w')) (hmeasure : measure p w' = some (n, w'))
    (hcells : w'.cellsAt? p = some cells) (htext : Buffer.first? cells n = some text) :
    readString i address w = some (.ok text, w') := by
  have hcellsAt : cellsAt p w' = some (cells, w') := congrArg (Option.map _) hcells
  unfold readString
  rw [bind_of_some hresolve]
  show (measure p >>= _) w' = _
  rw [bind_of_some hmeasure, bind_of_some hcellsAt, htext]
  rfl

end Act

/-! ## Addresses above all memory -/

/-- By the machine's own entry, an address leads where it leads in the memory of the instance. -/
theorem Instance.resolvePlain_eq {w : World σ} {i : InstanceId} {a : Instance} (ha : w.instance? i = some a)
    (address : Cell) : Act.resolvePlain i address w = some (a.place i address, w) := by
  have hget : Act.getInstance i w = some (a, w) := congrArg (Option.map _) ha
  unfold Act.resolvePlain
  rw [Act.bind_of_some hget]
  unfold place
  cases a.cellIndex? address <;> rfl

theorem Instance.cellIndex?_eq_none {a : Instance} (hsize : 4 * a.memory.length ≤ 0x40000000) {address : Cell}
    (haddress : 0x40000000 ≤ address.val) : a.cellIndex? address = none := by
  unfold cellIndex?
  split
  · rfl
  · split
    · dsimp only
      rw [if_neg (by omega)]
    · rfl

namespace Address

variable {id : StringId} {part : Part} {address : Cell}

/-- The addresses of strings lie above the two of the null string. -/
theorem lt_of_decode? (h : decode? address = some (id, part)) : 0x40000004 < address.val := by
  obtain ⟨hid, haddress⟩ := decode?_eq_some.1 h
  cases part <;> simp only [place] at haddress <;> omega

theorem not_isNull_of_decode? (h : decode? address = some (id, part)) : isNull address = false := by
  have hlt := lt_of_decode? h
  simp only [isNull, base, Bool.or_eq_false_iff, beq_eq_false_iff_ne]
  omega

theorem le_of_isNull (h : isNull address = true) : 0x40000000 ≤ address.val := by
  simp only [isNull, base, Bool.or_eq_true, beq_iff_eq] at h
  omega

end Address

/-! ## What is read -/

/-- What is read at a part of a string: the cells in front of the terminator, for the record with the header. -/
def CellString.readable (t : CellString) : Part → List Cell
  | .view => t.cells
  | .record => t.record.dropLast

theorem CellString.first?_readable (t : CellString) (part : Part) :
    Buffer.first? (t.record.drop part.start) (t.readable part).length = some (t.readable part) := by
  -- behind what is read there is the terminator, and nothing else
  have hsplit : t.record.drop part.start = t.readable part ++ [t.terminator] := by
    cases part with
    | view => rfl
    | record =>
      show t.header :: t.cells ++ [t.terminator] = (t.header :: t.cells ++ [t.terminator]).dropLast ++ [t.terminator]
      rw [List.dropLast_concat]
  rw [hsplit, Buffer.first?]
  simp

theorem Pool.cachedLength?_setCache {q : Pool} {id : StringId} {t : CellString} (h : q.get? id = some t) (part : Part) :
    (q.setCache id).cachedLength? id part = some (t.readable part).length := by
  have hget : (q.setCache id).get? id = some t := h
  unfold cachedLength?
  rw [show (q.setCache id).cache = some id from rfl, Option.bind_some, if_pos rfl, hget]
  cases part <;> simp [CellString.readable, CellString.record, CellString.length]

namespace World

variable {k : SubsystemId} {w : World σ} {s : Subsystem} {i : InstanceId} {id : StringId} {part : Part} {address : Cell}

/-- All memory of an instance lies below the addresses of pooled strings. -/
def FitsBelow (w : World σ) (i : InstanceId) : Prop :=
  ∃ a, w.instance? i = some a ∧ 4 * a.memory.length ≤ 0x40000000

section

variable (hresolve : Served k .resolve s w) (hmeasure : Served k .measure s w) (hi : w.FitsBelow i)
include hresolve hi

omit hmeasure in
/-- An address of a string that the instance has not bound leads nowhere. -/
theorem resolve_of_none (haddress : Address.decode? address = some (id, part))
    (hnone : s.pool.resolve? i address = none) : Act.resolve i address w = some (.error .memoryAccess, w) := by
  obtain ⟨a, ha, hsize⟩ := hi
  have hlt := Address.lt_of_decode? haddress
  rw [Act.resolve_eq hresolve ha (a.cellIndex?_eq_none hsize (by omega))]
  exact Act.bind_of_some (Act.resolvePooled_none hresolve.layer (Address.not_isNull_of_decode? haddress) hnone)

include hmeasure

/-- An address that the instance has bound reads as the string is now. -/
theorem readString_of_some (hbound : s.pool.resolve? i address = some (id, part)) :
    ∃ t w', s.pool.get? id = some t ∧ Act.readString i address w = some (.ok (t.readable part), w') := by
  obtain ⟨a, ha, hsize⟩ := hi
  obtain ⟨haddress, -, hc⟩ := Pool.resolve?_eq_some.1 hbound
  obtain ⟨e, he⟩ := Pool.contains_iff.1 hc
  have hget : s.pool.get? id = some e.string := by rw [Pool.get?, he, Option.map_some]
  have hlt := Address.lt_of_decode? haddress
  have hplace : Act.resolve i address w =
      some (.ok (.pooled k id part), w.setSubsystem k { s with pool := s.pool.setCache id }) := by
    rw [Act.resolve_eq hresolve ha (a.cellIndex?_eq_none hsize (by omega))]
    exact Act.bind_of_some (Act.resolvePooled_bound hresolve.layer (Address.not_isNull_of_decode? haddress) hbound)
  -- the string was remembered when it was resolved
  have hserved := hmeasure.setPool (s.pool.setCache id)
  have hlength : Act.measure (.pooled k id part) (w.setSubsystem k { s with pool := s.pool.setCache id }) =
      some ((e.string.readable part).length, w.setSubsystem k { s with pool := s.pool.setCache id }) := by
    refine Act.measure_known hserved ?_
    rw [Act.knownLength, if_pos rfl]
    exact Pool.cachedLength?_setCache hget part
  have hcells : (w.setSubsystem k { s with pool := s.pool.setCache id }).cellsAt? (.pooled k id part) =
      some (e.string.record.drop part.start) := by
    have hsame : (s.pool.setCache id).get? id = some e.string := hget
    rw [cellsAt?, hserved.layer, Option.bind_some, hsame, Option.map_some]
  exact ⟨e.string, _, hget, Act.readString_eq hplace hlength hcells (e.string.first?_readable part)⟩

/-- The null string is empty, whatever was written to its buffer: that is emptied whenever its address is resolved. -/
theorem readString_null (hnull : Address.isNull address = true) :
    ∃ w', Act.readString i address w = some (.ok [], w') := by
  obtain ⟨a, ha, hsize⟩ := hi
  have hle := Address.le_of_isNull hnull
  have hplace : Act.resolve i address w =
      some (.ok (.null k), w.setSubsystem k { s with pool := s.pool.resetNull }) := by
    rw [Act.resolve_eq hresolve ha (a.cellIndex?_eq_none hsize hle)]
    exact Act.bind_of_some (Act.resolvePooled_null hresolve.layer hnull)
  -- the length of the null string is not remembered, but the buffer begins with a zero
  have hserved := hmeasure.setPool s.pool.resetNull
  have hcells : (w.setSubsystem k { s with pool := s.pool.resetNull }).cellsAt? (.null k) = some [0] := by
    rw [cellsAt?, hserved.layer]
    rfl
  exact ⟨_, Act.readString_eq hplace (Act.measure_unknown hserved rfl hcells rfl) hcells rfl⟩

end

/-- What instances read at the addresses of pooled strings, by the operations that the pool `q` of the layer follows. -/
structure ReadsPooled (actions : List Pool.Action) (q : Pool) (w : World σ) : Prop where
  /-- The address of a live string that an instance was given reads as the string is now, for as long as the string lives
  and the instance is not unloaded. -/
  current : ∀ {n i id part address}, w.FitsBelow i → Pool.Gives actions n i id part address →
    (∀ m, n ≤ m → (Pool.upTo actions m).contains id = true) → (∀ m, n < m → actions[m]? ≠ some (.forget i)) →
    ∃ t w', q.get? id = some t ∧ Act.readString i address w = some (.ok (t.readable part), w')
  /-- When a string is gone, its addresses lead an instance nowhere, whatever string has the number by now, until they are
  given to the instance. -/
  gone : ∀ {n i id part address}, w.FitsBelow i → Address.decode? address = some (id, part) →
    (Pool.upTo actions n).contains id = false → (∀ m, n ≤ m → ¬ Pool.Gives actions m i id part address) →
    Act.resolve i address w = some (.error .memoryAccess, w)
  /-- An instance that was never given an address is led nowhere by it. -/
  foreign : ∀ {i id part address}, w.FitsBelow i → Address.decode? address = some (id, part) →
    (∀ m, ¬ Pool.Gives actions m i id part address) → Act.resolve i address w = some (.error .memoryAccess, w)
  /-- The addresses of the null string read as the empty string. -/
  null : ∀ {i address}, w.FitsBelow i → Address.isNull address = true →
    ∃ w', Act.readString i address w = some (.ok [], w')

end World

namespace Machine

open World

/-- Whatever the host does with one hook layer, and whatever its scripts, natives and handlers do, at every moment of a run
at which the hooks of both exports are switched on: every instance reads the strings that it was given addresses of as they
are now, and nothing else. The pool of the layer follows some operations at every moment; and whichever operations it
follows, those that the run made of it among them, what is read is told by these. -/
theorem pooled_strings_read {host : Host σ} (hhost : host.UsesOnly (.operations Operation.keepsLayers))
    {p : Program σ α} (hp : p.Uses (.operations Operation.keepsLayers)) {instances : Array Instance} {resumer : Resumer}
    {state : σ} {config : Config} {collaborators : Collaborators} {fuel : Nat} {w : World σ}
    (hmoment : (p.runIn host fuel (.single instances resumer state config collaborators)).world = w) {s : Subsystem}
    (hs : w.subsystem? ⟨0⟩ = some s) (halive : s.alive = true) (hresolve : s.hooks.resolve.wanted = true)
    (hmeasure : s.hooks.measure.wanted = true) :
    (∃ actions, s.pool.Follows actions) ∧ ∀ actions, s.pool.Follows actions → w.ReadsPooled actions s.pool := by
  obtain ⟨made, htended⟩ := tended_runIn hhost hp instances resumer state config collaborators fuel
  rw [hmoment] at htended
  obtain ⟨hhooked, hfollows⟩ := htended.of_subsystem? hs
  -- no call is being passed on, so what is switched on is in its slot
  obtain ⟨hsoundResolve, hsettledResolve⟩ := hhooked .resolve (by decide)
  obtain ⟨hsoundMeasure, hsettledMeasure⟩ := hhooked .measure (by decide)
  have hr : Served ⟨0⟩ .resolve s w := ⟨hs, halive, hsoundResolve, (hsettledResolve not_false).trans hresolve⟩
  have hm : Served ⟨0⟩ .measure s w := ⟨hs, halive, hsoundMeasure, (hsettledMeasure not_false).trans hmeasure⟩
  refine ⟨⟨made, hfollows⟩, fun actions hactions => ⟨?_, ?_, ?_, ?_⟩⟩
  · intro n i id part address hi hgives hlives hkept
    exact readString_of_some hr hm hi (hactions.resolve?_of_given hgives hlives hkept)
  · intro n i id part address hi haddress hgone hnever
    exact resolve_of_none hr hi haddress (hactions.resolve?_of_gone haddress hgone hnever)
  · intro i id part address hi haddress hnever
    -- before the first operation there is no string at all
    exact resolve_of_none hr hi haddress
      (hactions.resolve?_of_gone haddress (Pool.contains_upTo_zero actions id) fun m _ => hnever m)
  · intro i address hi hnull
    exact readString_null hr hm hi hnull

/-- Switches every hook on, gives an instance the address of a string that has a zero in it, and changes the string. -/
def changingProgram : Program Unit Unit := do
  let i ← Program.perform (.newInstance 4)
  let _ ← Program.perform (.installAll ⟨0⟩)
  let _ ← Program.perform (.pool ⟨0⟩ (.addPinned (.ofCells [1, 0])))
  let _ ← Program.perform (.pool ⟨0⟩ (.bind i ⟨1⟩ .view))
  let _ ← Program.perform (.pool ⟨0⟩ (.edit ⟨1⟩ (.push 2)))

/-- What it does with the pool. -/
def changing : List Pool.Action :=
  [.addPinned (.ofCells [1, 0]), .bind ⟨0⟩ ⟨1⟩ .view, .edit ⟨1⟩ (.push 2)]

theorem contains_changing {m : Nat} (hm : 1 ≤ m) : (Pool.upTo changing m).contains ⟨1⟩ = true := by
  match m with
  | 1 | 2 => decide +kernel
  | m + 3 =>
    -- there are three operations, and the string is there after the last
    rw [Pool.upTo_of_le (Nat.le_add_left 3 m)]
    decide +kernel

theorem gives_changing : Pool.Gives changing 1 ⟨0⟩ ⟨1⟩ .view ⟨0x40000008, by decide, by decide⟩ :=
  ⟨rfl, (Pool.perform_bind_eq_ok (contains_changing (Nat.le_refl 1))).2 (by decide +kernel)⟩

theorem pooled_strings_read_changed :
    ∃ w w', (changingProgram.runIn (.scripted fun _ _ => .done (.ok 0)) 9
        (.single #[] .drop () .standard ⟨.host, .unsupported, .host⟩)).world = w ∧
      Act.readString ⟨0⟩ ⟨0x40000008, by decide, by decide⟩ w = some (.ok [1, 0, 2], w') := by
  have hhost : (Host.scripted fun _ _ => .done (.ok 0) : Host Unit).UsesOnly (.operations Operation.keepsLayers) :=
    Host.scripted_uses _ fun _ _ => trivial
  have hprogram : changingProgram.Uses (.operations Operation.keepsLayers) :=
    ⟨trivial, fun _ => ⟨trivial, fun _ => ⟨trivial, fun _ => ⟨trivial, fun _ => ⟨trivial, fun _ => trivial⟩⟩⟩⟩⟩
  have hreached : ((changingProgram.runIn (.scripted fun _ _ => .done (.ok 0)) 9
      (.single #[] .drop () .standard ⟨.host, .unsupported, .host⟩)).world.subsystem? ⟨0⟩).any (fun s => s.alive &&
        s.hooks.resolve.wanted && s.hooks.measure.wanted && decide (s.pool = Pool.empty.after changing)) = true := by
    decide +kernel
  have hfits : ((changingProgram.runIn (.scripted fun _ _ => .done (.ok 0)) 9
      (.single #[] .drop () .standard ⟨.host, .unsupported, .host⟩)).world.instance? ⟨0⟩).any (fun a =>
        decide (4 * a.memory.length ≤ 0x40000000)) = true := by
    decide +kernel
  generalize hmoment : (changingProgram.runIn (.scripted fun _ _ => .done (.ok 0)) 9
    (.single #[] .drop () .standard ⟨.host, .unsupported, .host⟩)).world = w at hreached hfits ⊢
  obtain ⟨s, hs, hlayer⟩ := (Option.any_eq_true _ _).1 hreached
  obtain ⟨a, ha, hsize⟩ := (Option.any_eq_true _ _).1 hfits
  simp only [Bool.and_eq_true, decide_eq_true_eq] at hlayer hsize
  obtain ⟨⟨⟨halive, hresolve⟩, hmeasure⟩, hpool⟩ := hlayer
  have hfollows : s.pool.Follows changing := hpool ▸ fun i => ⟨.refl _, fun _ => Iff.rfl⟩
  have hlaw := (pooled_strings_read hhost hprogram hmoment hs halive hresolve hmeasure).2 changing hfollows
  have hkept : ∀ m, 1 < m → changing[m]? ≠ some (.forget ⟨0⟩) := by
    intro m hm
    match m with
    | 2 => exact nofun
    | m + 3 => exact nofun
  obtain ⟨t, w', ht, hread⟩ := hlaw.current ⟨a, ha, hsize⟩ gives_changing (fun _ => contains_changing) hkept
  have hcells : t.cells = [1, 0, 2] := by
    have hgot : ((Pool.empty.after changing).get? ⟨1⟩).map CellString.cells = some [1, 0, 2] := by decide +kernel
    rw [← hpool, ht] at hgot
    exact Option.some.inj hgot
  exact ⟨w, w', rfl, hcells ▸ hread⟩

end Machine

end Interpose

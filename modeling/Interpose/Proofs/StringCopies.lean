import Interpose.Proofs.Buffers
import Interpose.Proofs.StringCalls

/-!
# Strings into memory

A native copies a part of a string to an address, together with a zero that ends it, into as many cells as the script says
there are. The part is given by two positions, and any cells will do for them; what does not fit in front of the zero is left
out. The script has room where it says so if these cells lie in its heap, or in the view of a string whose address it has
bound (`World.Room`); that string may be the one that is copied, which is read before anything is written.

Then the text and its zero stand there, and no other cell of any memory or of any string has changed (`World.Stored`).

Main statement: `Machine.string_copies`.
-/

namespace Interpose

open World StringNative

variable {σ α : Type}

/-! ## A part of a string -/

/-- The cells between two positions. A position outside of the list counts as its nearer end, and if the positions are the
other way round there is nothing between them. -/
def StringNative.between (cells : List Cell) (start stop : Cell) : List Cell :=
  cells.extract (min (max start.val 0).toNat cells.length) (min (max stop.val 0).toNat cells.length)

theorem StringNative.slice_eq (t : CellString) (start stop : Cell) : slice t start stop = between t.cells start stop := by
  have hstart : (max start.val 0).toNat = start.clampLow := by
    rw [Cell.clampLow]
    omega
  have hstop : (max stop.val 0).toNat = stop.clampLow := by
    rw [Cell.clampLow]
    omega
  rw [between, slice, hstart, hstop, List.extract_eq_take_drop, ← List.drop_take]
  -- positions behind the end find nothing, wherever they are
  rcases Nat.le_total stop.clampLow t.cells.length with hle | hle
  · rw [Nat.min_eq_left hle]
    rcases Nat.le_total start.clampLow t.cells.length with hle' | hle'
    · rw [Nat.min_eq_left hle']
    · rw [Nat.min_eq_right hle', List.drop_eq_nil_of_le (by rw [List.length_take]; omega),
        List.drop_eq_nil_of_le (by rw [List.length_take]; omega)]
  · rw [Nat.min_eq_right hle, List.take_of_length_le hle, List.take_length]
    rcases Nat.le_total start.clampLow t.cells.length with hle' | hle'
    · rw [Nat.min_eq_left hle']
    · rw [Nat.min_eq_right hle', List.drop_eq_nil_of_le hle', List.drop_length]

/-! ## Room -/

/-- Cells are written into the view of a string. It keeps its length and its header and stays for the reasons it had, it is
the string that is remembered, and all else in the pool is as it was. -/
structure Pool.Overwrites (p : Pool) (id : StringId) (cells : List Cell) (q : Pool) : Prop where
  written : ∃ e t, p.entry? id = some e ∧ q.entry? id = some { e with string := t } ∧
    t.header = e.string.header ∧ t.length = e.string.length ∧
    Buffer.Written e.string.record Part.view.start cells t.record
  others : ∀ other, other ≠ id → q.entry? other = p.entry? other
  rest : { q with slots := p.slots } = p.setCache id

namespace World

/-- Where an address leads an instance, if so many cells are there for it: in its heap, or in the view of a string to which
it has bound the address, while addresses of strings are resolved. -/
inductive Room (k : SubsystemId) (s : Subsystem) (i : InstanceId) (a : Instance) (address : Cell) (capacity : Nat) :
    Place → Prop
  | heap {start : Nat} (haddress : address.val = 4 * start)
      (hheap : address.val + 4 * capacity ≤ a.registers.hea.val) (hmemory : start + capacity ≤ a.memory.length) :
      Room k s i a address capacity (.memory i start)
  | view {id : StringId} {t : CellString} (hserves : s.serves .resolve = true) (hbeyond : a.cellIndex? address = none)
      (hbound : s.pool.resolve? i address = some (id, .view)) (hget : s.pool.get? id = some t)
      (hlength : capacity ≤ t.length + 1) : Room k s i a address capacity (.pooled k id .view)

/-- The world after cells were written at a place. Nothing else in it has changed. -/
inductive Wrote (k : SubsystemId) (s : Subsystem) (i : InstanceId) (a : Instance) (w : World σ) (cells : List Cell) :
    Place → World σ → Prop
  | heap {start : Nat} {memory : List Cell} (h : Buffer.Written a.memory start cells memory) :
      Wrote k s i a w cells (.memory i start) (w.setInstance i { a with memory })
  | view {id : StringId} {q : Pool} (h : s.pool.Overwrites id cells q) :
      Wrote k s i a w cells (.pooled k id .view) (w.setSubsystem k { s with pool := q })

/-- The world after a text and a zero behind it were written at the place of an address. In the heap, the text is read back
as far as its own first zero. -/
structure Stored (k : SubsystemId) (s : Subsystem) (i : InstanceId) (a : Instance) (w : World σ) (address : Cell)
    (text : List Cell) (p : Place) (v : World σ) : Prop where
  wrote : Wrote k s i a w (text ++ [0]) p v
  readable : ∀ start, p = .memory i start → Act.readString i address v = some (.ok (text.takeWhile (· ≠ 0)), v)

variable {k : SubsystemId} {i : InstanceId} {a : Instance} {w v : World σ} {s : Subsystem} {address : Cell} {p : Place}
  {capacity : Nat}

/-! ## Cells of memory -/

/-- As long as no references are followed, the address of a cell leads to that cell. -/
theorem resolve_cell (hs : w.subsystem? k = some s) (hsound : s.SoundHooks k w.exports) (hrefs : s.refArgs = false)
    (ha : w.instance? i = some a) {index : Nat} (hindex : a.cellIndex? address = some index) :
    Act.resolve i address w = some (.ok (.memory i index), w) := by
  rcases served_or_plain hs (hsound .resolve (by decide)) with ⟨-, hserved⟩ | ⟨-, hplain⟩
  · rw [Act.resolve_leads hserved ha, Subsystem.leads_direct hindex hrefs]
    rfl
  · unfold Act.resolve
    rw [Act.bind_of_some (Act.get_eq w), Act.resolveWithin_plain hplain, ha, Option.map_some, Instance.place, hindex]

/-- No layer knows the length of what stands in memory. -/
theorem measure_cell (hs : w.subsystem? k = some s) (hsound : s.SoundHooks k w.exports) (i : InstanceId) (index : Nat) :
    Act.measure (.memory i index) w = Act.measurePlain (.memory i index) w := by
  rcases served_or_plain hs (hsound .measure (by decide)) with ⟨-, hserved⟩ | ⟨-, hplain⟩
  · exact Act.measure_elsewhere hserved rfl
  · unfold Act.measure
    rw [Act.bind_of_some (Act.get_eq w)]
    exact Act.measureWithin_plain hplain _

/-! ## Writing -/

theorem Room.cellIndex? {start : Nat} (hcapacity : 1 ≤ capacity) (haddress : address.val = 4 * start)
    (hheap : address.val + 4 * capacity ≤ a.registers.hea.val) (hmemory : start + capacity ≤ a.memory.length) :
    a.cellIndex? address = some start :=
  Instance.cellIndex?_of_heap haddress (by omega) (by omega)

/-- A text that fits into the heap, with a zero behind it. -/
theorem stored_heap (hs : w.subsystem? k = some s) (hsound : s.SoundHooks k w.exports) (hrefs : s.refArgs = false)
    (ha : w.instance? i = some a) {start : Nat} (hindex : a.cellIndex? address = some start) (text : List Cell)
    (hfits : start + (text ++ [0]).length ≤ a.memory.length) :
    ∃ v, Act.writeAt (.memory i start) (text ++ [0]) w = some ((), v) ∧
      Stored k s i a w address text (.memory i start) v := by
  obtain ⟨memory, hwrite, hwritten⟩ := Act.writeAt_memory ha hfits
  refine ⟨_, hwrite, .heap hwritten, fun _ hplace => ?_⟩
  cases hplace
  -- neither the layer nor the end of the heap has moved, so the address leads to the same cell
  have hlength := hwritten.length
  have hafter : (w.setInstance i { a with memory }).instance? i = some { a with memory } :=
    (instance?_setInstance ha _ i).trans (if_pos rfl)
  have hindexAfter : ({ a with memory } : Instance).cellIndex? address = some start := by
    rw [← hindex]
    unfold Instance.cellIndex? Instance.stackTop
    dsimp only
    rw [hlength]
  have hdrop : memory.drop start = text ++ 0 :: a.memory.drop (start + (text ++ [0]).length) := by
    rw [hwritten.drop_eq, List.append_assoc]
    rfl
  have hlayer : (w.setInstance i { a with memory }).subsystem? k = some s := hs
  exact Act.readString_of_memory (resolve_cell hlayer hsound hrefs hafter hindexAfter) (measure_cell hlayer hsound i start)
    hafter hdrop

/-- A text that fits into the view of a string, with a zero behind it. -/
theorem stored_view (hs : w.subsystem? k = some s) (i : InstanceId) (a : Instance) (address : Cell) {id : StringId}
    {t : CellString} (hget : s.pool.get? id = some t) (text : List Cell) (hfits : (text ++ [0]).length ≤ t.length + 1) :
    ∃ v, Act.writeAt (.pooled k id .view) (text ++ [0]) (w.setSubsystem k { s with pool := s.pool.setCache id }) =
        some ((), v) ∧
      Stored k s i a w address text (.pooled k id .view) v := by
  obtain ⟨e, he, rfl⟩ := Option.map_eq_some_iff.1 hget
  have hroom : Part.view.start + (text ++ [0]).length ≤ e.string.length + 2 := by
    rw [Part.start]
    omega
  obtain ⟨t, ht, hwritten⟩ := CellString.exists_write? hroom
  have hentry : Pool.entry? (s.pool.setCache id) id = some e := he
  have hlayer : (w.setSubsystem k { s with pool := s.pool.setCache id }).subsystem? k =
      some { s with pool := s.pool.setCache id } := (subsystem?_setSubsystem hs _ k).trans (if_pos rfl)
  have hset := Pool.entry?_setEntry (Pool.contains_iff.2 ⟨e, hentry⟩) { e with string := t }
  refine ⟨w.setSubsystem k { s with pool := (s.pool.setCache id).setEntry id { e with string := t } }, ?_, .view ?_, nofun⟩
  · show Option.bind _ _ = _
    rw [hlayer, Option.bind_some, Act.writeString?, hentry, Option.bind_some, ht, Option.map_some, Option.map_some,
      setSubsystem_setSubsystem]
  · refine ⟨⟨e, t, he, (hset id).trans (if_pos rfl), CellString.header_of_written hwritten (by decide),
      CellString.length_of_written hwritten, hwritten⟩, fun other hother => (hset other).trans (if_neg hother), ?_⟩
    unfold Pool.setEntry
    split <;> rfl

/-- A text is written where there is room for it, up to the last cell but one. -/
theorem writeString_of_room {actions : List Pool.Action} (h : w.Tended k (fun _ => False) actions)
    (hs : w.subsystem? k = some s) (hrefs : s.refArgs = false) (ha : w.instance? i = some a) (hcapacity : 1 ≤ capacity)
    (hroom : Room k s i a address capacity p) (cells : List Cell) :
    ∃ v, Act.writeString i address cells capacity w = some (.ok (min cells.length (capacity - 1)), v) ∧
      Stored k s i a w address (cells.take (capacity - 1)) p v := by
  have hsound : s.SoundHooks k w.exports := fun x hx => ((h.of_subsystem? hs).1 x hx).1
  have hlength : (cells.take (capacity - 1) ++ [0]).length ≤ capacity := by
    rw [List.length_append, List.length_take, List.length_singleton]
    omega
  unfold Act.writeString
  rw [if_neg (by omega), ← Nat.min_comm, ← List.length_take]
  cases hroom with
  | heap haddress hheap hmemory =>
    have hindex := Room.cellIndex? hcapacity haddress hheap hmemory
    obtain ⟨v, hwrite, hstored⟩ := stored_heap hs hsound hrefs ha hindex (cells.take (capacity - 1)) (by omega)
    refine ⟨v, ?_, hstored⟩
    rw [Act.bind_of_some (resolve_cell hs hsound hrefs ha hindex)]
    exact Act.bind_of_some hwrite
  | view hserves hbeyond hbound hget hview =>
    have hserved : Served k .resolve s w := h.served hs (by decide) hserves
    obtain ⟨v, hwrite, hstored⟩ := stored_view hs i a address hget (cells.take (capacity - 1)) (by omega)
    refine ⟨v, ?_, hstored⟩
    rw [Act.bind_of_some (Act.resolve_leads hserved ha), Subsystem.leads_beyond hbeyond, Pool.leads?_bound hbound]
    exact Act.bind_of_some hwrite

end World

namespace StringNative

open NativeAct

variable {k : SubsystemId} {i : InstanceId} {a : Instance} {w : World σ} {s : Subsystem} {address size : Cell} {c : Cell}
  {cells rest : List Cell} {p : Place}

/-! ## The native -/

/-- The size is looked at first. -/
theorem run_get (c address size : Cell) (rest : List Cell) : (get.run k i (c :: address :: size :: rest)).run w =
    (do
      let capacity ← NativeAct.size "size" size
      if capacity = 0 then pure 0
      else
        let t ← snapshot k ⟨c⟩
        let part := slice t (rest.getD 0 0) (rest.getD 1 .greatest)
        let written ← machine (Act.writeString i address part capacity)
        pure (.ofNat written) : NativeAct σ Cell).run w :=
  run_require (by simp) _

theorem toNat?_of_nonneg (h : 0 ≤ size.val) : size.toNat? = some size.val.toNat :=
  if_pos h

/-- A part of a string is copied to where there is room for it. -/
theorem call_get {actions : List Pool.Action} (h : w.Tended k (fun _ => False) actions) (hs : w.subsystem? k = some s)
    (hrefs : s.refArgs = false) (ha : w.instance? i = some a) (hreads : s.pool.reads? ⟨c⟩ = some cells)
    (hsize : 1 ≤ size.val) (hroom : Room k s i a address size.val.toNat p) (rest : List Cell) :
    ∃ answer v, get.call k i (c :: address :: size :: rest) w = some (.ok answer, v) ∧
      answer.val = min (between cells (rest.getD 0 0) (rest.getD 1 .greatest)).length (size.val.toNat - 1) ∧
      Stored k s i a w address ((between cells (rest.getD 0 0) (rest.getD 1 .greatest)).take (size.val.toNat - 1)) p v := by
  rcases run_snapshot hs ⟨c⟩ with ⟨t, ht, hsnapshot⟩ | ⟨hnone, -⟩
  · rw [hreads] at ht
    cases ht
    -- the string has been read by the time the text is written, so it may itself be written over
    rw [← slice_eq]
    obtain ⟨v, hwrite, hstored⟩ := writeString_of_room h hs hrefs ha (by omega) hroom
      (slice t (rest.getD 0 0) (rest.getD 1 .greatest))
    refine ⟨.ofNat (min (slice t (rest.getD 0 0) (rest.getD 1 .greatest)).length (size.val.toNat - 1)), v,
      Act.settleNative_ok ?_, ?_, hstored⟩
    · rw [run_get, run_bind_of_ok (run_size (toNat?_of_nonneg (by omega)) "size" w), if_neg (by omega),
        run_bind_of_ok hsnapshot]
      exact run_bind_of_ok (run_machine hwrite)
    · -- no size is so great that the count would not fit
      have hupper := size.upper
      rw [Cell.val_ofNat]
      omega
  · rw [hreads] at hnone
    cases hnone

/-- Where there is no room nothing is written. -/
theorem call_get_zero (k : SubsystemId) (i : InstanceId) (w : World σ) (c address : Cell) (rest : List Cell) :
    get.call k i (c :: address :: 0 :: rest) w = some (.ok 0, w) := by
  refine Act.settleNative_ok ?_
  rw [run_get, run_bind_of_ok (run_size (toNat?_of_nonneg (by decide)) "size" w)]
  rfl

/-- A negative size is none; that is reported and recorded. -/
theorem call_get_negative (ha : w.instance? i = some a) (hsize : size.val < 0) (k : SubsystemId) (c address : Cell)
    (rest : List Cell) :
    get.call k i (c :: address :: size :: rest) w = some (.error .native,
      (w.record (.notice (.nativeFailed get.name i (.outOfRange "size" size)))).setInstance i (a.raise .native)) := by
  have hnone : size.toNat? = none := if_neg (by omega)
  have hrun : (get.run k i (c :: address :: size :: rest)).run w = some (.error (.outOfRange "size" size), w) :=
    (run_get c address size rest).trans (run_bind_of_error (run_size_negative hnone "size" w))
  unfold call Act.settleNative
  rw [Act.bind_of_some hrun]
  show Option.bind (Option.map _ (w.instance? i)) _ = _
  rw [ha]
  rfl

end StringNative

/-! ## All of it -/

/-- What comes of copying strings to addresses, where there is room for as many cells as the script says. -/
structure World.Copies (k : SubsystemId) (s : Subsystem) (i : InstanceId) (a : Instance) (w : World σ) : Prop where
  /-- Of any cells, those in front of the last place are written, and a zero. -/
  writeString : ∀ {address p capacity}, 1 ≤ capacity → Room k s i a address capacity p → ∀ cells,
    ∃ v, Act.writeString i address cells capacity w = some (.ok (min cells.length (capacity - 1)), v) ∧
      Stored k s i a w address (cells.take (capacity - 1)) p v
  writeNothing : ∀ address cells, Act.writeString i address cells 0 w = some (.ok 0, w)
  /-- Of the cells under a number, those between two positions; by default, from the first on, and up to the last. -/
  get : ∀ {c cells address p} size, s.pool.reads? ⟨c⟩ = some cells → 1 ≤ size.val →
    Room k s i a address size.val.toNat p → ∀ rest,
    ∃ answer v, StringNative.get.call k i (c :: address :: size :: rest) w = some (.ok answer, v) ∧
      answer.val = min (between cells (rest.getD 0 0) (rest.getD 1 .greatest)).length (size.val.toNat - 1) ∧
      Stored k s i a w address ((between cells (rest.getD 0 0) (rest.getD 1 .greatest)).take (size.val.toNat - 1)) p v
  getNothing : ∀ c address rest, StringNative.get.call k i (c :: address :: 0 :: rest) w = some (.ok 0, w)
  /-- A negative size is refused, whatever the number and the address. -/
  getNegative : ∀ {size}, size.val < 0 → ∀ c address rest,
    StringNative.get.call k i (c :: address :: size :: rest) w = some (.error .native,
      (w.record (.notice (.nativeFailed StringNative.get.name i (.outOfRange "size" size)))).setInstance i
        (a.raise .native))

namespace Machine

/-- **Copying strings to addresses.** Whatever the host does with one hook layer, and whatever its scripts, natives and
handlers do, at every moment of a run at which the layer follows no references: what is copied to where there is room for so
many cells, is cut off there and ended by a zero, it is counted, and nothing else is written. -/
theorem string_copies {host : Host σ} (hhost : host.UsesOnly (.operations Operation.keepsLayers))
    {p : Program σ α} (hp : p.Uses (.operations Operation.keepsLayers)) {instances : Array Instance} {resumer : Resumer}
    {state : σ} {config : Config} {collaborators : Collaborators} {fuel : Nat} {w : World σ}
    (hmoment : (p.runIn host fuel (.single instances resumer state config collaborators)).world = w) {s : Subsystem}
    (hs : w.subsystem? ⟨0⟩ = some s) (hrefs : s.refArgs = false) {i : InstanceId} {a : Instance}
    (ha : w.instance? i = some a) : w.Copies ⟨0⟩ s i a := by
  obtain ⟨made, htended⟩ := tended_runIn hhost hp instances resumer state config collaborators fuel
  rw [hmoment] at htended
  exact
    { writeString := fun hcapacity hroom cells => writeString_of_room htended hs hrefs ha hcapacity hroom cells
      writeNothing := fun _ _ => rfl
      get := fun _ hreads hsize hroom rest => call_get htended hs hrefs ha hreads hsize hroom rest
      getNothing := call_get_zero ⟨0⟩ i w
      getNegative := fun hsize => call_get_negative ha hsize ⟨0⟩ }

/-- Adds a string to which the instance gets an address, and makes a heap of two cells. -/
def copyingOutProgram : Program Unit Unit := do
  let i ← Program.perform (.newInstance 4)
  let _ ← Program.perform (.installAll ⟨0⟩)
  let _ ← Program.perform (.pool ⟨0⟩ (.addPinned (.ofCells [2, 1, 0])))
  let _ ← Program.perform (.pool ⟨0⟩ (.bind i ⟨1⟩ .view))
  let _ ← Program.perform (.allot i 2)

/-- What it does with the pool. -/
def copyingOut : List Pool.Action :=
  [.addPinned (.ofCells [2, 1, 0]), .bind ⟨0⟩ ⟨1⟩ .view]

/-- The end of the string is copied over its beginning, and its beginning into the heap. -/
theorem string_copies_itself :
    ∃ w s a, (copyingOutProgram.runIn (.scripted fun _ _ => .done (.ok 0)) 9
        (.single #[] .drop () .standard ⟨.host, .unsupported, .host⟩)).world = w ∧
      (∃ answer v, StringNative.get.call ⟨0⟩ ⟨0⟩ [1, ⟨0x40000008, by decide, by decide⟩, ⟨3, by decide, by decide⟩, 1] w =
          some (.ok answer, v) ∧ answer.val = 2 ∧
        Stored ⟨0⟩ s ⟨0⟩ a w ⟨0x40000008, by decide, by decide⟩ [1, 0] (.pooled ⟨0⟩ ⟨1⟩ .view) v) ∧
      ∃ answer v, StringNative.get.call ⟨0⟩ ⟨0⟩ [1, 0, 2] w = some (.ok answer, v) ∧ answer.val = 1 ∧
        Act.readString ⟨0⟩ 0 v = some (.ok [2], v) := by
  have hhost : (Host.scripted fun _ _ => .done (.ok 0) : Host Unit).UsesOnly (.operations Operation.keepsLayers) :=
    Host.scripted_uses _ fun _ _ => trivial
  have hprogram : copyingOutProgram.Uses (.operations Operation.keepsLayers) :=
    ⟨trivial, fun _ => ⟨trivial, fun _ => ⟨trivial, fun _ => ⟨trivial, fun _ => ⟨trivial, fun _ => trivial⟩⟩⟩⟩⟩
  have hlayer : ((copyingOutProgram.runIn (.scripted fun _ _ => .done (.ok 0)) 9
      (.single #[] .drop () .standard ⟨.host, .unsupported, .host⟩)).world.subsystem? ⟨0⟩).any (fun s =>
        s.serves .resolve && !s.refArgs && decide (s.pool = Pool.empty.after copyingOut)) = true := by
    decide +kernel
  have hinstance : ((copyingOutProgram.runIn (.scripted fun _ _ => .done (.ok 0)) 9
      (.single #[] .drop () .standard ⟨.host, .unsupported, .host⟩)).world.instance? ⟨0⟩).any (fun a =>
        decide (a.cellIndex? ⟨0x40000008, by decide, by decide⟩ = none) && decide (8 ≤ a.registers.hea.val) &&
          decide (2 ≤ a.memory.length)) = true := by
    decide +kernel
  generalize hmoment : (copyingOutProgram.runIn (.scripted fun _ _ => .done (.ok 0)) 9
    (.single #[] .drop () .standard ⟨.host, .unsupported, .host⟩)).world = w at hlayer hinstance ⊢
  obtain ⟨s, hs, hlayer⟩ := (Option.any_eq_true _ _).1 hlayer
  obtain ⟨a, ha, hmemory⟩ := (Option.any_eq_true _ _).1 hinstance
  simp only [Bool.and_eq_true, Bool.not_eq_true', decide_eq_true_eq] at hlayer hmemory
  obtain ⟨⟨hserves, hrefs⟩, hpool⟩ := hlayer
  obtain ⟨⟨hbeyond, hheap⟩, hlength⟩ := hmemory
  have hcopies := string_copies hhost hprogram hmoment hs hrefs ha
  have hreads : s.pool.reads? ⟨1⟩ = some [2, 1, 0] := by
    rw [hpool]
    decide +kernel
  have hbound : s.pool.resolve? ⟨0⟩ ⟨0x40000008, by decide, by decide⟩ = some (⟨1⟩, .view) := by
    rw [hpool]
    decide +kernel
  have hget : s.pool.get? ⟨1⟩ = some (.ofCells [2, 1, 0]) := by
    rw [hpool]
    decide +kernel
  have hview : Room ⟨0⟩ s ⟨0⟩ a ⟨0x40000008, by decide, by decide⟩ 3 (.pooled ⟨0⟩ ⟨1⟩ .view) :=
    .view hserves hbeyond hbound hget (by decide)
  have hcells : Room ⟨0⟩ s ⟨0⟩ a 0 2 (.memory ⟨0⟩ 0) := .heap rfl hheap hlength
  obtain ⟨answer, v, hcall, hanswer, hstored⟩ :=
    hcopies.get ⟨3, by decide, by decide⟩ hreads (by decide) hview [1]
  obtain ⟨answer', v', hcall', hanswer', hstored'⟩ := hcopies.get 2 hreads (by decide) hcells []
  exact ⟨w, s, a, rfl, ⟨answer, v, hcall, hanswer, hstored⟩, answer', v', hcall', hanswer', hstored'.readable 0 rfl⟩

end Machine

end Interpose

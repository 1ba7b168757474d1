import Interpose.Proofs.Buffers

/-!
# The heap

The heap of an instance lies at the low end of its memory and grows towards the stack. Its end is an address and counts
bytes, memory counts cells, and addresses are cells and may run out. Here the heap of an instance that has not run yet, so
that its stack is empty, is worked on in any order: blocks are allocated, strings are allocated, the end is taken back, cells
of the heap are written, and the registers are taken back that a token holds.

Through all of this the end of the heap is the address of a cell and does not pass the stack. So an allocation succeeds
exactly if what is between the two is large enough, and then hands out cells that lay in no part of memory with an address.

Main statement: `heap_allocations`.
-/

namespace Interpose

/-! ## Bytes of cells -/

namespace Cell

variable {k : Nat} {c : Cell}

/-- The bytes in a number of cells, if they can be counted. -/
theorem bytesOf_eq_some : ((ofNat? k).bind fun c => c.mul? bytes) = some c ↔ c.val = 4 * k := by
  constructor
  · intro h
    obtain ⟨d, hd, hmul⟩ := Option.bind_eq_some_iff.1 h
    have hcount := ofInt?_eq_some.1 hd
    have hproduct : c.val = d.val * 4 := ofInt?_eq_some.1 hmul
    omega
  · intro h
    have hupper := c.upper
    obtain ⟨d, hd⟩ : ∃ d : Cell, d.val = k := ⟨⟨k, by omega, by omega⟩, rfl⟩
    refine Option.bind_eq_some_iff.2 ⟨d, ofInt?_eq_some.2 hd, ofInt?_eq_some.2 ?_⟩
    show c.val = d.val * 4
    omega

theorem bytesOf_eq_none : ((ofNat? k).bind fun c => c.mul? bytes) = none ↔ 2147483647 < 4 * k := by
  constructor
  · intro h
    by_contra hle
    rw [(bytesOf_eq_some (c := ⟨4 * k, by omega, by omega⟩)).2 rfl] at h
    cases h
  · intro h
    refine Option.eq_none_iff_forall_ne_some.2 fun c hc => ?_
    have hupper := c.upper
    have hcount := bytesOf_eq_some.1 hc
    omega

end Cell

/-- The heap ends between two cells and not above the stack, and the stack is empty. -/
structure Registers.Bounded (n : Nat) (r : Registers) : Prop where
  aligned : r.hea.val % 4 = 0
  nonneg : 0 ≤ r.hea.val
  below : r.hea.val ≤ r.stk.val
  top : r.stk.val = 4 * n

namespace Instance

variable {n k : Nat} {a b : Instance} {i : InstanceId} {cells contents : List Cell}
  {result : Option (Except Status Cell × Instance)}

theorem val_topOf (h : 4 * n ≤ 2147483647) : (topOf n).val = 4 * n := by
  unfold topOf
  rw [(Cell.bytesOf_eq_some (c := ⟨4 * n, by omega, by omega⟩)).2 rfl]
  rfl

/-! ## The end of the heap -/

/-- An instance with so many cells of memory. -/
structure LaidOut (n : Nat) (a : Instance) : Prop where
  memory : a.memory.length = n
  registers : a.registers.Bounded n

theorem heapIndex?_of_nonneg {hea : Cell} (h : 0 ≤ hea.val) : heapIndex? hea = some (hea.val / 4).toNat := by
  unfold heapIndex?
  dsimp only
  rw [Int.tdiv_eq_ediv_of_nonneg h, if_pos (by omega)]

/-! ## Blocks -/

/-- An instance whose heap was extended by a block: the end of the heap has moved behind the block, the contents of the block
are in place, and nothing else is different. The address of each cell of the block leads to a cell of its own. -/
structure Extends (i : InstanceId) (a : Instance) (contents : List Cell) (b : Instance) : Prop where
  moved : ∃ limit memory, b = { a with memory, registers := { a.registers with hea := limit } } ∧
    limit.val = a.registers.hea.val + 4 * contents.length ∧
    Buffer.Written a.memory (a.registers.hea.val / 4).toNat contents memory
  leads : ∀ j, j < contents.length → ∃ address : Cell, address.val = a.registers.hea.val + 4 * j ∧
    ∀ {σ : Type} (w : World σ), w.instance? i = some b →
      Act.resolvePlain i address w = some (.ok (.memory i ((a.registers.hea.val / 4).toNat + j)), w)

/-- What comes of an allocation: there is no memory if the block or the end of the heap cannot be measured, and then nothing
happens; there is a collision if the heap would reach into the stack, and then that is recorded; and otherwise the heap is
extended, and the answer is where it ended before. -/
structure Allocates (i : InstanceId) (a : Instance) (contents : List Cell)
    (result : Option (Except Status Cell × Instance)) : Prop where
  immeasurable : 2147483647 < 4 * contents.length ∨ 2147483647 < a.registers.hea.val + 4 * contents.length →
    result = some (.error .memory, a)
  collides : 4 * contents.length ≤ 2147483647 → a.registers.hea.val + 4 * contents.length ≤ 2147483647 →
    a.registers.stk.val < a.registers.hea.val + 4 * contents.length →
    result = some (.error .stackCollision, a.raise .stackCollision)
  fits : a.registers.hea.val + 4 * contents.length ≤ a.registers.stk.val →
    ∃ b, result = some (.ok a.registers.hea, b) ∧ Extends i a contents b

/-! ### With or without whole cells

What becomes of memory and of the end of the heap does not depend on where the end lies. Only the addresses do.
-/

/-- The heap ends below the stack, and the stack begins in memory. The heap may end within a cell. -/
structure Roomy (a : Instance) : Prop where
  nonneg : 0 ≤ a.registers.hea.val
  below : a.registers.hea.val ≤ a.registers.stk.val
  within : a.registers.stk.val ≤ 4 * a.memory.length

/-- The end of the heap has moved by a block, and the contents of the block stand from the cell on in which it was. -/
def Grown (a : Instance) (contents : List Cell) (b : Instance) : Prop :=
  ∃ limit memory, b = { a with memory, registers := { a.registers with hea := limit } } ∧
    limit.val = a.registers.hea.val + 4 * contents.length ∧
    Buffer.Written a.memory (a.registers.hea.val / 4).toNat contents memory

/-- What comes of an allocation, without the addresses of the block. -/
structure Grows (a : Instance) (contents : List Cell) (result : Option (Except Status Cell × Instance)) : Prop where
  immeasurable : 2147483647 < 4 * contents.length ∨ 2147483647 < a.registers.hea.val + 4 * contents.length →
    result = some (.error .memory, a)
  collides : 4 * contents.length ≤ 2147483647 → a.registers.hea.val + 4 * contents.length ≤ 2147483647 →
    a.registers.stk.val < a.registers.hea.val + 4 * contents.length →
    result = some (.error .stackCollision, a.raise .stackCollision)
  fits : a.registers.hea.val + 4 * contents.length ≤ a.registers.stk.val →
    ∃ b, result = some (.ok a.registers.hea, b) ∧ Grown a contents b

/-- A block of zeros. -/
theorem grows_allot (ha : a.Roomy) (k : Nat) : Grows a (List.replicate k 0) (a.allot? k) := by
  obtain ⟨hnonneg, hbelow, hwithin⟩ := ha
  have hupper := a.registers.stk.upper
  have hlength : (List.replicate k (0 : Cell)).length = k := List.length_replicate
  -- once the block can be measured, so may the end of the heap
  have hmeasured : ∀ bytes : Cell, bytes.val = 4 * k → ((Cell.ofNat? k).bind fun c => c.mul? Cell.bytes) = some bytes :=
    fun bytes hbytes => Cell.bytesOf_eq_some.2 hbytes
  refine ⟨fun hlarge => ?_, fun hblock hend hstack => ?_, fun hfits => ?_⟩
  · rw [hlength] at hlarge
    unfold allot?
    by_cases hblock : 2147483647 < 4 * k
    · rw [Cell.bytesOf_eq_none.2 hblock]
    · have hend : a.registers.hea.add? ⟨4 * k, by omega, by omega⟩ = none :=
        Cell.ofInt?_eq_none.2 (.inr (by dsimp only; omega))
      rw [hmeasured ⟨4 * k, by omega, by omega⟩ rfl]
      simp only [hend]
  · rw [hlength] at hblock hend hstack
    have hlimit : a.registers.hea.add? ⟨4 * k, by omega, by omega⟩ =
        some ⟨a.registers.hea.val + 4 * k, by omega, by omega⟩ := Cell.ofInt?_eq_some.2 rfl
    unfold allot?
    rw [hmeasured ⟨4 * k, by omega, by omega⟩ rfl]
    simp only [hlimit]
    rw [if_pos (Cell.lt_def.2 hstack)]
  · rw [hlength] at hfits
    have hlimit : a.registers.hea.add? ⟨4 * k, by omega, by omega⟩ =
        some ⟨a.registers.hea.val + 4 * k, by omega, by omega⟩ := Cell.ofInt?_eq_some.2 rfl
    obtain ⟨memory, hmemory, hwritten⟩ : ∃ memory, Buffer.overwrite? a.memory (a.registers.hea.val / 4).toNat
        (List.replicate k 0) = some memory ∧ _ := Buffer.exists_overwrite? (by rw [hlength]; omega)
    refine ⟨_, ?_, ⟨⟨a.registers.hea.val + 4 * k, by omega, by omega⟩, memory, rfl, by rw [hlength], hwritten⟩⟩
    unfold allot?
    rw [hmeasured ⟨4 * k, by omega, by omega⟩ rfl]
    simp only [hlimit]
    rw [if_neg (by rw [Cell.lt_def]; dsimp only; omega), heapIndex?_of_nonneg hnonneg]
    simp only [Option.bind_eq_bind, Option.bind_some, hmemory, Option.pure_def]

/-- Cells with a zero behind them. -/
theorem grows_allocCells (ha : a.Roomy) (cells : List Cell) : Grows a (cells ++ [0]) (a.allocCells? cells) := by
  have hlength : (cells ++ [0]).length = (List.replicate (cells.length + 1) (0 : Cell)).length := by
    rw [List.length_append, List.length_singleton, List.length_replicate]
  have hblock : Grows a (List.replicate (cells.length + 1) 0) (a.allot? (cells.length + 1)) := grows_allot ha _
  refine ⟨fun hlarge => ?_, fun hmeasured hend hstack => ?_, fun hfits => ?_⟩
  · rw [hlength] at hlarge
    unfold allocCells?
    rw [hblock.immeasurable hlarge]
    rfl
  · rw [hlength] at hmeasured hend hstack
    unfold allocCells?
    rw [hblock.collides hmeasured hend hstack]
    rfl
  · rw [hlength] at hfits
    obtain ⟨b, hb, limit, zeros, rfl, hlimit, hzeros⟩ := hblock.fits hfits
    have hroom : (a.registers.hea.val / 4).toNat + cells.length ≤ zeros.length := by
      obtain ⟨hnonneg, -, hwithin⟩ := ha
      rw [List.length_replicate] at hfits
      rw [hzeros.length]
      omega
    -- the cells are written over the zeros, and the last zero stays
    obtain ⟨memory, hmemory, hcells⟩ := Buffer.exists_overwrite? hroom
    have hwritten := hzeros.overlaid hcells (by rw [List.length_replicate]; omega)
    rw [List.drop_replicate, Nat.add_sub_cancel_left] at hwritten
    refine ⟨_, ?_, ⟨limit, memory, rfl, hlength ▸ hlimit, hwritten⟩⟩
    unfold allocCells?
    rw [hb]
    show Option.bind (heapIndex? a.registers.hea) _ = _
    rw [heapIndex?_of_nonneg ha.nonneg, Option.bind_some, Option.bind_eq_bind, hmemory]
    rfl

/-- The heap has grown by a block that fits, or an error is answered, with memory and registers as they were. -/
theorem Grows.cases (h : Grows a contents result) :
    (a.registers.hea.val + 4 * contents.length ≤ a.registers.stk.val ∧
      ∃ b, result = some (.ok a.registers.hea, b) ∧ Grown a contents b) ∨
    ∃ s b, result = some (.error s, b) ∧ b.memory = a.memory ∧ b.registers = a.registers := by
  by_cases hfits : a.registers.hea.val + 4 * contents.length ≤ a.registers.stk.val
  · exact .inl ⟨hfits, h.fits hfits⟩
  · right
    by_cases hlarge : 2147483647 < 4 * contents.length ∨ 2147483647 < a.registers.hea.val + 4 * contents.length
    · exact ⟨_, _, h.immeasurable hlarge, rfl, rfl⟩
    · exact ⟨_, _, h.collides (by omega) (by omega) (by omega), rfl, rfl⟩

/-- An address that was answered is where the heap ended, and the block fits. -/
theorem Grows.of_ok (h : Grows a contents result) {address : Cell} (hresult : result = some (.ok address, b)) :
    address = a.registers.hea ∧ a.registers.hea.val + 4 * contents.length ≤ a.registers.stk.val ∧ Grown a contents b := by
  rcases h.cases with ⟨hfits, _, hanswer, hgrown⟩ | ⟨s, _, hanswer, -⟩
  · rw [hresult] at hanswer
    cases hanswer
    exact ⟨rfl, hfits, hgrown⟩
  · rw [hresult] at hanswer
    cases hanswer

/-! ### Whole cells -/

theorem LaidOut.roomy (ha : a.LaidOut n) : a.Roomy := by
  obtain ⟨hlength, -, hnonneg, hbelow, htop⟩ := ha
  exact ⟨hnonneg, hbelow, by omega⟩

/-- The contents are in place, and their addresses follow. -/
theorem Grown.extends (h : Grown a contents b) (ha : a.LaidOut n)
    (hfits : a.registers.hea.val + 4 * contents.length ≤ a.registers.stk.val) : Extends i a contents b := by
  obtain ⟨haligned, hnonneg, -, htop⟩ := ha.registers
  refine ⟨h, fun j hj => ?_⟩
  obtain ⟨limit, memory, rfl, hlimit, hwritten⟩ := h
  have hupper := limit.upper
  refine ⟨⟨a.registers.hea.val + 4 * j, by omega, by omega⟩, rfl, fun w hw => ?_⟩
  have hmemory : (a.registers.hea.val / 4).toNat + j < memory.length := by
    rw [hwritten.length, ha.memory]
    omega
  have hindex : ({ a with memory, registers := { a.registers with hea := limit } } : Instance).cellIndex?
      ⟨a.registers.hea.val + 4 * j, by omega, by omega⟩ = some ((a.registers.hea.val / 4).toNat + j) :=
    cellIndex?_of_heap (by dsimp only; omega) (by dsimp only; omega) hmemory
  rw [resolvePlain_eq hw, place, hindex]

theorem Grows.allocates (h : Grows a contents result) (ha : a.LaidOut n) : Allocates i a contents result := by
  refine ⟨h.immeasurable, h.collides, fun hfits => ?_⟩
  obtain ⟨b, hb, hgrown⟩ := h.fits hfits
  exact ⟨b, hb, hgrown.extends ha hfits⟩

theorem allocates_allot (ha : a.LaidOut n) (k : Nat) : Allocates i a (List.replicate k 0) (a.allot? k) :=
  (grows_allot ha.roomy k).allocates ha

theorem allocates_allocCells (ha : a.LaidOut n) (cells : List Cell) :
    Allocates i a (cells ++ [0]) (a.allocCells? cells) :=
  (grows_allocCells ha.roomy cells).allocates ha

/-- Every allocation has an answer, and leaves memory as large and the end of the heap below the stack. -/
theorem Grows.laidOut (h : Grows a contents result) (ha : a.LaidOut n) : ∃ r b, result = some (r, b) ∧ b.LaidOut n := by
  obtain ⟨haligned, hnonneg, hbelow, htop⟩ := ha.registers
  rcases h.cases with ⟨hfits, b, hb, limit, memory, rfl, hlimit, hwritten⟩ | ⟨s, b, hb, hmemory, hregisters⟩
  · refine ⟨_, _, hb, hwritten.length.trans ha.memory, ?_, ?_, ?_, htop⟩
    all_goals dsimp only; omega
  · exact ⟨_, _, hb, hmemory ▸ ha.memory, hregisters ▸ ha.registers⟩

/-- A string that was allocated is read on the machine's own entries as far as its first zero. -/
theorem readString_of_allocCells (ha : a.LaidOut n) {address : Cell}
    (h : a.allocCells? cells = some (.ok address, b)) {σ : Type} {w : World σ} (hb : w.instance? i = some b)
    (hresolve : w.entry .resolve = .plain) (hmeasure : w.entry .measure = .plain) :
    Act.readString i address w = some (.ok (cells.takeWhile (· ≠ 0)), w) := by
  obtain ⟨rfl, hfits, hgrown⟩ := (grows_allocCells ha.roomy cells).of_ok h
  obtain ⟨⟨limit, memory, rfl, -, hwritten⟩, hleads⟩ := hgrown.extends (i := i) ha hfits
  -- the address is that of the first cell, and from there on stand the cells and their zero
  obtain ⟨first, hfirst, hplain⟩ := hleads 0 (by simp)
  obtain rfl : first = a.registers.hea := Cell.ext (by omega)
  have hplace := hplain w hb
  rw [resolvePlain_eq hb] at hplace
  refine Act.readString_of_memory ?_ ?_ hb (hwritten.drop_eq.trans (List.append_assoc ..))
  · unfold Act.resolve
    rw [Act.bind_of_some (Act.get_eq w), Act.resolveWithin_plain hresolve, hb, Option.map_some]
    exact hplace
  · unfold Act.measure
    rw [Act.bind_of_some (Act.get_eq w)]
    exact Act.measureWithin_plain hmeasure _

/-- Between the end of the heap and the stack, and above the stack, no address leads anywhere. -/
theorem resolvePlain_of_between {address : Cell} (hheap : a.registers.hea ≤ address) (hstack : address < a.registers.stk)
    {σ : Type} {w : World σ} (ha : w.instance? i = some a) :
    Act.resolvePlain i address w = some (.error .memoryAccess, w) := by
  rw [Cell.le_def] at hheap
  rw [Cell.lt_def] at hstack
  have hbetween : ¬ (address < a.registers.hea ∨ (a.registers.stk ≤ address ∧ address < a.stackTop)) := by
    rw [Cell.lt_def, Cell.le_def]
    omega
  have hindex : a.cellIndex? address = none := by
    unfold cellIndex?
    rw [if_neg hbetween, ite_self]
  rw [resolvePlain_eq ha, place, hindex]

end Instance

/-! ## In any order -/

/-- An instance whose heap is worked on, and the tokens that it has given. -/
structure Heap where
  script : Instance
  tokens : List Token

/-- What is done with a heap. -/
inductive Heap.Action
  | allot (cells : Nat)
  | allocCells (cells : List Cell)
  | allocText (text : String)
  | release (hea : Cell)
  /-- Write cells from one of the heap on. -/
  | write (start : Nat) (cells : List Cell)
  | takeToken
  | restore (token : Token)

namespace Heap

variable {n : Nat} {i : InstanceId} {h h' : Heap} {action : Action}

/-- What may be done: the end of the heap is taken back by whole cells, cells are written into the heap, and only tokens that
were given are given back. -/
def Action.Allowed (h : Heap) : Action → Prop
  | .release hea => hea.val % 4 = 0
  | .write start cells => 4 * ((start : Int) + cells.length) ≤ h.script.registers.hea.val
  | .restore token => token ∈ h.tokens
  | _ => True

/-- The heap after an allocation, whatever the answer was. -/
def allocated (h : Heap) (result : Option (Except Status Cell × Instance)) : Option Heap :=
  result.map fun r => { h with script := r.2 }

/-- What becomes of the heap of an instance. -/
def perform (i : InstanceId) (h : Heap) : Action → Option Heap
  | .allot cells => h.allocated (h.script.allot? cells)
  | .allocCells cells => h.allocated (h.script.allocCells? cells)
  | .allocText text => h.allocated (h.script.allocCells? (text.toList.map Cell.ofChar))
  | .release hea => some { h with script := h.script.release hea }
  | .write start cells => (Buffer.overwrite? h.script.memory start cells).map fun memory =>
    { h with script := { h.script with memory } }
  | .takeToken => some { h with tokens := h.tokens ++ [⟨i, h.script.registers⟩] }
  | .restore token => some { h with script := (h.script.restore i token).2 }

/-- The heaps of an instance with so many cells, after anything that may be done. What the instance has besides its memory and
registers does not matter. -/
inductive Reached (n : Nat) (i : InstanceId) : Heap → Prop
  | new {a : Instance} (memory : a.memory = (Instance.new n).memory)
      (registers : a.registers = (Instance.new n).registers) : Reached n i ⟨a, []⟩
  | step {h h' : Heap} {action : Action} (before : Reached n i h) (allowed : action.Allowed h)
      (performed : h.perform i action = some h') : Reached n i h'

/-- What lasts: the instance is laid out, and would be with the registers of any token that it has given. -/
structure Ordered (n : Nat) (i : InstanceId) (h : Heap) : Prop where
  script : h.script.LaidOut n
  tokens : ∀ token ∈ h.tokens, token.owner = i ∧ token.registers.Bounded n

theorem ordered_new (hn : 4 * n ≤ 2147483647) {a : Instance} (hmemory : a.memory = (Instance.new n).memory)
    (hregisters : a.registers = (Instance.new n).registers) : Ordered n i ⟨a, []⟩ := by
  have htop := Instance.val_topOf hn
  refine ⟨⟨?_, ?_⟩, fun token htoken => absurd htoken List.not_mem_nil⟩
  · rw [hmemory]
    exact List.length_replicate
  · rw [hregisters]
    refine ⟨rfl, Int.le_refl 0, ?_, htop⟩
    show (0 : Int) ≤ (Instance.topOf n).val
    omega

theorem Ordered.setScript (ho : Ordered n i h) {b : Instance} (hb : b.LaidOut n) :
    Ordered n i { h with script := b } :=
  ⟨hb, ho.tokens⟩

/-- An allocation has an answer and keeps the order. -/
theorem Ordered.allocated (ho : Ordered n i h) {contents : List Cell}
    {result : Option (Except Status Cell × Instance)} (hgrows : h.script.Grows contents result) :
    ∃ h', h.allocated result = some h' ∧ Ordered n i h' := by
  obtain ⟨r, b, rfl, hb⟩ := hgrows.laidOut ho.script
  exact ⟨_, rfl, ho.setScript hb⟩

/-- Everything that may be done can be done, and keeps the order. -/
theorem Ordered.step (ho : Ordered n i h) (hallowed : action.Allowed h) :
    ∃ h', h.perform i action = some h' ∧ Ordered n i h' := by
  obtain ⟨hlength, haligned, hnonneg, hbelow, htop⟩ := ho.script
  cases action with
  | allot cells => exact ho.allocated (Instance.grows_allot ho.script.roomy cells)
  | allocCells cells => exact ho.allocated (Instance.grows_allocCells ho.script.roomy cells)
  | allocText text => exact ho.allocated (Instance.grows_allocCells ho.script.roomy _)
  | release hea =>
    refine ⟨_, rfl, ho.setScript ?_⟩
    unfold Instance.release
    split
    · rename_i hearlier
      rw [Cell.le_def, Cell.lt_def, Cell.val_zero] at hearlier
      exact ⟨hlength, hallowed, hearlier.1, by dsimp only; omega, htop⟩
    · exact ho.script
  | write start cells =>
    obtain ⟨memory, hmemory, hwritten⟩ : ∃ memory, Buffer.overwrite? h.script.memory start cells = some memory ∧ _ :=
      Buffer.exists_overwrite? (by dsimp only [Action.Allowed] at hallowed; omega)
    refine ⟨_, congrArg (Option.map _) hmemory, ho.setScript ⟨hwritten.length.trans hlength, ho.script.registers⟩⟩
  | takeToken =>
    refine ⟨_, rfl, ho.script, fun token htoken => ?_⟩
    rcases List.mem_append.1 htoken with hold | hnew
    · exact ho.tokens token hold
    · obtain rfl := List.mem_singleton.1 hnew
      exact ⟨rfl, ho.script.registers⟩
  | restore token =>
    obtain ⟨howner, hbounded⟩ := ho.tokens token hallowed
    refine ⟨_, rfl, ho.setScript ?_⟩
    unfold Instance.restore
    rw [if_pos howner]
    exact ⟨hlength, hbounded⟩

theorem Reached.ordered (hn : 4 * n ≤ 2147483647) (hr : Reached n i h) : Ordered n i h := by
  induction hr with
  | new hmemory hregisters => exact ordered_new hn hmemory hregisters
  | step _ allowed performed ih =>
    obtain ⟨h', hperformed, hordered⟩ := ih.step allowed
    rw [performed] at hperformed
    cases hperformed
    exact hordered

/-- What is known of the heap of an instance. -/
structure Law (i : InstanceId) (h : Heap) : Prop where
  /-- The heap has whole cells, and ends below the stack, which is empty. -/
  aligned : h.script.registers.hea.val % 4 = 0
  nonneg : 0 ≤ h.script.registers.hea.val
  below : h.script.registers.hea ≤ h.script.registers.stk
  top : h.script.registers.stk = h.script.stackTop
  /-- Whatever may be done has a result. -/
  goesOn : ∀ action : Action, action.Allowed h → ∃ h', h.perform i action = some h'
  /-- A block of zeros, and cells with a zero behind them. -/
  allot : ∀ k, h.script.Allocates i (List.replicate k 0) (h.script.allot? k)
  allocCells : ∀ cells, h.script.Allocates i (cells ++ [0]) (h.script.allocCells? cells)
  /-- The cells are read as a string, with the machine's own entries in the table. -/
  readable : ∀ {cells address b}, h.script.allocCells? cells = some (.ok address, b) →
    ∀ {σ : Type} (w : World σ), w.instance? i = some b → w.entry .resolve = .plain → w.entry .measure = .plain →
      Act.readString i address w = some (.ok (cells.takeWhile (· ≠ 0)), w)
  /-- No address between the heap and the stack leads anywhere. -/
  between : ∀ address, h.script.registers.hea ≤ address → address < h.script.registers.stk →
    ∀ {σ : Type} (w : World σ), w.instance? i = some h.script →
      Act.resolvePlain i address w = some (.error .memoryAccess, w)

/-- **The heap.** Whatever is done with the heap of an instance whose memory can be measured, the law of the heap holds. -/
theorem heap_allocations (hn : 4 * n ≤ 2147483647) (hr : Reached n i h) : h.Law i := by
  have hordered := hr.ordered hn
  obtain ⟨hlength, haligned, hnonneg, hbelow, htop⟩ := hordered.script
  refine
    { aligned := haligned
      nonneg := hnonneg
      below := hbelow
      top := Cell.ext ?_
      goesOn := fun action hallowed => ?_
      allot := Instance.allocates_allot hordered.script
      allocCells := Instance.allocates_allocCells hordered.script
      readable := fun halloc _ w hb hresolve hmeasure =>
        Instance.readString_of_allocCells hordered.script halloc hb hresolve hmeasure
      between := fun _ hheap hstack _ _ ha => Instance.resolvePlain_of_between hheap hstack ha }
  · rw [htop, Instance.stackTop, hlength, Instance.val_topOf hn]
  · obtain ⟨h', hperformed, -⟩ := hordered.step hallowed
    exact ⟨h', hperformed⟩

/-- The registers of four cells of memory, as long as the heap is empty. -/
def fourCells : Registers where
  cip := 0
  frm := ⟨16, by decide, by decide⟩
  stk := ⟨16, by decide, by decide⟩
  hea := 0
  pri := 0
  alt := 0

/-- A string is allocated, and the heap is taken back with a token. Four cells can be allocated then, and not five. -/
theorem heap_allocations_of_four : 4 * 4 ≤ 2147483647 ∧ ∃ h, Reached 4 ⟨0⟩ h ∧
    h.script.allot? 5 = some (.error .stackCollision, h.script.raise .stackCollision) ∧
    ∃ b, h.script.allot? 4 = some (.ok 0, b) ∧ h.script.Extends ⟨0⟩ (List.replicate 4 0) b := by
  have hnew : Reached 4 ⟨0⟩ ⟨.new 4, []⟩ := .new rfl rfl
  have htoken : Reached 4 ⟨0⟩ ⟨.new 4, [⟨⟨0⟩, fourCells⟩]⟩ :=
    hnew.step (show Action.takeToken.Allowed _ from trivial) rfl
  have hstring : Reached 4 ⟨0⟩ ⟨{ Instance.new 4 with
      memory := [2, 0, 0, 0], registers := { fourCells with hea := ⟨8, by decide, by decide⟩ } },
      [⟨⟨0⟩, fourCells⟩]⟩ := htoken.step (show (Action.allocCells [2]).Allowed _ from trivial) rfl
  have hback : Reached 4 ⟨0⟩ ⟨{ Instance.new 4 with memory := [2, 0, 0, 0] }, [⟨⟨0⟩, fourCells⟩]⟩ :=
    hstring.step (show (Action.restore ⟨⟨0⟩, fourCells⟩).Allowed _ from List.mem_singleton.2 rfl) rfl
  have hlaw := heap_allocations (by decide) hback
  exact ⟨by decide, _, hback, (hlaw.allot 5).collides (by decide) (by decide) (by decide),
    (hlaw.allot 4).fits (by decide)⟩

end Heap

end Interpose

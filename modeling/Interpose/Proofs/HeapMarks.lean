import Interpose.Proofs.Heap

/-!
# Marks of the heap

The heap is taken back to a mark, which is an address. A mark below zero is none, and neither is one at which the heap does
not end earlier; every other mark is taken, also one that lies within a cell. Here a new instance, with memory of any size,
is worked on with allocations and with marks of every kind.

The end of the heap does not pass the stack whatever is done, and lies as far behind a cell's address as the mark that was
taken last. As long as that is the address of a cell, a block that is allocated has an address, and what stood in the heap
still stands there. Once it is not, blocks are still handed out, but their addresses lead nowhere, and the contents of a block
are written from the cell on within which the heap ended. That cell has an address, and was in the heap already.

Main statement: `heap_offsets`.
-/

namespace Interpose

namespace Instance

variable {n : Nat} {a b : Instance} {i : InstanceId} {contents : List Cell} {address : Cell}
  {result : Option (Except Status Cell × Instance)}

theorem topOf_bounds (n : Nat) : 0 ≤ (topOf n).val ∧ (topOf n).val ≤ 4 * n := by
  by_cases hn : 4 * n ≤ 2147483647
  · rw [val_topOf hn]
    omega
  · -- the top of a memory that cannot be measured is the greatest address of a cell
    unfold topOf
    rw [Cell.bytesOf_eq_none.2 (by omega)]
    show (0 : Int) ≤ 2147483644 ∧ (2147483644 : Int) ≤ 4 * n
    omega

/-! ## Blocks behind any end of the heap -/

/-- With the machine's own entry, an address of the instance leads to a cell of its memory. -/
def Leads (i : InstanceId) (a : Instance) (address : Cell) (index : Nat) : Prop :=
  ∀ {σ : Type} (w : World σ), w.instance? i = some a →
    Act.resolvePlain i address w = some (.ok (.memory i index), w)

/-- A block that belongs to who asked for it: it has an address, and all cells of the heap are what they were. -/
structure Owned (i : InstanceId) (a : Instance) (address : Cell) (b : Instance) : Prop where
  aligned : address.val % 4 = 0
  leads : Leads i b address (address.val / 4).toNat
  kept : ∀ index : Nat, 4 * (index : Int) < a.registers.hea.val → b.memory[index]? = a.memory[index]?

/-- A block that lies across cells: its address leads nowhere, and its first cell was written over a cell which had an
address in the heap before, and still has. -/
structure Misplaced (i : InstanceId) (a : Instance) (contents : List Cell) (address : Cell) (b : Instance) : Prop where
  unaligned : address.val % 4 ≠ 0
  leadsNowhere : ∀ {σ : Type} (w : World σ), w.instance? i = some b →
    Act.resolvePlain i address w = some (.error .memoryAccess, w)
  overwrites : ∃ (earlier : Cell) (index : Nat), earlier < a.registers.hea ∧ Leads i a earlier index ∧
    Leads i b earlier index ∧ b.memory[index]? = contents.head?

/-- What comes of an allocation wherever the heap ends, and what a block with cells in it is worth. -/
structure HandsOut (i : InstanceId) (a : Instance) (contents : List Cell)
    (result : Option (Except Status Cell × Instance)) : Prop extends Grows a contents result where
  owned : a.registers.hea.val % 4 = 0 → contents ≠ [] → ∀ address b, result = some (.ok address, b) →
    address = a.registers.hea ∧ Owned i a address b
  misplaced : a.registers.hea.val % 4 ≠ 0 → contents ≠ [] → ∀ address b, result = some (.ok address, b) →
    address = a.registers.hea ∧ Misplaced i a contents address b

theorem leads_of_heap {index : Nat} (haddress : address.val = 4 * index) (hheap : address.val < a.registers.hea.val)
    (hmemory : index < a.memory.length) : Leads i a address index := by
  intro σ w hw
  rw [resolvePlain_eq hw, place, cellIndex?_of_heap haddress hheap hmemory]

/-- An address within a cell leads nowhere. -/
theorem resolvePlain_of_unaligned (h : address.val % 4 ≠ 0) {σ : Type} {w : World σ} (ha : w.instance? i = some a) :
    Act.resolvePlain i address w = some (.error .memoryAccess, w) := by
  have hindex : a.cellIndex? address = none := if_pos (.inr h)
  rw [resolvePlain_eq ha, place, hindex]

/-- Cells below the one in which the heap ended are kept. -/
theorem Grown.kept (h : Grown a contents b) {index : Nat} (hindex : index < (a.registers.hea.val / 4).toNat) :
    b.memory[index]? = a.memory[index]? := by
  obtain ⟨limit, memory, rfl, -, hwritten⟩ := h
  exact hwritten.elsewhere index (.inl hindex)

/-- The first of the contents is in the cell in which the heap ended. -/
theorem Grown.first (h : Grown a contents b) (hne : contents ≠ []) :
    b.memory[(a.registers.hea.val / 4).toNat]? = contents.head? := by
  obtain ⟨limit, memory, rfl, -, hwritten⟩ := h
  rw [List.head?_eq_getElem?]
  exact hwritten.here 0 (List.length_pos_iff.2 hne)

/-- A heap in which a block fits is roomy with it. -/
theorem Grown.roomy (h : Grown a contents b) (ha : a.Roomy)
    (hfits : a.registers.hea.val + 4 * contents.length ≤ a.registers.stk.val) : b.Roomy := by
  obtain ⟨hnonneg, -, hwithin⟩ := ha
  obtain ⟨limit, memory, rfl, hlimit, hwritten⟩ := h
  refine ⟨?_, ?_, ?_⟩
  · show 0 ≤ limit.val
    omega
  · show limit.val ≤ a.registers.stk.val
    omega
  · show a.registers.stk.val ≤ 4 * memory.length
    rw [hwritten.length]
    exact hwithin

theorem Grown.end_eq (h : Grown a contents b) :
    b.registers.hea.val = a.registers.hea.val + 4 * contents.length := by
  obtain ⟨limit, memory, rfl, hlimit, -⟩ := h
  exact hlimit

theorem Roomy.index_lt (ha : a.Roomy) {index : Nat} (hindex : 4 * (index : Int) < a.registers.hea.val) :
    index < a.memory.length := by
  obtain ⟨-, hbelow, hwithin⟩ := ha
  omega

/-- Behind whole cells, a block is made of cells of its own. -/
theorem Grown.owned (h : Grown a contents b) (ha : a.Roomy) (hb : b.Roomy) (haligned : a.registers.hea.val % 4 = 0)
    (hne : contents ≠ []) : Owned i a a.registers.hea b := by
  have hnonneg := ha.nonneg
  have hend := h.end_eq
  have hlength := List.length_pos_iff.2 hne
  -- what lies below the end of the heap lies below the cell that begins there
  exact
    { aligned := haligned
      leads := leads_of_heap (by omega) (by omega) (hb.index_lt (by omega))
      kept := fun index hindex => h.kept (by omega) }

/-- Behind the beginning of a cell, a block takes that cell. -/
theorem Grown.misplaced (h : Grown a contents b) (ha : a.Roomy) (hb : b.Roomy)
    (hunaligned : a.registers.hea.val % 4 ≠ 0) (hne : contents ≠ []) :
    Misplaced i a contents a.registers.hea b := by
  have hnonneg := ha.nonneg
  have hend := h.end_eq
  have hupper := a.registers.hea.upper
  -- the cell within which the heap ends has an address below that end
  obtain ⟨earlier, hearlier⟩ : ∃ earlier : Cell, earlier.val = 4 * (a.registers.hea.val / 4).toNat :=
    ⟨⟨4 * (a.registers.hea.val / 4).toNat, by omega, by omega⟩, rfl⟩
  have hbelow : earlier.val < a.registers.hea.val := by omega
  exact
    { unaligned := hunaligned
      leadsNowhere := fun w hw => resolvePlain_of_unaligned hunaligned hw
      overwrites := ⟨earlier, (a.registers.hea.val / 4).toNat, Cell.lt_def.2 hbelow,
        leads_of_heap hearlier hbelow (ha.index_lt (by omega)),
        leads_of_heap hearlier (by omega) (hb.index_lt (by omega)), h.first hne⟩ }

theorem Grows.handsOut (h : Grows a contents result) (ha : a.Roomy) : HandsOut i a contents result := by
  refine ⟨h, fun haligned hne address b hresult => ?_, fun hunaligned hne address b hresult => ?_⟩
  · obtain ⟨rfl, hfits, hgrown⟩ := h.of_ok hresult
    exact ⟨rfl, hgrown.owned ha (hgrown.roomy ha hfits) haligned hne⟩
  · obtain ⟨rfl, hfits, hgrown⟩ := h.of_ok hresult
    exact ⟨rfl, hgrown.misplaced ha (hgrown.roomy ha hfits) hunaligned hne⟩

end Instance

/-! ## Any marks in any order -/

namespace Heap

variable {n : Nat} {i : InstanceId} {h : Heap} {mark : Cell} {action : Action}

/-- An allocation, or a mark of any kind. -/
def Action.Marks : Action → Prop
  | .allot _ | .allocCells _ | .allocText _ | .release _ => True
  | _ => False

/-- The mark that was taken last, after an action. -/
def Action.lastMark (h : Heap) (last : Cell) : Action → Cell
  | .release mark => if 0 ≤ mark ∧ mark < h.script.registers.hea then mark else last
  | _ => last

/-- An action, along with which the mark is kept that was taken last. -/
def advance (i : InstanceId) (s : Heap × Cell) (action : Action) : Option (Heap × Cell) :=
  (s.1.perform i action).map fun h => (h, action.lastMark s.1 s.2)

/-- The actions of a list. -/
def advanceAll (i : InstanceId) (s : Heap × Cell) (actions : List Action) : Option (Heap × Cell) :=
  actions.foldlM (advance i) s

/-- A new instance. Its heap ends at zero, as if it had been taken back to there. -/
def fresh (n : Nat) : Heap × Cell := (⟨.new n, []⟩, 0)

/-- What lasts: the stack stays empty and the heap below it, and the heap ends as far behind a cell's address as the mark that
was taken last. -/
structure Marked (n : Nat) (s : Heap × Cell) : Prop where
  memory : s.1.script.memory.length = n
  stack : s.1.script.registers.stk = Instance.topOf n
  nonneg : 0 ≤ s.1.script.registers.hea.val
  below : s.1.script.registers.hea.val ≤ s.1.script.registers.stk.val
  offset : s.1.script.registers.hea.val % 4 = s.2.val % 4

theorem marked_fresh (n : Nat) : Marked n (fresh n) where
  memory := List.length_replicate
  stack := rfl
  nonneg := Int.le_refl 0
  below := (Instance.topOf_bounds n).1
  offset := rfl

theorem Marked.roomy (hm : Marked n (h, mark)) : h.script.Roomy := by
  have htop := (Instance.topOf_bounds n).2
  rw [← hm.stack, ← hm.memory] at htop
  exact ⟨hm.nonneg, hm.below, htop⟩

/-- An allocation has an answer, and moves the end of the heap by whole cells if at all. -/
theorem Marked.allocated (hm : Marked n (h, mark)) {contents : List Cell}
    {result : Option (Except Status Cell × Instance)} (hgrows : h.script.Grows contents result) :
    ∃ h', h.allocated result = some h' ∧ Marked n (h', mark) := by
  obtain ⟨hlength, hstack, hnonneg, hbelow, hoffset⟩ := hm
  rcases hgrows.cases with ⟨hfits, b, rfl, limit, memory, rfl, hlimit, hwritten⟩ | ⟨s, b, rfl, hmemory, hregisters⟩
  · -- a block has whole cells, so the end keeps its offset
    refine ⟨_, rfl, hwritten.length.trans hlength, hstack, ?_, ?_, ?_⟩
    all_goals dsimp only at *; omega
  · rw [← hmemory] at hlength
    rw [← hregisters] at hstack hnonneg hbelow hoffset
    exact ⟨_, rfl, hlength, hstack, hnonneg, hbelow, hoffset⟩

/-- A mark is taken or it changes nothing. -/
theorem Marked.released (hm : Marked n (h, mark)) (hea : Cell) :
    Marked n ({ h with script := h.script.release hea }, (Action.release hea).lastMark h mark) := by
  obtain ⟨hmemory, hstack, hnonneg, hbelow, hoffset⟩ := hm
  unfold Instance.release Action.lastMark
  by_cases htaken : 0 ≤ hea ∧ hea < h.script.registers.hea
  · -- nothing is asked of the mark but its size, and the end takes over its offset
    simp only [if_pos htaken]
    rw [Cell.le_def, Cell.lt_def, Cell.val_zero] at htaken
    exact ⟨hmemory, hstack, htaken.1, by dsimp only at hbelow ⊢; omega, rfl⟩
  · simp only [if_neg htaken]
    exact ⟨hmemory, hstack, hnonneg, hbelow, hoffset⟩

theorem Action.lastMark_release (h : Heap) (mark hea : Cell) :
    (Action.release hea).lastMark h mark = mark ∨ Action.release hea = .release ((Action.release hea).lastMark h mark) := by
  unfold Action.lastMark
  dsimp only
  split
  · exact .inr rfl
  · exact .inl rfl

/-- Every allocation and every mark has a result and keeps what lasts. The mark that was taken last stays or is the new one. -/
theorem Marked.step {s : Heap × Cell} (hm : Marked n s) (haction : action.Marks) :
    ∃ s', advance i s action = some s' ∧ Marked n s' ∧ (s'.2 = s.2 ∨ action = .release s'.2) := by
  obtain ⟨h, mark⟩ := s
  have hroomy := hm.roomy
  -- the three allocations differ in their contents only
  have halloc : ∀ {contents result}, h.script.Grows contents result → ∃ s',
      (h.allocated result).map (fun h => (h, mark)) = some s' ∧ Marked n s' ∧ (s'.2 = mark ∨ action = .release s'.2) := by
    intro contents result hgrows
    obtain ⟨h', hallocated, hmarked⟩ := hm.allocated hgrows
    exact ⟨(h', mark), by rw [hallocated, Option.map_some], hmarked, .inl rfl⟩
  cases action with
  | allot cells => exact halloc (Instance.grows_allot hroomy cells)
  | allocCells cells => exact halloc (Instance.grows_allocCells hroomy cells)
  | allocText text => exact halloc (Instance.grows_allocCells hroomy _)
  | release hea => exact ⟨_, rfl, hm.released hea, Action.lastMark_release h mark hea⟩
  | write | takeToken | restore => exact haction.elim

/-- Any list of allocations and marks has a result and keeps what lasts. -/
theorem Marked.run {s : Heap × Cell} (hm : Marked n s) (actions : List Action) (hactions : ∀ action ∈ actions, action.Marks) :
    ∃ s', advanceAll i s actions = some s' ∧ Marked n s' ∧ (s'.2 = s.2 ∨ .release s'.2 ∈ actions) := by
  induction actions generalizing s with
  | nil => exact ⟨s, rfl, hm, .inl rfl⟩
  | cons action rest ih =>
    obtain ⟨hfirst, hrest⟩ := List.forall_mem_cons.1 hactions
    obtain ⟨s₁, hadvance, hm₁, hmark₁⟩ := hm.step (i := i) hfirst
    obtain ⟨s₂, hadvanceAll, hm₂, hmark₂⟩ := ih hm₁ hrest
    refine ⟨s₂, ?_, hm₂, ?_⟩
    · unfold advanceAll at hadvanceAll ⊢
      rw [List.foldlM_cons, hadvance]
      exact hadvanceAll
    · -- the mark is one of the rest, or the first action's, or the one from before
      rcases hmark₂ with hsame | hnew
      · rw [hsame]
        rcases hmark₁ with hkept | rfl
        · exact .inl hkept
        · exact .inr List.mem_cons_self
      · exact .inr (List.mem_cons_of_mem _ hnew)

/-- What is known of a heap that was taken back to a mark last. -/
structure MarkLaw (i : InstanceId) (mark : Cell) (h : Heap) : Prop where
  /-- The heap ends below the stack, which is empty. -/
  nonneg : 0 ≤ h.script.registers.hea.val
  below : h.script.registers.hea ≤ h.script.registers.stk
  top : h.script.registers.stk = h.script.stackTop
  /-- It ends at the address of a cell if the mark was one, and as far behind one as the mark was if not. -/
  offset : h.script.registers.hea.val % 4 = mark.val % 4
  /-- A block of zeros, and cells with a zero behind them. -/
  allot : ∀ k, h.script.HandsOut i (List.replicate k 0) (h.script.allot? k)
  allocCells : ∀ cells, h.script.HandsOut i (cells ++ [0]) (h.script.allocCells? cells)

theorem Marked.law (hm : Marked n (h, mark)) : h.MarkLaw i mark where
  nonneg := hm.nonneg
  below := hm.below
  top := by
    rw [Instance.stackTop, hm.memory]
    exact hm.stack
  offset := hm.offset
  allot k := (Instance.grows_allot hm.roomy k).handsOut hm.roomy
  allocCells cells := (Instance.grows_allocCells hm.roomy cells).handsOut hm.roomy

/-- **The end of the heap.** Whatever is allocated by a new instance and whatever marks its heap is taken back to, the law of
marks holds for the mark that was taken last. If there was none, the heap has whole cells. -/
theorem heap_offsets (n : Nat) (i : InstanceId) (actions : List Action) (hactions : ∀ action ∈ actions, action.Marks) :
    ∃ h mark, advanceAll i (fresh n) actions = some (h, mark) ∧ (mark = 0 ∨ .release mark ∈ actions) ∧ h.MarkLaw i mark := by
  obtain ⟨⟨h, mark⟩, hadvance, hmarked, hmark⟩ := (marked_fresh n).run (i := i) actions hactions
  exact ⟨h, mark, hadvance, hmark, hmarked.law⟩

/-- An address within the second cell of memory. -/
def withinCell : Cell := ⟨5, by decide, by decide⟩

/-- Two cells in a memory of four, and a heap that was taken back into the second. -/
def takenBack : Heap where
  script := { Instance.new 4 with memory := [2, 1, 0, 0], registers := { fourCells with hea := withinCell } }
  tokens := []

theorem advanceAll_takenBack :
    advanceAll ⟨0⟩ (fresh 4) [.allocCells [2, 1], .release withinCell] = some (takenBack, withinCell) := rfl

/-- The mark is not the address of a cell, and the law holds for it. -/
theorem heap_offsets_takenBack :
    (∀ action ∈ [Action.allocCells [2, 1], .release withinCell], action.Marks) ∧ takenBack.MarkLaw ⟨0⟩ withinCell := by
  have hactions : ∀ action ∈ [Action.allocCells [2, 1], .release withinCell], action.Marks := by
    simp [Action.Marks]
  obtain ⟨h, mark, hadvance, -, hlaw⟩ := heap_offsets 4 ⟨0⟩ _ hactions
  rw [advanceAll_takenBack] at hadvance
  cases hadvance
  exact ⟨hactions, hlaw⟩

/-- One mark, and the end of the heap is not the address of a cell. The next block answers that end, where no address leads,
and makes zero of the second cell, which has an address in the heap. -/
theorem heap_offsets_overwriting :
    advanceAll ⟨0⟩ (fresh 4) [.allocCells [2, 1], .release withinCell] = some (takenBack, withinCell) ∧
      takenBack.script.registers.hea.val % 4 ≠ 0 ∧ takenBack.script.memory[1]? = some 1 ∧
      takenBack.script.cellIndex? ⟨4, by decide, by decide⟩ = some 1 ∧
      ∃ b, takenBack.script.allot? 1 = some (.ok withinCell, b) ∧ b.memory[1]? = some 0 ∧
        b.cellIndex? ⟨4, by decide, by decide⟩ = some 1 ∧
        takenBack.script.Misplaced ⟨0⟩ [0] withinCell b := by
  have hroomy : takenBack.script.Roomy := ⟨by decide, by decide, by decide⟩
  have hunaligned : takenBack.script.registers.hea.val % 4 ≠ 0 := by decide
  obtain ⟨b, hb, hgrown⟩ := (Instance.grows_allot hroomy 1).fits (by decide)
  obtain ⟨-, hmisplaced⟩ := ((Instance.grows_allot hroomy 1).handsOut hroomy).misplaced hunaligned (by simp) _ _ hb
  have hfirst : b.memory[1]? = some 0 := hgrown.first (by simp)
  have hend : b.registers.hea.val = 9 := hgrown.end_eq
  have hlength : 1 < b.memory.length := (List.getElem?_eq_some_iff.1 hfirst).1
  exact ⟨rfl, hunaligned, rfl, rfl, b, hb, hfirst, Instance.cellIndex?_of_heap rfl (by rw [hend]; decide) hlength, hmisplaced⟩

end Heap

end Interpose

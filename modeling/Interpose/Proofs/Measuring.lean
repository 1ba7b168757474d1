import Interpose.Proofs.PoolContents
import Interpose.Proofs.PooledReading
import Interpose.Proofs.StringEdits

/-!
# Measuring pooled strings

A string is measured in two ways. The machine's own entry walks to the first zero. A layer that has its hook in the slot
knows the string that it resolved last, and answers the number of cells of that one without walking, for the record one
more; anything else is measured by the machine's own entry.

Where the two ways agree depends on the cells: at the view of a string exactly if it has no zero, at its record exactly if
it is not empty either, since the header of an empty record is a zero itself. A string that was copied out of memory without
zeros is measured alike in both ways.

This is so for strings that are sealed (`Pool.Action.IsProper`). A script that overwrites the terminator of a string makes
the walk run on.

Main statement: `Machine.strings_measured`.
-/

namespace Interpose

open World

variable {σ α : Type}

/-! ## Walking to a zero -/

namespace Buffer

theorem terminated?_concat_zero (cells : List Cell) :
    terminated? (cells ++ [0]) = some (cells.findIdx fun c => c == 0) := by
  induction cells with
  | nil => rfl
  | cons c cells ih =>
    rw [List.cons_append, terminated?, ih, List.findIdx_cons]
    by_cases hc : c = 0
    · simp [hc]
    · rw [if_neg hc, Option.map_some, beq_eq_false_iff_ne.2 hc, cond_false]

end Buffer

namespace CellString

variable {s : CellString} {part : Part}

/-- How many cells there are to a part, terminator and zeros in between aside. -/
def extent (s : CellString) : Part → Nat
  | .view => s.cells.length
  | .record => s.cells.length + 1

/-- How many cells of a part lie in front of the first zero. -/
def firstZero (s : CellString) : Part → Nat
  | .view => s.cells.findIdx fun c => c == 0
  | .record => if s.cells = [] then 0 else 1 + s.cells.findIdx fun c => c == 0

/-- As many as can be read at the addresses of the part. -/
theorem extent_eq (s : CellString) (part : Part) : (s.readable part).length = s.extent part := by
  cases part <;> simp [readable, record, extent]

/-- The header of a string is a zero if the string is empty, and only then. -/
theorem Sealed.header_eq_zero (h : s.Sealed) : s.header = 0 ↔ s.cells = [] := by
  rw [h.header, Cell.ext_iff, Cell.val_ofNat, ← List.length_eq_zero_iff]
  show ((min s.cells.length 2147483647 : Nat) : Int) = 0 ↔ _
  omega

/-- In a sealed string the walk stops at the first zero of the part, or at the terminator. -/
theorem Sealed.terminated? (h : s.Sealed) (part : Part) :
    Buffer.terminated? (s.record.drop part.start) = some (s.firstZero part) := by
  have hview : Buffer.terminated? (s.cells ++ [s.terminator]) = some (s.cells.findIdx fun c => c == 0) := by
    rw [h.terminator, Buffer.terminated?_concat_zero]
  cases part with
  | view => exact hview
  | record =>
    -- the walk begins at the header, and ends there at once if it counts no cells
    show Buffer.terminated? (s.header :: (s.cells ++ [s.terminator])) = _
    rw [Buffer.terminated?, hview, firstZero]
    by_cases hempty : s.cells = []
    · rw [if_pos (h.header_eq_zero.2 hempty), if_pos hempty]
    · rw [if_neg (mt h.header_eq_zero.1 hempty), if_neg hempty, Option.map_some, Nat.add_comm]

theorem firstZero_view : s.extent .view = s.firstZero .view ↔ 0 ∉ s.cells := by
  rw [extent, firstZero, eq_comm, List.findIdx_eq_length]
  constructor
  · intro hno hzero
    exact absurd (hno 0 hzero) (by decide)
  · intro hno c hc
    rw [beq_eq_false_iff_ne]
    rintro rfl
    exact hno hc

theorem firstZero_record : s.extent .record = s.firstZero .record ↔ 0 ∉ s.cells ∧ s.cells ≠ [] := by
  rw [← firstZero_view, extent, extent, firstZero, firstZero]
  by_cases hempty : s.cells = []
  · simp [hempty]
  · rw [if_neg hempty]
    simp only [ne_eq, hempty, not_false_eq_true, and_true]
    omega

/-- A mode without zeros leaves none. -/
theorem CreateMode.apply_ne_zero {mode : CreateMode} (hmode : mode.noNulls = true) (c : Cell) : mode.apply c ≠ 0 := by
  unfold CreateMode.apply
  dsimp only
  generalize (if mode.truncate = true then c.lowByte else c) = kept
  split
  · decide
  · rename_i hkept
    exact fun hzero => hkept ⟨hmode, hzero⟩

theorem zero_not_mem_ofMemory {mode : CreateMode} (hmode : mode.noNulls = true) (cells : List Cell) :
    0 ∉ (ofMemory cells mode).cells := by
  intro hzero
  obtain ⟨c, -, hc⟩ := List.mem_map.1 hzero
  exact CreateMode.apply_ne_zero hmode c hc

end CellString

/-! ## Sealed strings in pools -/

namespace Pool

variable {q : Pool} {actions : List Action} {id : StringId} {t : CellString}

/-- An operation by which no record comes into a pool in which header or terminator are overwritten. -/
def Action.IsProper : Action → Prop
  | .add s | .addPinned s => s.Sealed
  | .edit _ change => change.IsProper
  | _ => True

theorem Action.IsProper.grants {a : Action} (h : a.IsProper) : a.Grants fun e => e.string.Sealed where
  adds hadds := by
    cases a with
    | add s | addPinned s =>
      cases hadds
      exact h
    | _ => cases hadds
  leaves := by
    intro id e e' hsealed hafter
    -- only an edit brings other cells; an entry that the others leave has the string that it had
    cases a with
    | edit target change =>
      cases hafter
      split
      · exact hsealed.apply h
      · exact hsealed
    | acquire target =>
      cases hafter
      split <;> exact hsealed
    | remove target =>
      rw [Entry.after] at hafter
      split at hafter <;> cases hafter
      exact hsealed
    | release target =>
      rw [Entry.after] at hafter
      repeat' split at hafter
      all_goals cases hafter
      all_goals exact hsealed
    | collect =>
      rw [Entry.after] at hafter
      split at hafter <;> cases hafter
      exact hsealed
    | _ =>
      cases hafter
      exact hsealed
  collects _ _ hsealed := hsealed

/-- After proper operations every string is sealed. -/
theorem Follows.sealed (h : q.Follows actions) (hproper : ∀ a ∈ actions, a.IsProper) (hget : q.get? id = some t) :
    t.Sealed := by
  have hmade : (empty.after actions).Each fun e => e.string.Sealed := each_empty.after fun a ha => (hproper a ha).grants
  have heach : q.Each fun e => e.string.Sealed := hmade.of_slots (h ⟨0⟩).alike.slots
  obtain ⟨e, he, rfl⟩ := Option.map_eq_some_iff.1 hget
  exact heach.entry? he

end Pool

/-! ## What is measured -/

namespace Act

variable {k : SubsystemId} {w : World σ} {s : Subsystem} {id : StringId} {part : Part} {t : CellString} {p : Place}

/-- The machine's own entry, at a part of a sealed string. -/
theorem measurePlain_pooled (hs : w.subsystem? k = some s) (hget : s.pool.get? id = some t) (hsealed : t.Sealed) :
    measurePlain (.pooled k id part) w = some (t.firstZero part, w) := by
  rw [measurePlain_eq, cellsAt?, hs, Option.bind_some, hget, Option.map_some, Option.bind_some, hsealed.terminated?]
  rfl

/-- The layer, at a part of the string that it resolved last. -/
theorem measure_cached (h : Served k .measure s w) (hcache : s.pool.cache = some id) (hget : s.pool.get? id = some t) :
    measure (.pooled k id part) w = some (t.extent part, w) := by
  refine measure_known h ?_
  rw [knownLength, if_pos rfl, Pool.cachedLength?, hcache, Option.bind_some, if_pos rfl, hget]
  cases part <;> rfl

theorem knownLength_eq_none (hp : ∀ id part, p = .pooled k id part → s.pool.cache ≠ some id) :
    knownLength s k p = none := by
  cases p with
  | memory i index => rfl
  | null l => rfl
  | pooled l id part =>
    rw [knownLength]
    split
    · rename_i hl
      subst hl
      have hother := hp id part rfl
      unfold Pool.cachedLength?
      cases hcache : s.pool.cache with
      | none => rfl
      | some cached =>
        rw [hcache] at hother
        rw [Option.bind_some, if_neg fun h => hother (congrArg some h)]
    · rfl

end Act

namespace World

/-- How strings are measured in a world with one hook layer. -/
structure Measured (k : SubsystemId) (s : Subsystem) (w : World σ) : Prop where
  /-- The string that was resolved last has the length that it has now, and its record one more. -/
  cached : s.serves .measure = true → ∀ {id part t}, s.pool.cache = some id → s.pool.get? id = some t →
    Act.measure (.pooled k id part) w = some (t.extent part, w)
  /-- Everywhere else, in memory, in the null string, or in another string, it does not matter that there is a layer. -/
  elsewhere : ∀ {p}, (∀ id part, p = .pooled k id part → s.pool.cache ≠ some id) → Act.measure p w = Act.measurePlain p w
  /-- Nor does it matter anywhere while the hook is switched off. -/
  off : s.serves .measure = false → ∀ p, Act.measure p w = Act.measurePlain p w
  /-- The machine's own entry finds the first zero of a part. -/
  walked : ∀ {id part t}, s.pool.get? id = some t →
    Act.measurePlain (.pooled k id part) w = some (t.firstZero part, w)
  /-- For a view, knowing and walking give the same exactly if there is no zero. -/
  views : s.serves .measure = true → ∀ {id t}, s.pool.cache = some id → s.pool.get? id = some t →
    (Act.measure (.pooled k id .view) w = Act.measurePlain (.pooled k id .view) w ↔ 0 ∉ t.cells)
  /-- For a record, exactly if there is no zero, and any cell. -/
  records : s.serves .measure = true → ∀ {id t}, s.pool.cache = some id → s.pool.get? id = some t →
    (Act.measure (.pooled k id .record) w = Act.measurePlain (.pooled k id .record) w ↔ 0 ∉ t.cells ∧ t.cells ≠ [])
  /-- A string that was made without zeros has as many cells as were copied, whoever measures it. -/
  withoutZeros : ∀ {id cells} {mode : CellString.CreateMode}, mode.noNulls = true →
    s.pool.get? id = some (.ofMemory cells mode) → 0 ∉ (CellString.ofMemory cells mode).cells ∧
      Act.measure (.pooled k id .view) w = some (cells.length, w) ∧
      Act.measurePlain (.pooled k id .view) w = some (cells.length, w)

variable {k : SubsystemId} {w : World σ} {s : Subsystem}

/-- Where the hook is in its slot exactly if it is switched on, and the strings are sealed, this is how they are measured. -/
theorem measured (hs : w.subsystem? k = some s)
    (hreached : s.serves .measure = true ∧ Served k .measure s w ∨ s.serves .measure = false ∧ w.entry .measure = .plain)
    (hsealed : ∀ {id t}, s.pool.get? id = some t → t.Sealed) : Measured k s w := by
  have hon : s.serves .measure = true → Served k .measure s w := fun hm => by
    rcases hreached with ⟨-, hserved⟩ | ⟨hoff, -⟩
    · exact hserved
    · rw [hm] at hoff
      cases hoff
  have hoff : s.serves .measure = false → w.entry .measure = .plain := fun hm => by
    rcases hreached with ⟨hon, -⟩ | ⟨-, hplain⟩
    · rw [hm] at hon
      cases hon
    · exact hplain
  have hplain : s.serves .measure = false → ∀ p, Act.measure p w = Act.measurePlain p w := fun h p => by
    unfold Act.measure
    rw [Act.bind_of_some (Act.get_eq w)]
    exact Act.measureWithin_plain (hoff h) _
  have helsewhere : ∀ {p}, (∀ id part, p = .pooled k id part → s.pool.cache ≠ some id) →
      Act.measure p w = Act.measurePlain p w := fun {p} hp => by
    cases hm : s.serves .measure with
    | false => exact hplain hm p
    | true => exact Act.measure_elsewhere (hon hm) (Act.knownLength_eq_none hp)
  have hwalked : ∀ {id part t}, s.pool.get? id = some t →
      Act.measurePlain (.pooled k id part) w = some (t.firstZero part, w) := fun hget =>
    Act.measurePlain_pooled hs hget (hsealed hget)
  refine ⟨fun hm => Act.measure_cached (hon hm), helsewhere, hplain, hwalked, ?_, ?_, ?_⟩
  · intro hm id t hcache hget
    rw [Act.measure_cached (hon hm) hcache hget, hwalked hget, ← CellString.firstZero_view]
    simp
  · intro hm id t hcache hget
    rw [Act.measure_cached (hon hm) hcache hget, hwalked hget, ← CellString.firstZero_record]
    simp
  · intro id cells mode hmode hget
    have hno := CellString.zero_not_mem_ofMemory hmode cells
    have hextent : (CellString.ofMemory cells mode).extent .view = cells.length := List.length_map _
    have hwalk : Act.measurePlain (.pooled k id .view) w = _ := hwalked hget
    rw [← CellString.firstZero_view.2 hno, hextent] at hwalk
    refine ⟨hno, ?_, hwalk⟩
    -- the layer knows this string, or it does not, or it is not asked
    by_cases hknown : s.serves .measure = true ∧ s.pool.cache = some id
    · rw [Act.measure_cached (hon hknown.1) hknown.2 hget, hextent]
    · rw [← hwalk]
      cases hm : s.serves .measure with
      | false => exact hplain hm _
      | true =>
        refine helsewhere fun other part hother hcache => hknown ⟨hm, ?_⟩
        cases hother
        exact hcache

end World

namespace Machine

/-- **Measuring.** Whatever the host does with one hook layer, and whatever its scripts, natives and handlers do, as long as
no script has overwritten the header or the terminator of a string, at every moment of a run strings are measured as they
are now: the one that was resolved last by its cells, any other up to its first zero. -/
theorem strings_measured {host : Host σ} (hhost : host.UsesOnly (.operations Operation.keepsLayers))
    {p : Program σ α} (hp : p.Uses (.operations Operation.keepsLayers)) {instances : Array Instance} {resumer : Resumer}
    {state : σ} {config : Config} {collaborators : Collaborators} {fuel : Nat} {w : World σ}
    (hmoment : (p.runIn host fuel (.single instances resumer state config collaborators)).world = w) {s : Subsystem}
    (hs : w.subsystem? ⟨0⟩ = some s) :
    (∃ actions, s.pool.Follows actions) ∧
      ∀ actions, s.pool.Follows actions → (∀ a ∈ actions, a.IsProper) → w.Measured ⟨0⟩ s := by
  obtain ⟨made, htended⟩ := tended_runIn hhost hp instances resumer state config collaborators fuel
  rw [hmoment] at htended
  refine ⟨⟨made, (htended.of_subsystem? hs).2⟩, fun actions hactions hproper =>
    measured hs (htended.served_or_plain hs (by decide)) fun hget => hactions.sealed hproper hget⟩

/-- Switches every hook on, and changes the string that was resolved last: it begins with a letter and a zero. -/
def measuringProgram : Program Unit Unit := do
  let _ ← Program.perform (.installAll ⟨0⟩)
  let _ ← Program.perform (.pool ⟨0⟩ (.addPinned (.ofCells [1, 0])))
  let _ ← Program.perform (.pool ⟨0⟩ (.setCache ⟨1⟩))
  let _ ← Program.perform (.pool ⟨0⟩ (.edit ⟨1⟩ (.push 2)))

/-- What it does with the pool. -/
def measuring : List Pool.Action :=
  [.addPinned (.ofCells [1, 0]), .setCache ⟨1⟩, .edit ⟨1⟩ (.push 2)]

theorem strings_measured_past_zero :
    ∃ w, (measuringProgram.runIn (.scripted fun _ _ => .done (.ok 0)) 9
        (.single #[] .drop () .standard ⟨.host, .unsupported, .host⟩)).world = w ∧
      (∀ a ∈ measuring, a.IsProper) ∧ Act.measure (.pooled ⟨0⟩ ⟨1⟩ .record) w = some (4, w) ∧
      Act.measurePlain (.pooled ⟨0⟩ ⟨1⟩ .record) w = some (2, w) := by
  have hhost : (Host.scripted fun _ _ => .done (.ok 0) : Host Unit).UsesOnly (.operations Operation.keepsLayers) :=
    Host.scripted_uses _ fun _ _ => trivial
  have hprogram : measuringProgram.Uses (.operations Operation.keepsLayers) :=
    ⟨trivial, fun _ => ⟨trivial, fun _ => ⟨trivial, fun _ => ⟨trivial, fun _ => trivial⟩⟩⟩⟩
  have hproper : ∀ a ∈ measuring, a.IsProper := by
    intro a ha
    simp only [measuring, List.mem_cons, List.not_mem_nil, or_false] at ha
    rcases ha with rfl | rfl | rfl
    · exact CellString.sealed_ofCells _
    · trivial
    · trivial
  have hreached : ((measuringProgram.runIn (.scripted fun _ _ => .done (.ok 0)) 9
      (.single #[] .drop () .standard ⟨.host, .unsupported, .host⟩)).world.subsystem? ⟨0⟩).any (fun s =>
        s.serves .measure && decide (s.pool = Pool.empty.after measuring)) = true := by
    decide +kernel
  generalize hmoment : (measuringProgram.runIn (.scripted fun _ _ => .done (.ok 0)) 9
    (.single #[] .drop () .standard ⟨.host, .unsupported, .host⟩)).world = w at hreached ⊢
  obtain ⟨s, hs, hlayer⟩ := (Option.any_eq_true _ _).1 hreached
  simp only [Bool.and_eq_true, decide_eq_true_eq] at hlayer
  obtain ⟨hserves, hpool⟩ := hlayer
  have hfollows : s.pool.Follows measuring := hpool ▸ fun i => ⟨.refl _, fun _ => Iff.rfl⟩
  have hmeasured := (strings_measured hhost hprogram hmoment hs).2 measuring hfollows hproper
  have hcache : s.pool.cache = some ⟨1⟩ := by
    rw [hpool]
    rfl
  have hget : s.pool.get? ⟨1⟩ = some (.ofCells [1, 0, 2]) := by
    rw [hpool]
    decide +kernel
  exact ⟨w, rfl, hproper, hmeasured.cached hserves hcache hget, hmeasured.walked hget⟩

end Machine

end Interpose

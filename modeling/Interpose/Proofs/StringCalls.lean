import Interpose.Proofs.StringNatives

/-!
# Strings out of memory

The natives that make strings out of memory read it as everybody does, so an address may be one of a pooled string. Reading
changes no string, but the pool remembers what was resolved. When an instance asks for the address of a string and makes a
new string out of what stands there, it gets a copy.

With these, all natives on strings compute what they compute on plain lists of cells, at every moment of a run.

Main statement: `Machine.string_natives`.
-/

namespace Interpose

open World StringNative

variable {σ α : Type}

/-! ## Reading memory -/

/-- The hooks of a layer that calls of memory go through are sound. -/
def Subsystem.SoundHooks (s : Subsystem) (k : SubsystemId) (slots : PerExport Entry) : Prop :=
  ∀ x, x ≠ .exec → Mount.Sound k ⟨s.hooks.get x, slots.get x⟩

namespace Act

variable {k : SubsystemId} {i : InstanceId} {a : Instance} {w v : World σ} {s : Subsystem} {address : Cell} {p : Place}

/-- Resolving an address changes no more than what the pool remembers. -/
theorem resolve_recalls (hs : w.subsystem? k = some s) (hsound : s.SoundHooks k w.exports) (ha : w.instance? i = some a)
    (address : Cell) : ∃ r q, resolve i address w = some (r, w.setSubsystem k { s with pool := q }) ∧
      s.pool.Recalls q := by
  rcases served_or_plain hs (hsound .resolve (by decide)) with ⟨-, hserved⟩ | ⟨-, hplain⟩
  · obtain ⟨q, hq, hrecalls, -⟩ := resolved_eq hs (s.leads k i a address)
    exact ⟨_, q, by rw [resolve_leads hserved ha, hq], hrecalls⟩
  · refine ⟨a.place i address, s.pool, ?_, .refl s.pool⟩
    rw [setSubsystem_self hs]
    unfold resolve
    rw [bind_of_some (get_eq w), resolveWithin_plain hplain, ha]
    rfl

/-- Measuring changes nothing. -/
theorem eq_of_measure (hs : w.subsystem? k = some s) (hsound : s.SoundHooks k w.exports) {length : Nat}
    (h : measure p w = some (length, v)) : v = w := by
  have hkept : ∀ {length v}, measurePlain p w = some (length, v) → v = w := fun h => by
    rw [measurePlain_eq] at h
    obtain ⟨n, -, hsame⟩ := Option.map_eq_some_iff.1 h
    cases hsame
    rfl
  rcases served_or_plain hs (hsound .measure (by decide)) with ⟨-, hserved⟩ | ⟨-, hplain⟩
  · cases hknown : knownLength s k p with
    | some n =>
      rw [measure_known hserved hknown] at h
      cases h
      rfl
    | none => exact hkept (measure_elsewhere hserved hknown ▸ h)
  · have hmeasure : measure p w = measurePlain p w := by
      unfold measure
      rw [bind_of_some (get_eq w)]
      exact measureWithin_plain hplain _
    exact hkept (hmeasure ▸ h)

variable {r : Except Status (List Cell)}

/-- Nor does taking cells. -/
theorem eq_of_take {take : List Cell → Option (List Cell)}
    (h : (do let cells ← cellsAt p; let text ← ofOption (take cells); pure (.ok text) : Act σ (Except Status (List Cell)))
      w = some (r, v)) : v = w := by
  obtain ⟨⟨cells, w₁⟩, hcells, h⟩ := Option.bind_eq_some_iff.1 h
  obtain ⟨found, -, hsame⟩ := Option.map_eq_some_iff.1 hcells
  cases hsame
  dsimp only at h
  cases htaken : take cells with
  | none =>
    rw [htaken] at h
    cases h
  | some text =>
    rw [htaken] at h
    cases h
    rfl

/-- Reading a string changes no more than what the pool remembers. -/
theorem readString_recalls (hs : w.subsystem? k = some s) (hsound : s.SoundHooks k w.exports)
    (ha : w.instance? i = some a) (h : readString i address w = some (r, v)) :
    ∃ q, v = w.setSubsystem k { s with pool := q } ∧ s.pool.Recalls q := by
  obtain ⟨place, q, hresolve, hq⟩ := resolve_recalls hs hsound ha address
  refine ⟨q, ?_, hq⟩
  unfold readString at h
  rw [bind_of_some hresolve] at h
  cases place with
  | error e =>
    cases h
    rfl
  | ok p =>
    obtain ⟨⟨length, w₁⟩, hmeasure, h⟩ := Option.bind_eq_some_iff.1 h
    -- only resolving has touched the pool, and the hooks are the ones there were
    have hlayer : (w.setSubsystem k { s with pool := q }).subsystem? k = some { s with pool := q } :=
      (subsystem?_setSubsystem hs _ k).trans (if_pos rfl)
    obtain rfl := eq_of_measure hlayer hsound hmeasure
    exact eq_of_take h

theorem readCells_recalls (hs : w.subsystem? k = some s) (hsound : s.SoundHooks k w.exports)
    (ha : w.instance? i = some a) {count : Nat} (h : readCells i address count w = some (r, v)) :
    ∃ q, v = w.setSubsystem k { s with pool := q } ∧ s.pool.Recalls q := by
  unfold readCells at h
  split at h
  · cases h
    exact ⟨s.pool, (setSubsystem_self hs).symm, .refl s.pool⟩
  · obtain ⟨place, q, hresolve, hq⟩ := resolve_recalls hs hsound ha address
    refine ⟨q, ?_, hq⟩
    rw [bind_of_some hresolve] at h
    cases place with
    | error e =>
      cases h
      rfl
    | ok p => exact eq_of_take h

end Act

namespace StringNative

open NativeAct

variable {k : SubsystemId} {i : InstanceId} {a : Instance} {w v : World σ} {s : Subsystem} {address : Cell}
  {rest : List Cell} {r : Except Status (List Cell)}

/-! ## Natives that make strings out of memory -/

/-- What comes of cells that were read, or could not be. -/
def Effect.ofRead (flags : Cell) : Except Status (List Cell) → Option Effect
  | .ok cells => some (.adds (cells.map (CellString.CreateMode.ofFlags flags).apply))
  | .error _ => none

/-- A native that reads cells and makes a string out of them. Reading is all that has happened to the pool by then. -/
theorem yields_ofRead (hs : w.subsystem? k = some s) (hwf : s.pool.WellFormed)
    (hroom : s.pool.live < Pool.mostStrings) {n : StringNative} {params : List Cell} {flags : Cell} {q : Pool}
    (hq : s.pool.Recalls q) {read : Act σ (Except Status (List Cell))}
    (hread : read w = some (r, w.setSubsystem k { s with pool := q }))
    (hrun : (n.run k i params).run w =
      (do
        let cells ← machine read
        add k (.ofMemory cells (.ofFlags flags)) : NativeAct σ Cell).run w) :
    w.Yields k s (n.call k i params) (Effect.ofRead flags r) := by
  cases r with
  | ok cells => exact yields_add_recalling hs hwf hroom hq (hrun.trans (run_bind_of_ok (run_machine hread)))
  | error e => exact yields_none (hrun.trans (run_bind_of_error (run_machine hread)))

section

variable (hs : w.subsystem? k = some s) (hwf : s.pool.WellFormed) (hroom : s.pool.live < Pool.mostStrings)
  (hsound : s.SoundHooks k w.exports) (ha : w.instance? i = some a)
include hs hwf hroom hsound ha

theorem yields_new (hread : Act.readString i address w = some (r, v)) :
    w.Yields k s (new.call k i (address :: rest)) (Effect.ofRead (rest.headD 0) r) := by
  obtain ⟨q, rfl, hq⟩ := Act.readString_recalls hs hsound ha hread
  have hflags : argument (address :: rest) 1 0 = rest.headD 0 := by cases rest <;> rfl
  have hrun : (new.run k i (address :: rest)).run w =
      (do
        let cells ← machine (Act.readString i address)
        add k (.ofMemory cells (.ofFlags (rest.headD 0))) : NativeAct σ Cell).run w := by
    rw [← hflags]
    exact run_require (by simp) _
  exact yields_ofRead hs hwf hroom hq hread hrun

theorem yields_newArray {size : Cell} {count : Nat} (hcount : size.toNat? = some count)
    (hread : Act.readCells i address count w = some (r, v)) :
    w.Yields k s (newArray.call k i (address :: size :: rest)) (Effect.ofRead (rest.headD 0) r) := by
  obtain ⟨q, rfl, hq⟩ := Act.readCells_recalls hs hsound ha hread
  have hflags : argument (address :: size :: rest) 2 0 = rest.headD 0 := by cases rest <;> rfl
  have hrun : (newArray.run k i (address :: size :: rest)).run w =
      (do
        let count ← NativeAct.size "size" size
        let cells ← machine (Act.readCells i address count)
        add k (.ofMemory cells (.ofFlags (rest.headD 0))) : NativeAct σ Cell).run w := by
    rw [← hflags]
    exact run_require (by simp) _
  rw [run_bind_of_ok (run_size hcount "size" w)] at hrun
  exact yields_ofRead hs hwf hroom hq hread hrun

end

/-- There is no array of a negative size. -/
theorem yields_newArray_negative (w : World σ) (k : SubsystemId) (s : Subsystem) (i : InstanceId) (address : Cell)
    {size : Cell} (rest : List Cell) (hsize : size.toNat? = none) :
    w.Yields k s (newArray.call k i (address :: size :: rest)) none := by
  have hrun : (newArray.run k i (address :: size :: rest)).run w = some (.error (.outOfRange "size" size), w) :=
    (run_require (by simp) _).trans (run_bind_of_error (run_size_negative hsize "size" w))
  exact yields_none hrun

/-! ## Copying through an address -/

/-- The address of a string is handed out as the pool gives it. -/
theorem call_address (hs : w.subsystem? k = some s) {c : Cell}
    (hgiven : (s.pool.perform (.bind i ⟨c⟩ .view)).1 = .ok address) :
    StringNative.address.call k i (c :: rest) w =
      some (.ok address, w.setSubsystem k { s with pool := (s.pool.perform (.bind i ⟨c⟩ .view)).2 }) := by
  have hbind : s.pool.bind i ⟨c⟩ .view = .ok (address, (s.pool.perform (.bind i ⟨c⟩ .view)).2) := by
    unfold Pool.perform at hgiven ⊢
    dsimp only at hgiven ⊢
    cases hb : s.pool.bind i ⟨c⟩ .view with
    | error e =>
      rw [hb] at hgiven
      cases hgiven
    | ok given =>
      rw [hb] at hgiven
      cases hgiven
      rfl
  refine Act.settleNative_ok ?_
  refine (run_require (by simp) _).trans ?_
  exact run_onPool_of_ok hs hbind

/-- Through an address that the pool has just given for a number, everything is read that is read under the number. -/
theorem readString_of_given (hr : Served k .resolve s w) (hm : Served k .measure s w) (hi : w.FitsBelow i) {c : Cell}
    (hgiven : (s.pool.perform (.bind i ⟨c⟩ .view)).1 = .ok address) :
    ∃ cells v, s.pool.reads? ⟨c⟩ = some cells ∧
      Act.readString i address
        (w.setSubsystem k { s with pool := (s.pool.perform (.bind i ⟨c⟩ .view)).2 }) = some (.ok cells, v) := by
  have hresolve := hr.setPool (s.pool.perform (.bind i ⟨c⟩ .view)).2
  have hmeasure := hm.setPool (s.pool.perform (.bind i ⟨c⟩ .view)).2
  unfold Pool.reads?
  cases hnull : (⟨c⟩ : StringId).isNull with
  | true =>
    -- the null string has one address, which needs no binding and is read as no cells
    rw [Pool.perform_bind_null hnull] at hgiven
    cases hgiven
    obtain ⟨v, hv⟩ := readString_null hresolve hmeasure hi (show Address.isNull Address.null = true by decide)
    exact ⟨[], v, rfl, hv⟩
  | false =>
    -- a string that is there, since it was given an address
    cases hc : s.pool.contains ⟨c⟩ with
    | false =>
      obtain ⟨error, hrefused⟩ : ∃ error, s.pool.perform (.bind i ⟨c⟩ .view) = (.error error, s.pool) :=
        Pool.perform_bind_refused hnull (by simp [hc])
      rw [hrefused] at hgiven
      cases hgiven
    | true =>
      have hencode := (Pool.perform_bind_eq_ok hc).1 hgiven
      have hdecode := Address.decode?_of_encode (Pool.one_le_of_contains hc) hencode
      have halike := s.pool.alike_bind i ⟨c⟩ .view
      have hbound : (s.pool.perform (.bind i ⟨c⟩ .view)).2.resolve? i address = some (⟨c⟩, .view) :=
        Pool.resolve?_eq_some.2 ⟨hdecode, (Pool.isBound_bind ..).2 (.inr ⟨rfl, hc, hencode⟩),
          (halike.contains_eq ⟨c⟩).trans hc⟩
      obtain ⟨t, v, ht, hv⟩ := readString_of_some hresolve hmeasure hi hbound
      have hget : s.pool.get? ⟨c⟩ = some t := by
        rw [← ht, Pool.get?, Pool.get?, halike.entry?_eq]
      exact ⟨t.cells, v, by rw [Pool.cells?, hget]; rfl, hv⟩

theorem ofFlags_zero : (CellString.CreateMode.ofFlags 0).apply = id := by
  funext c
  simp [CellString.CreateMode.ofFlags, CellString.CreateMode.apply, Cell.bit0, Cell.bit1]

/-- The number of a string that is added is none that anything was read under. -/
theorem ne_of_adds {p q : Pool} {c d : Cell} {cells added : List Cell} (hreads : p.reads? ⟨c⟩ = some cells)
    (hadds : p.Adds d added q) : d ≠ c := by
  rintro rfl
  have hnone : p.get? ⟨d⟩ = none := Option.map_eq_none_iff.2 (Pool.contains_eq_false.1 hadds.fresh)
  rw [Pool.reads?, hadds.notNull, if_neg (by simp), Pool.cells?, hnone] at hreads
  cases hreads

/-- A new string out of the address of another. -/
theorem copies (hs : w.subsystem? k = some s) (hwf : s.pool.WellFormed) (hroom : s.pool.live < Pool.mostStrings)
    (hsound : s.SoundHooks k w.exports) (ha : w.instance? i = some a) (hr : Served k .resolve s w)
    (hm : Served k .measure s w) (hi : w.FitsBelow i) {c : Cell}
    (hgiven : (s.pool.perform (.bind i ⟨c⟩ .view)).1 = .ok address) :
    ∃ v d q cells, StringNative.address.call k i (c :: rest) w = some (.ok address, v) ∧
      new.call k i [address, 0] v = some (.ok d, w.setSubsystem k { s with pool := q }) ∧ d ≠ c ∧
      s.pool.reads? ⟨c⟩ = some cells ∧ (s.pool.perform (.bind i ⟨c⟩ .view)).2.Adds d cells q := by
  obtain ⟨cells, v, hreads, hread⟩ := readString_of_given hr hm hi hgiven
  have halike := s.pool.alike_bind i ⟨c⟩ .view
  have hlayer := (hr.setPool (s.pool.perform (.bind i ⟨c⟩ .view)).2).layer
  -- once the address is bound, the new string is made out of what is read there
  have hyields : World.Yields _ k _ (new.call k i [address, 0]) (Effect.ofRead 0 (.ok cells)) :=
    yields_new hlayer (hwf.alike halike) (halike.live ▸ hroom) hsound ha hread
  obtain ⟨d, q, hnew, hadds⟩ := hyields
  rw [ofFlags_zero, List.map_id] at hadds
  have hreadsBound : (s.pool.perform (.bind i ⟨c⟩ .view)).2.reads? ⟨c⟩ = some cells := by
    rw [← hreads, Pool.reads?, Pool.reads?, Pool.cells?, Pool.cells?, Pool.get?, Pool.get?, halike.entry?_eq]
  rw [setSubsystem_setSubsystem] at hnew
  exact ⟨_, d, q, cells, call_address hs hgiven, hnew, ne_of_adds hreadsBound hadds, hreads, hadds⟩

end StringNative

/-! ## All of them -/

namespace World

variable {k : SubsystemId} {i : InstanceId} {w : World σ} {s : Subsystem}

/-- What the natives on strings come to when an instance calls them. Arguments that a native does not ask for, `rest`, do not
matter, but for those that may be left out. -/
structure Computes (k : SubsystemId) (s : Subsystem) (i : InstanceId) (w : World σ) : Prop where
  /-- Two strings in a row. -/
  concat : ∀ a b rest, w.Yields k s (StringNative.concat.call k i (a :: b :: rest)) (do
    let first ← s.pool.reads? ⟨a⟩
    let second ← s.pool.reads? ⟨b⟩
    some (.adds (first ++ second)))
  /-- A copy, but not of the null string. -/
  clone : ∀ a rest, w.Yields k s (StringNative.clone.call k i (a :: rest)) ((s.pool.cells? ⟨a⟩).map .adds)
  /-- The letters in capitals, or in small letters, and all other cells as they are. -/
  toUpper : ∀ a rest, w.Yields k s (StringNative.toUpper.call k i (a :: rest))
    ((s.pool.reads? ⟨a⟩).map fun cells => .adds (cells.map (CellString.asLetter Char.toUpper)))
  toLower : ∀ a rest, w.Yields k s (StringNative.toLower.call k i (a :: rest))
    ((s.pool.reads? ⟨a⟩).map fun cells => .adds (cells.map (CellString.asLetter Char.toLower)))
  /-- Zeros, one fewer than were asked for. -/
  newBuffer : ∀ size rest, w.Yields k s (StringNative.newBuffer.call k i (size :: rest))
    (if 1 ≤ size then some (.adds (List.replicate (size.val.toNat - 1) 0)) else none)
  /-- How many cells are read under a number, whether there is a string, and which cell there is at a position. -/
  length : ∀ a rest, w.Yields k s (StringNative.length.call k i (a :: rest))
    ((s.pool.reads? ⟨a⟩).map fun cells => .answers (Cell.ofNat cells.length))
  valid : ∀ a rest, w.Yields k s (StringNative.valid.call k i (a :: rest))
    (some (.answers (.ofBool (s.pool.contains ⟨a⟩))))
  getCell : ∀ a place rest, w.Yields k s (StringNative.getCell.call k i (a :: place :: rest))
    (some (.answers ((do
      let position ← place.toNat?
      let cells ← s.pool.cells? ⟨a⟩
      cells[position]?).getD invalidChar)))
  /-- What stands at an address, up to its end, every cell as the mode has it. -/
  new : ∀ {address rest r v}, Act.readString i address w = some (r, v) →
    w.Yields k s (StringNative.new.call k i (address :: rest)) (Effect.ofRead (rest.headD 0) r)
  /-- So many cells of what stands at an address. -/
  newArray : ∀ {address size rest count r v}, size.toNat? = some count → Act.readCells i address count w = some (r, v) →
    w.Yields k s (StringNative.newArray.call k i (address :: size :: rest)) (Effect.ofRead (rest.headD 0) r)
  newArrayNegative : ∀ {address size rest}, size.toNat? = none →
    w.Yields k s (StringNative.newArray.call k i (address :: size :: rest)) none
  /-- The cells of one string behind those of another, or behind its own. -/
  append : ∀ a b rest, w.Yields k s (StringNative.append.call k i (a :: b :: rest)) (do
    let cells ← s.pool.cells? ⟨a⟩
    let added ← s.pool.reads? ⟨b⟩
    some (.changes ⟨a⟩ (cells ++ added) a))
  /-- The first cells of a string, and others behind them if there are not enough. -/
  resize : ∀ a size rest, w.Yields k s (StringNative.resize.call k i (a :: size :: rest)) (do
    let length ← size.toNat?
    let cells ← s.pool.cells? ⟨a⟩
    some (.changes ⟨a⟩ (cells.takeD length (rest.headD 0)) a))
  clear : ∀ a rest, w.Yields k s (StringNative.clear.call k i (a :: rest))
    ((s.pool.cells? ⟨a⟩).map fun _ => .changes ⟨a⟩ [] a)
  /-- One cell of a string; the answer is the one that was there. -/
  setCell : ∀ {a place c rest position cells previous}, place.toNat? = some position → s.pool.cells? ⟨a⟩ = some cells →
    cells[position]? = some previous →
    w.Yields k s (StringNative.setCell.call k i (a :: place :: c :: rest))
      (some (.changes ⟨a⟩ (cells.set position c) previous))
  /-- A cell that there is not, since the number or the position is none. -/
  setCellInvalid : ∀ {a place c rest}, (∀ position cells, place.toNat? = some position →
      s.pool.cells? ⟨a⟩ = some cells → cells[position]? = none) →
    w.Yields k s (StringNative.setCell.call k i (a :: place :: c :: rest)) (some (.answers invalidChar))
  /-- While the hooks are switched on, a new string out of the address of another is a copy of it, under another number. No
  more happens than that the address is bound. -/
  copies : s.serves .resolve = true → s.serves .measure = true → w.FitsBelow i → ∀ {c address},
    (s.pool.perform (.bind i ⟨c⟩ .view)).1 = .ok address → ∀ rest,
    ∃ v d q cells, StringNative.address.call k i (c :: rest) w = some (.ok address, v) ∧
      StringNative.new.call k i [address, 0] v = some (.ok d, w.setSubsystem k { s with pool := q }) ∧ d ≠ c ∧
      s.pool.reads? ⟨c⟩ = some cells ∧ (s.pool.perform (.bind i ⟨c⟩ .view)).2.Adds d cells q

/-- The natives on strings of a layer, in a world in which no call is being passed on. -/
theorem Tended.computes {actions : List Pool.Action} {a : Instance} (h : w.Tended k (fun _ => False) actions)
    (hs : w.subsystem? k = some s) (hwf : s.pool.WellFormed) (hroom : s.pool.live < Pool.mostStrings)
    (ha : w.instance? i = some a) : Computes k s i w := by
  have hsound : s.SoundHooks k w.exports := fun x hx => ((h.of_subsystem? hs).1 x hx).1
  refine
    { concat := yields_concat hs hwf hroom i
      clone := yields_clone hs hwf hroom i
      toUpper := yields_case hs hwf hroom (fun _ => rfl) fun t => ?_
      toLower := yields_case hs hwf hroom (fun _ => rfl) fun t => ?_
      newBuffer := yields_newBuffer hs hwf hroom i
      length := yields_length hs i
      valid := yields_valid hs i
      getCell := yields_getCell hs i
      new := yields_new hs hwf hroom hsound ha
      newArray := yields_newArray hs hwf hroom hsound ha
      newArrayNegative := yields_newArray_negative w k s i _ _
      append := yields_append hs i
      resize := yields_resize hs i
      clear := yields_clear hs i
      setCell := yields_setCell hs i _
      setCellInvalid := yields_setCell_invalid hs i _ _
      copies := ?_ }
  · rw [funext CellString.asLetter_upper]
    rfl
  · rw [funext CellString.asLetter_lower]
    rfl
  · intro hresolves hmeasures hi c address hgiven rest
    exact copies hs hwf hroom hsound ha (h.served hs (by decide) hresolves) (h.served hs (by decide) hmeasures) hi hgiven

end World

namespace Machine

/-- **The natives on strings.** Whatever the host does with one hook layer, and whatever its scripts, natives and handlers
do, as long as there are fewer strings than numbers, at every moment of a run a native on strings that an instance calls
comes to what it comes to on plain lists of cells, and does nothing else. -/
theorem string_natives {host : Host σ} (hhost : host.UsesOnly (.operations Operation.keepsLayers))
    {p : Program σ α} (hp : p.Uses (.operations Operation.keepsLayers)) {instances : Array Instance} {resumer : Resumer}
    {state : σ} {config : Config} {collaborators : Collaborators} {fuel : Nat} {w : World σ}
    (hmoment : (p.runIn host fuel (.single instances resumer state config collaborators)).world = w) {s : Subsystem}
    (hs : w.subsystem? ⟨0⟩ = some s) :
    (∃ actions, s.pool.Follows actions) ∧ ∀ actions, s.pool.Follows actions → Pool.Fits actions →
      s.pool.live < Pool.mostStrings → ∀ i a, w.instance? i = some a → w.Computes ⟨0⟩ s i := by
  obtain ⟨made, htended⟩ := tended_runIn hhost hp instances resumer state config collaborators fuel
  rw [hmoment] at htended
  refine ⟨⟨made, (htended.of_subsystem? hs).2⟩, fun actions hactions hfits hroom i a ha => ?_⟩
  have hwf : s.pool.WellFormed := hfits.agrees.wellFormed.alike (hactions ⟨0⟩).alike
  exact htended.computes hs hwf hroom ha

/-- Switches every hook on, and adds a string that has a zero in it. -/
def copyingProgram : Program Unit Unit := do
  let _ ← Program.perform (.newInstance 4)
  let _ ← Program.perform (.installAll ⟨0⟩)
  let _ ← Program.perform (.pool ⟨0⟩ (.addPinned (.ofCells [2, 0])))

/-- What it does with the pool. -/
def copying : List Pool.Action :=
  [.addPinned (.ofCells [2, 0])]

/-- A string is added to itself, and copied through its address. -/
theorem string_natives_copying :
    ∃ w s, (copyingProgram.runIn (.scripted fun _ _ => .done (.ok 0)) 9
        (.single #[] .drop () .standard ⟨.host, .unsupported, .host⟩)).world = w ∧
      w.Yields ⟨0⟩ s (StringNative.append.call ⟨0⟩ ⟨0⟩ [1, 1]) (some (.changes ⟨1⟩ [2, 0, 2, 0] 1)) ∧
      ∃ v d q, StringNative.address.call ⟨0⟩ ⟨0⟩ [1] w = some (.ok ⟨0x40000008, by decide, by decide⟩, v) ∧
        StringNative.new.call ⟨0⟩ ⟨0⟩ [⟨0x40000008, by decide, by decide⟩, 0] v =
          some (.ok d, w.setSubsystem ⟨0⟩ { s with pool := q }) ∧ d ≠ 1 ∧
        (s.pool.perform (.bind ⟨0⟩ ⟨1⟩ .view)).2.Adds d [2, 0] q := by
  have hhost : (Host.scripted fun _ _ => .done (.ok 0) : Host Unit).UsesOnly (.operations Operation.keepsLayers) :=
    Host.scripted_uses _ fun _ _ => trivial
  have hprogram : copyingProgram.Uses (.operations Operation.keepsLayers) :=
    ⟨trivial, fun _ => ⟨trivial, fun _ => ⟨trivial, fun _ => trivial⟩⟩⟩
  have hlayer : ((copyingProgram.runIn (.scripted fun _ _ => .done (.ok 0)) 9
      (.single #[] .drop () .standard ⟨.host, .unsupported, .host⟩)).world.subsystem? ⟨0⟩).any (fun s =>
        s.serves .resolve && s.serves .measure && decide (s.pool = Pool.empty.after copying)) = true := by
    decide +kernel
  have hinstance : ((copyingProgram.runIn (.scripted fun _ _ => .done (.ok 0)) 9
      (.single #[] .drop () .standard ⟨.host, .unsupported, .host⟩)).world.instance? ⟨0⟩).any (fun a =>
        decide (4 * a.memory.length ≤ 0x40000000)) = true := by
    decide +kernel
  generalize hmoment : (copyingProgram.runIn (.scripted fun _ _ => .done (.ok 0)) 9
    (.single #[] .drop () .standard ⟨.host, .unsupported, .host⟩)).world = w at hlayer hinstance ⊢
  obtain ⟨s, hs, hlayer⟩ := (Option.any_eq_true _ _).1 hlayer
  obtain ⟨a, ha, hsize⟩ := (Option.any_eq_true _ _).1 hinstance
  simp only [Bool.and_eq_true, decide_eq_true_eq] at hlayer hsize
  obtain ⟨⟨hresolves, hmeasures⟩, hpool⟩ := hlayer
  have hfollows : s.pool.Follows copying := hpool ▸ fun i => ⟨.refl _, fun _ => Iff.rfl⟩
  have hroom : s.pool.live < Pool.mostStrings := by
    rw [hpool]
    decide +kernel
  have hcomputes := (string_natives hhost hprogram hmoment hs).2 copying hfollows (Pool.fits_of_length (by decide)) hroom
    ⟨0⟩ a ha
  have hcells : s.pool.cells? ⟨1⟩ = some [2, 0] := by
    rw [hpool]
    decide +kernel
  have hreads : s.pool.reads? ⟨1⟩ = some [2, 0] := hcells
  have happend := hcomputes.append 1 1 []
  rw [hcells, hreads] at happend
  have hgiven : (s.pool.perform (.bind ⟨0⟩ ⟨1⟩ .view)).1 = .ok ⟨0x40000008, by decide, by decide⟩ := by
    rw [hpool]
    rfl
  obtain ⟨v, d, q, cells, haddress, hnew, hother, hread, hadds⟩ :=
    hcomputes.copies hresolves hmeasures ⟨a, ha, hsize⟩ hgiven []
  rw [hreads] at hread
  cases hread
  exact ⟨w, s, rfl, happend, v, d, q, haddress, hnew, hother, hadds⟩

end Machine

end Interpose

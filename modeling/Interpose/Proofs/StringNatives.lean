import Interpose.Native.Strings
import Interpose.Proofs.NativeCalls
import Interpose.Proofs.References
import Interpose.Proofs.StringEdits

/-!
# Natives on strings

A native on strings that succeeds does one of three things: it adds a string for as long as the execution lasts, it changes
the cells of one string, or it only answers (`StringNative.Effect`). Which cells these are is told on plain lists, of the
cells of the strings that the native is given; the null string is read as the empty one, and the same string may be given
twice. Nothing else happens to any string, to any reference, or to any binding, and nothing else in the world
(`World.Yields`).

There have to be fewer strings than numbers, or else a new string would get no number of its own.

Main statements: `yields_concat` and the like, one for each native that works on the pool alone.
-/

namespace Interpose

open World StringNative

variable {σ α : Type}

namespace Pool

variable {p q r : Pool} {id : StringId} {c : Cell} {cells : List Cell} {e : Entry} {t : CellString}

/-! ## Strings under numbers -/

/-- The cells of a string. -/
def cells? (p : Pool) (id : StringId) : Option (List Cell) :=
  (p.get? id).map CellString.cells

/-- The cells that are read under a number; the null string has none. -/
def reads? (p : Pool) (id : StringId) : Option (List Cell) :=
  if id.isNull then some [] else p.cells? id

/-- A string is added that lives until the next collection. It gets a number that no string has, and the others stay as they
are. -/
structure Adds (p : Pool) (c : Cell) (cells : List Cell) (q : Pool) : Prop where
  fresh : p.contains ⟨c⟩ = false
  notNull : (⟨c⟩ : StringId).isNull = false
  added : ∃ t, q.entry? ⟨c⟩ = some { string := t, refs := 0, implicit := true, pinned := false } ∧ t.cells = cells
  others : ∀ id, id ≠ ⟨c⟩ → q.entry? id = p.entry? id
  bindings : q.bindings = p.bindings

/-- The cells of a string are changed. It stays for the reasons it had, and the others stay as they are. -/
structure Changes (p : Pool) (id : StringId) (cells : List Cell) (q : Pool) : Prop where
  changed : ∃ e t, p.entry? id = some e ∧ q.entry? id = some { e with string := t } ∧ t.cells = cells
  others : ∀ other, other ≠ id → q.entry? other = p.entry? other
  bindings : q.bindings = p.bindings

theorem WellFormed.adds (h : WellFormed p) (hroom : p.live < mostStrings) (t : CellString) :
    p.Adds (p.add t).1.raw t.cells (p.add t).2 where
  fresh := contains_eq_false.2 (h.entry?_insert_fst hroom _)
  notNull := h.isNull_insert_fst hroom _
  added := ⟨t, (h.entry?_insert hroom _ _).trans (if_pos rfl), rfl⟩
  others id hid := (h.entry?_insert hroom _ id).trans (if_neg hid)
  bindings := bindings_insert p _

theorem bindings_setEntry (p : Pool) (id : StringId) (e : Entry) : (p.setEntry id e).bindings = p.bindings := by
  unfold setEntry
  split <;> rfl

theorem changes_setEntry (he : p.entry? id = some e) (t : CellString) :
    p.Changes id t.cells (p.setEntry id { e with string := t }) where
  changed := ⟨e, t, he, (entry?_setEntry (contains_iff.2 ⟨e, he⟩) _ id).trans (if_pos rfl), rfl⟩
  others other hother := (entry?_setEntry (contains_iff.2 ⟨e, he⟩) _ other).trans (if_neg hother)
  bindings := bindings_setEntry p id _

/-- What was remembered before does not matter. -/
theorem Recalls.adds (hp : p.Recalls q) (h : q.Adds c cells r) : p.Adds c cells r where
  fresh := (hp.alike.contains_eq ⟨c⟩).symm.trans h.fresh
  notNull := h.notNull
  added := h.added
  others id hid := (h.others id hid).trans (hp.alike.entry?_eq id)
  bindings := h.bindings.trans hp.bindings

end Pool

/-! ## What a call comes to -/

/-- What a native on strings does when it succeeds. -/
inductive StringNative.Effect
  /-- It adds a string, and answers its number. -/
  | adds (cells : List Cell)
  /-- It changes the cells of a string. -/
  | changes (id : StringId) (cells : List Cell) (answer : Cell)
  /-- It changes nothing. -/
  | answers (c : Cell)

/-- How a native on strings that answered a cell has left the pool. -/
def StringNative.Effect.Holds (p : Pool) (c : Cell) (q : Pool) : Effect → Prop
  | adds cells => p.Adds c cells q
  | changes id cells answer => c = answer ∧ p.Changes id cells q
  | answers answer => c = answer ∧ q = p

/-- A call of a native on strings, as a script sees it. -/
def StringNative.call (n : StringNative) (k : SubsystemId) (i : InstanceId) (params : List Cell) :
    Act σ (Except Status Cell) :=
  Act.settleNative n.name i (n.run k i params)

/-- What a call comes to: it succeeds and does this and nothing else in the world, or it does not succeed. -/
def World.Yields (w : World σ) (k : SubsystemId) (s : Subsystem) (call : Act σ (Except Status Cell)) :
    Option Effect → Prop
  | some effect => ∃ c q, call w = some (.ok c, w.setSubsystem k { s with pool := q }) ∧ effect.Holds s.pool c q
  | none => ∀ c w', call w ≠ some (.ok c, w')

namespace StringNative

open NativeAct

variable {k : SubsystemId} {i : InstanceId} {w w' : World σ} {s : Subsystem} {n : StringNative} {params : List Cell}
  {id : StringId} {t : CellString} {a b : Cell} {rest : List Cell}

/-! ## Steps -/

/-- A copy of the string under a number. -/
theorem run_snapshot (hs : w.subsystem? k = some s) (id : StringId) :
    (∃ t, s.pool.reads? id = some t.cells ∧ (snapshot k id).run w = some (.ok t, w)) ∨
      s.pool.reads? id = none ∧ ∃ e, (snapshot k id : NativeAct σ CellString).run w = some (.error e, w) := by
  unfold snapshot Pool.reads? Pool.cells?
  cases hnull : id.isNull with
  | true => exact .inl ⟨.empty, rfl, rfl⟩
  | false =>
    cases hget : s.pool.get? id with
    | some t =>
      refine .inl ⟨t, rfl, ?_⟩
      rw [if_neg (by simp), run_bind_of_ok (run_pool hs), hget]
      rfl
    | none =>
      refine .inr ⟨rfl, .pool (.invalidId id.raw), ?_⟩
      rw [if_neg (by simp), run_bind_of_ok (run_pool hs), hget]
      rfl

theorem run_edit (hs : w.subsystem? k = some s) (hget : s.pool.get? id = some t) (change : CellString.Edit) :
    ∃ q, (edit k id change).run w = some (.ok (), w.setSubsystem k { s with pool := q }) ∧
      s.pool.Changes id (change.onCells t.cells).2 q := by
  obtain ⟨e, he, rfl⟩ := Option.map_eq_some_iff.1 hget
  rw [CellString.Edit.onCells_eq]
  refine ⟨_, run_onPool_of_ok hs ?_, Pool.changes_setEntry he _⟩
  simp only [Pool.edit?, he, Option.map_some]

theorem run_edit_none (hs : w.subsystem? k = some s) (hget : s.pool.get? id = none) (change : CellString.Edit) :
    ∃ e w', (edit k id change).run w = some (.error e, w') := by
  have he : s.pool.entry? id = none := Option.map_eq_none_iff.1 hget
  refine ⟨_, run_onPool_of_error hs (e := .invalidId id.raw) ?_⟩
  simp only [Pool.edit?, he, Option.map_none]

/-! ## Calls by what the native comes to -/

theorem run_add (hs : w.subsystem? k = some s) (t : CellString) : (add k t).run w =
    some (.ok (s.pool.add t).1.raw, w.setSubsystem k { s with pool := (s.pool.add t).2 }) := by
  unfold add
  rw [run_bind_of_ok (run_lift (Act.onPool_eq hs fun p => p.add t))]
  rfl

/-- A native that comes to adding a string. -/
theorem yields_add (hs : w.subsystem? k = some s) (hwf : s.pool.WellFormed) (hroom : s.pool.live < Pool.mostStrings)
    (h : (n.run k i params).run w = (add k t).run w) : w.Yields k s (n.call k i params) (some (.adds t.cells)) := by
  exact ⟨_, _, Act.settleNative_ok (h.trans (run_add hs t)), hwf.adds hroom t⟩

/-- The same after the pool has remembered something on the way. -/
theorem yields_add_recalling (hs : w.subsystem? k = some s) (hwf : s.pool.WellFormed)
    (hroom : s.pool.live < Pool.mostStrings) {q : Pool} (hq : s.pool.Recalls q)
    (h : (n.run k i params).run w = (add k t).run (w.setSubsystem k { s with pool := q })) :
    w.Yields k s (n.call k i params) (some (.adds t.cells)) := by
  -- the string is added to the later pool, which has the same strings, and so the same free numbers
  have hlayer : (w.setSubsystem k { s with pool := q }).subsystem? k = some { s with pool := q } :=
    (subsystem?_setSubsystem hs _ k).trans (if_pos rfl)
  rw [run_add hlayer, setSubsystem_setSubsystem] at h
  exact ⟨_, _, Act.settleNative_ok h, hq.adds ((hwf.alike hq.alike).adds (hq.alike.live ▸ hroom) t)⟩

/-- A native that comes to changing a string, and to an answer. -/
theorem yields_edit (hs : w.subsystem? k = some s) (hget : s.pool.get? id = some t) {change : CellString.Edit}
    {answer : Cell} (h : (n.run k i params).run w = (do edit k id change; pure answer : NativeAct σ Cell).run w) :
    w.Yields k s (n.call k i params) (some (.changes id (change.onCells t.cells).2 answer)) := by
  obtain ⟨q, hedit, hchanges⟩ := run_edit hs hget change
  rw [run_bind_of_ok hedit] at h
  exact ⟨answer, q, Act.settleNative_ok (h.trans (run_pure answer _)), rfl, hchanges⟩

theorem yields_answer (hs : w.subsystem? k = some s) {answer : Cell} (h : (n.run k i params).run w = some (.ok answer, w)) :
    w.Yields k s (n.call k i params) (some (.answers answer)) := by
  refine ⟨answer, s.pool, ?_, rfl, rfl⟩
  rw [call, Act.settleNative_ok h, setSubsystem_self hs]

theorem yields_none {e : NativeError} (h : (n.run k i params).run w = some (.error e, w')) :
    w.Yields k s (n.call k i params) none :=
  Act.settleNative_ne_ok h

/-- A native that reads a string first. Without one it has failed. -/
theorem yields_of_snapshot (hs : w.subsystem? k = some s) {next : CellString → NativeAct σ Cell}
    {effect : List Cell → Option Effect} (hrun : (n.run k i params).run w = (snapshot k id >>= next).run w)
    (hnext : ∀ t, (n.run k i params).run w = (next t).run w → w.Yields k s (n.call k i params) (effect t.cells)) :
    w.Yields k s (n.call k i params) ((s.pool.reads? id).bind effect) := by
  rcases run_snapshot hs id with ⟨t, ht, hread⟩ | ⟨hnone, e, hread⟩
  · rw [ht]
    exact hnext t (hrun.trans (run_bind_of_ok hread))
  · rw [hnone]
    exact yields_none (hrun.trans (run_bind_of_error hread))

/-- A native that comes to changing what may be a string. -/
theorem yields_of_edit (hs : w.subsystem? k = some s) {change : CellString.Edit} {answer : Cell}
    (hrun : (n.run k i params).run w = (do edit k id change; pure answer : NativeAct σ Cell).run w) :
    w.Yields k s (n.call k i params)
      ((s.pool.cells? id).bind fun cells => some (.changes id (change.onCells cells).2 answer)) := by
  unfold Pool.cells?
  cases hget : s.pool.get? id with
  | some t => exact yields_edit hs hget hrun
  | none =>
    obtain ⟨e, w', hedit⟩ := run_edit_none hs hget change
    exact yields_none (hrun.trans (run_bind_of_error hedit))

/-! ## Natives that make strings out of strings -/

section

variable (hs : w.subsystem? k = some s) (hwf : s.pool.WellFormed) (hroom : s.pool.live < Pool.mostStrings)
include hs hwf hroom

theorem yields_concat (i : InstanceId) (a b : Cell) (rest : List Cell) :
    w.Yields k s (concat.call k i (a :: b :: rest)) (do
      let first ← s.pool.reads? ⟨a⟩
      let second ← s.pool.reads? ⟨b⟩
      some (.adds (first ++ second))) := by
  have hrun : (concat.run k i (a :: b :: rest)).run w =
      (do
        let first ← snapshot k ⟨a⟩
        let second ← snapshot k ⟨b⟩
        add k (first.append second.cells) : NativeAct σ Cell).run w := run_require (by simp) _
  refine yields_of_snapshot hs hrun fun first hfirst => ?_
  exact yields_of_snapshot hs hfirst fun second hsecond => yields_add hs hwf hroom hsecond

theorem yields_case {change : CellString → CellString} {onCells : List Cell → List Cell}
    (hn : ∀ params, (n.run k i params : NativeAct σ Cell) = runCase k change params)
    (hchange : ∀ t, (change t).cells = onCells t.cells) (a : Cell) (rest : List Cell) :
    w.Yields k s (n.call k i (a :: rest)) ((s.pool.reads? ⟨a⟩).map fun cells => .adds (onCells cells)) := by
  have hrun : (n.run k i (a :: rest)).run w =
      (do
        let t ← snapshot k ⟨a⟩
        add k (change t) : NativeAct σ Cell).run w := by
    rw [hn]
    exact run_require (by simp) _
  rw [Option.map_eq_bind]
  refine yields_of_snapshot hs hrun fun t ht => ?_
  rw [Function.comp, ← hchange]
  exact yields_add hs hwf hroom ht

theorem yields_clone (i : InstanceId) (a : Cell) (rest : List Cell) :
    w.Yields k s (clone.call k i (a :: rest)) ((s.pool.cells? ⟨a⟩).map .adds) := by
  have hid : idOf (a :: rest) 0 = ⟨a⟩ := rfl
  unfold Pool.cells?
  cases hget : s.pool.get? ⟨a⟩ with
  | some t =>
    have hrun : (clone.run k i (a :: rest)).run w = (add k t).run w := by
      refine (run_require (by simp) _).trans ((run_bind_of_ok (run_pool hs)).trans ?_)
      rw [hid, hget]
    exact yields_add hs hwf hroom hrun
  | none =>
    have hrun : (clone.run k i (a :: rest)).run w = some (.error (.pool (.invalidId a)), w) := by
      refine (run_require (by simp) _).trans ((run_bind_of_ok (run_pool hs)).trans ?_)
      rw [hid, hget]
      rfl
    exact yields_none hrun

theorem yields_newBuffer (i : InstanceId) (size : Cell) (rest : List Cell) :
    w.Yields k s (newBuffer.call k i (size :: rest))
      (if 1 ≤ size then some (.adds (List.replicate (size.val.toNat - 1) 0)) else none) := by
  have hrun : (newBuffer.run k i (size :: rest)).run w =
      (if size < 1 then fail (.outOfRange "size" size) else add k (CellString.empty.resize (size.val.toNat - 1) 0) :
        NativeAct σ Cell).run w := run_require (by simp) _
  by_cases hsize : 1 ≤ size
  · have hnot : ¬ size < 1 := by
      rw [Cell.le_def] at hsize
      rw [Cell.lt_def]
      omega
    have hcells : (CellString.empty.resize (size.val.toNat - 1) 0).cells = List.replicate (size.val.toNat - 1) 0 := by
      simp [CellString.resize, CellString.withCells, CellString.empty, CellString.ofCells, CellString.length]
    rw [if_neg hnot] at hrun
    rw [if_pos hsize, ← hcells]
    exact yields_add hs hwf hroom hrun
  · have hlt : size < 1 := by
      rw [Cell.le_def] at hsize
      rw [Cell.lt_def]
      omega
    rw [if_pos hlt] at hrun
    rw [if_neg hsize]
    exact yields_none hrun

end

/-! ## Natives that only answer -/

section

variable (hs : w.subsystem? k = some s)
include hs

theorem yields_length (i : InstanceId) (a : Cell) (rest : List Cell) :
    w.Yields k s (length.call k i (a :: rest))
      ((s.pool.reads? ⟨a⟩).map fun cells => .answers (Cell.ofNat cells.length)) := by
  have hrun : (length.run k i (a :: rest)).run w =
      (do
        let t ← snapshot k ⟨a⟩
        pure (Cell.ofNat t.length) : NativeAct σ Cell).run w := run_require (by simp) _
  rw [Option.map_eq_bind]
  exact yields_of_snapshot hs hrun fun t ht => yields_answer hs ht

theorem yields_valid (i : InstanceId) (a : Cell) (rest : List Cell) :
    w.Yields k s (valid.call k i (a :: rest)) (some (.answers (.ofBool (s.pool.contains ⟨a⟩)))) := by
  exact yields_answer hs ((run_require (by simp) _).trans (run_bind_of_ok (run_pool hs)))

theorem yields_getCell (i : InstanceId) (a place : Cell) (rest : List Cell) :
    w.Yields k s (getCell.call k i (a :: place :: rest)) (some (.answers ((do
      let position ← place.toNat?
      let cells ← s.pool.cells? ⟨a⟩
      cells[position]?).getD invalidChar))) := by
  have hcell : (do
      let position ← place.toNat?
      let cells ← s.pool.cells? ⟨a⟩
      cells[position]? : Option Cell) = (do
      let position ← place.toNat?
      let t ← s.pool.get? ⟨a⟩
      t.get? position) := by
    unfold Pool.cells?
    cases place.toNat? with
    | none => rfl
    | some position => cases s.pool.get? ⟨a⟩ <;> rfl
  rw [hcell]
  exact yields_answer hs ((run_require (by simp) _).trans (run_bind_of_ok (run_pool hs)))

end

/-! ## Natives that change a string -/

section

variable (hs : w.subsystem? k = some s)
include hs

theorem yields_append (i : InstanceId) (a b : Cell) (rest : List Cell) :
    w.Yields k s (append.call k i (a :: b :: rest)) (do
      let cells ← s.pool.cells? ⟨a⟩
      let added ← s.pool.reads? ⟨b⟩
      some (.changes ⟨a⟩ (cells ++ added) a)) := by
  have hrun : (append.run k i (a :: b :: rest)).run w =
      (do
        let added ← snapshot k ⟨b⟩
        edit k ⟨a⟩ (.append added.cells)
        pure a : NativeAct σ Cell).run w := run_require (by simp) _
  -- the other string is copied first, since it may be the one that changes
  rw [Option.bind_eq_bind, Option.bind_comm]
  refine yields_of_snapshot hs hrun fun added hadded => ?_
  exact yields_of_edit hs hadded

theorem yields_resize (i : InstanceId) (a size : Cell) (rest : List Cell) :
    w.Yields k s (resize.call k i (a :: size :: rest)) (do
      let length ← size.toNat?
      let cells ← s.pool.cells? ⟨a⟩
      some (.changes ⟨a⟩ (cells.takeD length (rest.headD 0)) a)) := by
  have hfill : argument (a :: size :: rest) 2 0 = rest.headD 0 := by cases rest <;> rfl
  have hrun : (resize.run k i (a :: size :: rest)).run w =
      (do
        let length ← NativeAct.size "size" size
        edit k ⟨a⟩ (.resize length (rest.headD 0))
        pure a : NativeAct σ Cell).run w := by
    rw [← hfill]
    exact run_require (by simp) _
  cases hlength : size.toNat? with
  | none => exact yields_none (hrun.trans (run_bind_of_error (run_size_negative hlength "size" w)))
  | some length =>
    rw [run_bind_of_ok (run_size hlength "size" w)] at hrun
    exact yields_of_edit hs hrun

theorem yields_clear (i : InstanceId) (a : Cell) (rest : List Cell) :
    w.Yields k s (clear.call k i (a :: rest)) ((s.pool.cells? ⟨a⟩).map fun _ => .changes ⟨a⟩ [] a) := by
  have hrun : (clear.run k i (a :: rest)).run w =
      (do
        edit k ⟨a⟩ .clear
        pure a : NativeAct σ Cell).run w := run_require (by simp) _
  rw [Option.map_eq_bind]
  exact yields_of_edit hs hrun

/-- What is at a position of a string is told on its cells. -/
theorem run_setCell (i : InstanceId) (a place c : Cell) (rest : List Cell) :
    (setCell.run k i (a :: place :: c :: rest)).run w =
      (match (do
          let position ← place.toNat?
          let t ← s.pool.get? ⟨a⟩
          let previous ← t.cells[position]?
          pure (position, previous) : Option (Nat × Cell)) with
        | some (position, previous) => do
          edit k ⟨a⟩ (.set position c)
          pure previous
        | none => pure invalidChar : NativeAct σ Cell).run w := by
  refine (run_require (by simp) _).trans ?_
  exact run_bind_of_ok (run_pool hs)

/-- A cell that there is. -/
theorem yields_setCell (i : InstanceId) {a place c : Cell} (rest : List Cell) {position : Nat} {cells : List Cell}
    {previous : Cell} (hposition : place.toNat? = some position) (hcells : s.pool.cells? ⟨a⟩ = some cells)
    (hprevious : cells[position]? = some previous) :
    w.Yields k s (setCell.call k i (a :: place :: c :: rest)) (some (.changes ⟨a⟩ (cells.set position c) previous)) := by
  obtain ⟨t, hget, rfl⟩ := Option.map_eq_some_iff.1 hcells
  -- the cell that was there is taken before the edit, and it is the answer
  have hrun := run_setCell (w := w) hs i a place c rest
  simp only [hposition, hget, hprevious, Option.bind_eq_bind, Option.bind_some, pure] at hrun
  exact yields_edit hs hget hrun

/-- A cell that there is not. -/
theorem yields_setCell_invalid (i : InstanceId) {a place : Cell} (c : Cell) (rest : List Cell)
    (hnone : ∀ position cells, place.toNat? = some position → s.pool.cells? ⟨a⟩ = some cells →
      cells[position]? = none) :
    w.Yields k s (setCell.call k i (a :: place :: c :: rest)) (some (.answers invalidChar)) := by
  have hrun := run_setCell (w := w) hs i a place c rest
  have hmissing : (do
      let position ← place.toNat?
      let t ← s.pool.get? ⟨a⟩
      let previous ← t.cells[position]?
      pure (position, previous) : Option (Nat × Cell)) = none := by
    cases hposition : place.toNat? with
    | none => rfl
    | some position =>
      cases hget : s.pool.get? ⟨a⟩ with
      | none => rfl
      | some t => simp [hnone position t.cells hposition (congrArg (Option.map _) hget)]
  rw [hmissing] at hrun
  exact yields_answer hs hrun

end

end StringNative

end Interpose

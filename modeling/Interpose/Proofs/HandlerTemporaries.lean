import Interpose.Proofs.Stages
import Interpose.Proofs.Temporaries

/-!
# Temporary strings of handlers

A synthetic callback is answered by a handler before the call that it may name is made, and of the two only that call is
counted. So in a handler that runs while no other call is under way none is counted at all: each execute call that the
handler makes is the outermost one, and when it is over the temporary strings end, also those that the handler added
itself. Until then, and from each such end to the next, they are spared, whatever the calls do; and so they are while the
function runs that the handler named.

Main statement: `Machine.handler_temporaries`.
-/

namespace Interpose

open World

variable {σ : Type} {k : SubsystemId} {i : InstanceId}

namespace Machine

/-! ## What is counted -/

/-- Keeping a layer going for the time of a run is not counted, and told nobody. -/
theorem holding_begins {α : Type} {w : World σ} (hk : (w.subsystem? k).isSome) (x : Run σ α) :
    (w.hold k (· + 1)).events = w.events ∧ (w.hold k (· + 1)).execDepth k = w.execDepth k ∧
      ∃ rest : α → Run σ α, ∀ d fuel, holding k x d w fuel = (x >>= rest) d (w.hold k (· + 1)) fuel := by
  obtain ⟨s, hs⟩ := Option.isSome_iff_exists.1 hk
  have hheld := hold_eq hs (· + 1)
  have hstill := Act.still_onSubsystem (k := k) (fun _ => rfl) (fun _ => rfl) hheld
  refine ⟨Act.events_onSubsystem hheld, hstill.execDepth, fun a => do
    Run.act (Act.onSubsystem k fun s => ((), { s with holds := s.holds - 1 }))
    pure a, fun d fuel => ?_⟩
  exact Run.bind_of_done (Run.act_of_some hheld d fuel)

/-! ## Callbacks -/

/-- What becomes of the temporary strings of a layer while a synthetic callback is answered. -/
structure HandlerTemporaries (host : Host σ) (k : SubsystemId) : Prop where
  /-- The handler runs first, with as many calls counted as there were: the callback is not counted. -/
  begins : ∀ (depth : Nat) {i : InstanceId} {slot : Option Cell} {index : Cell} {id : Nat} {w : World σ},
    ExecIndex.decode index = .synthetic id → (w.subsystem? k).isSome →
      ∃ (w₀ : World σ) (rest : Handled → Run σ ExecReply), w₀ = w.hold k (· + 1) ∧
        w₀.events = w.events ∧ w₀.execDepth k = w.execDepth k ∧
        ∀ d fuel, intercepted host (enter host depth) k i slot index d w fuel =
          (invoke host (enter host depth) k i id slot >>= rest) d w₀ fuel
  /-- When the handler is over, and when the callback is, that many are counted again. -/
  level : ∀ (depth : Nat) {i : InstanceId} {slot : Option Cell} {d : Activity} {w w' : World σ} {fuel left : Nat},
    (∀ {id handled}, invoke host (enter host depth) k i id slot d w fuel = .done handled w' left →
      w'.execDepth k = w.execDepth k) ∧
    (∀ {index r}, intercepted host (enter host depth) k i slot index d w fuel = .done r w' left →
      w'.execDepth k = w.execDepth k)
  /-- From each moment of the callback to a later one the journal tells how many calls are counted; and a string that was
  temporary is still there and temporary, unless it was removed by hand, or the last call that was counted was over. -/
  spared : ∀ (depth : Nat) {i : InstanceId} {slot : Option Cell} {index : Cell} {id : Nat} {d : Activity} {w : World σ},
    ExecIndex.decode index = .synthetic id → w.TidyAt k → ∀ {n m : Nat}, n ≤ m → ∀ {v v' : World σ},
    (intercepted host (enter host depth) k i slot index d w n).world = v →
    (intercepted host (enter host depth) k i slot index d w m).world = v' →
    ∃ es, v'.events = v.events ++ es ∧ v'.execDepth k = depthAfter k (v.execDepth k) es ∧
      (neverLast k (v.execDepth k) es = true → ∀ id, .stringRemoved k id ∉ es → v.Temporary k id → v'.Temporary k id)
  /-- In particular, strings are spared until the first call is over. -/
  untilFirst : ∀ (depth : Nat) {i : InstanceId} {slot : Option Cell} {index : Cell} {id : Nat} {d : Activity}
    {w : World σ}, ExecIndex.decode index = .synthetic id → w.TidyAt k → ∀ {n m : Nat}, n ≤ m → ∀ {v v' : World σ},
    (intercepted host (enter host depth) k i slot index d w n).world = v →
    (intercepted host (enter host depth) k i slot index d w m).world = v' →
    ∃ es, v'.events = v.events ++ es ∧
      ((∀ j, .left k j ∉ es) → ∀ id, .stringRemoved k id ∉ es → v.Temporary k id → v'.Temporary k id)
  /-- A call with a frame that was made while none was counted is the last one that is counted. When it is over, however it
  went, closing its frame has ended the strings that nobody pinned and nobody held, if there are numbers for all strings;
  none that is left is temporary. -/
  last : ∀ (depth : Nat) {i : InstanceId} {slot : Option Cell} {index : Cell} {d : Activity} {w w' : World σ}
    {fuel left : Nat} {r : ExecReply}, framed host (enter host depth) k i slot index d w fuel = .done r w' left →
    w.execDepth k = 0 → ∃ w₀ w₁ x y, openFrame k i w = some ((), w₀) ∧
      (passOn (enter host depth) k i slot index >>= settle host (enter host depth) k i) d w₀ fuel = .done r w₁ left ∧
      closeFrame k i w₁ = some ((), w') ∧ w₁.stock? k = some x ∧ w'.stock? k = some y ∧
      (y.pool.slots.size ≤ Pool.mostStrings → Pool.Collected x.pool y.pool ∧ ∀ id, ¬ y.pool.IsTemporary id)

/-- Whatever handlers do that leave collecting to the layer, and whatever the calls do that they make. -/
theorem handler_temporaries {host : Host σ} (hhost : host.UsesOnly (.operations (Operation.leavesCollecting k))) :
    HandlerTemporaries host k := by
  have hspared : ∀ (depth : Nat) {i : InstanceId} {slot : Option Cell} {index : Cell} {d : Activity} {w : World σ},
      w.TidyAt k → ∀ {n m : Nat}, n ≤ m → ∃ es,
        Spares k (intercepted host (enter host depth) k i slot index d w n).world
          (intercepted host (enter host depth) k i slot index d w m).world es ∧
        (intercepted host (enter host depth) k i slot index d w n).world.TidyAt k := by
    intro depth i slot index d w ht n m hnm
    have G := regimeOfSparing hhost
    have hflows := G.intercepted (G.enter depth) k i slot index
    obtain ⟨es₀, h₀⟩ := hflows.keeps.world_of d w n
    obtain ⟨es, h⟩ := hflows.moments d w hnm
    exact ⟨es, h, h₀.tidy ht⟩
  refine ⟨fun depth i slot index id w hindex hk => ?_, fun depth i slot d w w' fuel left =>
    ⟨execDepth_invoke host depth, execDepth_intercepted host depth⟩, ?_, ?_, ?_⟩
  · obtain ⟨hevents, hdepth, rest, hrun⟩ := holding_begins hk
      (invoke host (enter host depth) k i id slot >>= forwarded host (enter host depth) k i slot)
    refine ⟨_, fun handled => forwarded host (enter host depth) k i slot handled >>= rest, rfl, hevents, hdepth,
      fun d fuel => ?_⟩
    rw [intercepted_synthetic hindex, hrun, bind_assoc]
  · rintro depth i slot index id d w - ht n m hnm v v' rfl rfl
    obtain ⟨es, h, ht₀⟩ := hspared depth ht hnm
    exact ⟨es, h.journal, h.counted, h.spared ht₀⟩
  · rintro depth i slot index id d w - ht n m hnm v v' rfl rfl
    obtain ⟨es, h, ht₀⟩ := hspared depth ht hnm
    exact ⟨es, h.journal, fun hleft => h.spared ht₀ (neverLast_of_not_left hleft _)⟩
  · intro depth i slot index d w w' fuel left r hr hnone
    obtain ⟨-, w₀, w₁, x, y, hopen, hinside, hclose, -, hx, hy, hcollected, -⟩ := stock?_of_framed host depth hr
    refine ⟨w₀, w₁, x, y, hopen, hinside, hclose, hx, hy, fun hroom => ⟨hcollected hnone hroom, fun id hid => ?_⟩⟩
    obtain ⟨e, he, himplicit⟩ := hid
    rw [((hcollected hnone hroom).kept he).2] at himplicit
    cases himplicit

/-! ## A handler that makes a call -/

/-- A handler that adds a string, executes the only function of its script and looks around. -/
def addingHost : Host Unit :=
  { Host.scripted fun _ _ => .done (.ok 1) with
    invoke := fun k _ i _ => do
      let _ ← Program.perform (.pool k (.add (.ofCells [1])))
      let _ ← Program.executeInto i none 0
      let _ ← Program.world
      .done ⟨none, none⟩ }

/-- A world in which that script is loaded, and every hook is switched on. -/
def addingWorld : World Unit :=
  let setUp : Program Unit Unit := do
    let i ← Program.perform (.newInstance 4)
    let _ ← Program.perform (.addFunction i "idle" ⟨0⟩)
    let _ ← Program.perform (.installAll ⟨0⟩)
  (setUp.runIn addingHost 9 (.single #[] .drop () .standard ⟨.host, .host, .host⟩)).world

/-- A synthetic callback that is executed there. -/
def answering (fuel : Nat) : Outcome Unit ExecReply :=
  intercepted addingHost (enter addingHost 4) ⟨0⟩ ⟨0⟩ none ((ExecIndex.synthetic 5).encode.getD 0) .outside addingWorld
    fuel

/-- The string is spared while the function runs that the handler executes, and gone when that call is over. -/
theorem handler_temporaries_adding :
    (answering 3).world.Temporary ⟨0⟩ ⟨1⟩ ∧
      ∃ r w₀ w₁ w' left, ∃ x y : Stock,
        framed addingHost (enter addingHost 3) ⟨0⟩ ⟨0⟩ none 0 .machine (answering 2).world 9 = .done r w' left ∧
        openFrame ⟨0⟩ ⟨0⟩ (answering 2).world = some ((), w₀) ∧
        (passOn (enter addingHost 3) ⟨0⟩ ⟨0⟩ none 0 >>= settle addingHost (enter addingHost 3) ⟨0⟩ ⟨0⟩) .machine w₀ 9 =
          .done r w₁ left ∧
        w₁.stock? ⟨0⟩ = some x ∧ x.pool.IsTemporary ⟨1⟩ ∧ w'.stock? ⟨0⟩ = some y ∧ Pool.Collected x.pool y.pool ∧
        y.pool.contains ⟨1⟩ = false := by
  have hhost : addingHost.UsesOnly (.operations (Operation.leavesCollecting ⟨0⟩)) := by
    refine ⟨fun code i => trivial, fun _ _ _ => trivial, fun _ _ _ _ => trivial, fun _ _ _ _ => ?_, fun _ _ _ => trivial⟩
    exact ⟨trivial, fun _ => ⟨trivial, fun _ => ⟨trivial, fun _ => trivial⟩⟩⟩
  have hlaw : HandlerTemporaries addingHost ⟨0⟩ := handler_temporaries hhost
  have hindex : ExecIndex.decode ((ExecIndex.synthetic 5).encode.getD 0) = .synthetic 5 := rfl
  constructor
  · have hadded : ((answering 2).world.stock? ⟨0⟩).any (fun x => decide (x.pool.IsTemporary ⟨1⟩)) = true := by
      decide +kernel
    obtain ⟨x, hx, htemporary⟩ := (Option.any_eq_true _ _).1 hadded
    have hfree : (addingWorld.stock? ⟨0⟩).any (fun x => x.pool.free.isEmpty) = true := by decide +kernel
    have htidy : addingWorld.TidyAt ⟨0⟩ := by
      intro y hy
      rw [hy, Option.any_some, List.isEmpty_iff] at hfree
      exact ⟨by simp [hfree], by simp [hfree]⟩
    obtain ⟨es, hes, -, hspared⟩ := hlaw.spared 4 hindex htidy (by decide : 2 ≤ 3) (rfl : (answering 2).world = _)
      (rfl : (answering 3).world = _)
    -- all that is told in between is that the call has begun
    have hsince : (answering 3).world.events.drop (answering 2).world.events.length = [.entered ⟨0⟩ ⟨0⟩] := by
      decide +kernel
    rw [hes, List.drop_left] at hsince
    refine hspared ?_ ⟨1⟩ (by simp [hsince]) ⟨x, hx, of_decide_eq_true htemporary⟩
    rw [hsince]
    decide
  · have hover : (framed addingHost (enter addingHost 3) ⟨0⟩ ⟨0⟩ none 0 .machine (answering 2).world 9).done?.any
        (fun rw => (rw.2.stock? ⟨0⟩).any fun y =>
          !y.pool.contains ⟨1⟩ && decide (y.pool.slots.size = 1)) = true := by decide +kernel
    have hinside : (openFrame ⟨0⟩ ⟨0⟩ (answering 2).world).any (fun opened =>
        ((passOn (enter addingHost 3) ⟨0⟩ ⟨0⟩ none 0 >>= settle addingHost (enter addingHost 3) ⟨0⟩ ⟨0⟩) .machine
          opened.2 9).done?.any fun rw => (rw.2.stock? ⟨0⟩).any fun x => decide (x.pool.IsTemporary ⟨1⟩)) = true := by
      decide +kernel
    obtain ⟨r, w', left, hr, hpool⟩ := Outcome.exists_done hover
    obtain ⟨w₀, w₁, x, y, hopen, hrun, -, hx, hy, hcollected⟩ := hlaw.last 3 hr (by decide +kernel)
    rw [hopen, Option.any_some, hrun] at hinside
    have hbefore : (w₁.stock? ⟨0⟩).any (fun x => decide (x.pool.IsTemporary ⟨1⟩)) = true := hinside
    rw [hx, Option.any_some, decide_eq_true_eq] at hbefore
    rw [show (r, w').2.stock? ⟨0⟩ = some y from hy, Option.any_some, Bool.and_eq_true, decide_eq_true_eq,
      Bool.not_eq_true'] at hpool
    refine ⟨r, w₀, w₁, w', left, x, y, hr, hopen, hrun, hx, hbefore, hy, (hcollected ?_).1, hpool.1⟩
    rw [hpool.2, Pool.mostStrings]
    omega

/-- The string that the handler added ends while the handler still runs, though nobody removed it, and though no call was
under way when the callback was executed. -/
theorem handler_temporaries_end :
    ∃ w w' : World Unit, ∃ x y : Stock, addingWorld.execDepth ⟨0⟩ = 0 ∧
      answering 2 = .cut (.handler ⟨0⟩ ⟨0⟩ 5) w ∧ w.stock? ⟨0⟩ = some x ∧ x.pool.IsTemporary ⟨1⟩ ∧
      answering 4 = .cut (.handler ⟨0⟩ ⟨0⟩ 5) w' ∧ w'.stock? ⟨0⟩ = some y ∧ y.pool.contains ⟨1⟩ = false ∧
      Event.stringRemoved ⟨0⟩ ⟨1⟩ ∉ w'.events := by
  have hbefore : (answering 2).cut?.any (fun m => decide (m.1 = .handler ⟨0⟩ ⟨0⟩ 5) &&
      (m.2.stock? ⟨0⟩).any fun x => decide (x.pool.IsTemporary ⟨1⟩)) = true := by decide +kernel
  have hafter : (answering 4).cut?.any (fun m => decide (m.1 = .handler ⟨0⟩ ⟨0⟩ 5) &&
      ((m.2.stock? ⟨0⟩).any fun y => !y.pool.contains ⟨1⟩) && decide (Event.stringRemoved ⟨0⟩ ⟨1⟩ ∉ m.2.events)) =
        true := by
    decide +kernel
  obtain ⟨d, w, hw, hbefore⟩ := Outcome.exists_cut hbefore
  obtain ⟨d', w', hw', hafter⟩ := Outcome.exists_cut hafter
  simp only [Bool.and_eq_true, decide_eq_true_eq, Option.any_eq_true, Bool.not_eq_true'] at hbefore hafter
  obtain ⟨rfl, x, hx, htemporary⟩ := hbefore
  obtain ⟨⟨rfl, y, hy, hgone⟩, hremoved⟩ := hafter
  exact ⟨w, w', x, y, by decide +kernel, hw, hx, htemporary, hw', hy, hgone, hremoved⟩

end Machine

end Interpose

import Interpose.Proofs.CallDepth
import Interpose.Proofs.PoolTemporaries

/-!
# The life of temporary strings

The pool of a hook layer is collected by the end of its last execute call, and host code that leaves collecting to the
layer does not collect it otherwise. So a temporary string lives exactly as long as the outermost call: for as long as
calls of the layer are under way nothing ends it but removing it by hand, whatever happens in the calls; and when the
outermost call is over, however it ended, what is left are the strings that are pinned or held.

The journal tells which strings were removed by hand, and from when to when calls are under way. What a stretch of a run
spares is a steady relation between the worlds at its ends (`World.Spares`); it holds between any two moments.

Main statement: `Machine.temporaries_last`.
-/

namespace Interpose

open World

variable {σ α : Type} {k : SubsystemId}

namespace World

/-- A string of a hook layer is there, and still has the reference it was born with. -/
def Temporary (w : World σ) (k : SubsystemId) (id : StringId) : Prop :=
  ∃ x, w.stock? k = some x ∧ x.pool.IsTemporary id

/-- The pool of a hook layer is tidy, if there is such a layer. -/
def TidyAt (w : World σ) (k : SubsystemId) : Prop :=
  ∀ x, w.stock? k = some x → x.pool.Tidy

/-- In the beginning there is no layer at all. -/
theorem tidyAt_initial (resumer : Resumer) (state : σ) : TidyAt (.initial resumer state) k := by
  intro x hx
  have hnone : (World.initial resumer state).subsystem? k = none := Array.getElem?_eq_none (Nat.zero_le _)
  rw [stock?, hnone] at hx
  cases hx

/-- What happens between two worlds, of which the journal tells `es`, spares the temporary strings of a layer, unless the
last of the calls that are counted is over at some point. -/
structure Spares (k : SubsystemId) (w w' : World σ) (es : List Event) : Prop where
  journal : w'.events = w.events ++ es
  counted : w'.execDepth k = depthAfter k (w.execDepth k) es
  tidy : w.TidyAt k → w'.TidyAt k
  spared : w.TidyAt k → neverLast k (w.execDepth k) es = true → ∀ id, .stringRemoved k id ∉ es → w.Temporary k id →
    w'.Temporary k id

namespace Spares

variable {u v w w' : World σ} {es es' : List Event}

/-- In particular, it spares them if calls of the layer are under way all the time. -/
theorem temporary (h : Spares k w w' es) (ht : w.TidyAt k) (hflight : InFlight k (w.execDepth k) es) :
    ∀ id, .stringRemoved k id ∉ es → w.Temporary k id → w'.Temporary k id :=
  h.spared ht (neverLast_of_inFlight hflight)

theorem trans (h : Spares k u v es) (h' : Spares k v w es') : Spares k u w (es ++ es') where
  journal := by rw [h'.journal, h.journal, List.append_assoc]
  counted := by rw [h'.counted, h.counted, depthAfter_append]
  tidy ht := h'.tidy (h.tidy ht)
  spared ht hnever id hid hw := by
    rw [neverLast_append, ← h.counted, Bool.and_eq_true] at hnever
    rw [List.mem_append, not_or] at hid
    exact h'.spared (h.tidy ht) hnever.2 id hid.2 (h.spared ht hnever.1 id hid.1 hw)

/-- One pool may change; it spares its temporary strings unless the last call is over. -/
theorem of_restocked {x y : Stock} {l : SubsystemId} (h : Restocked l x y w w') (hj : w'.events = w.events ++ es)
    (hcounted : w'.execDepth k = depthAfter k (w.execDepth k) es)
    (hpool : l = k → x.pool.Tidy → y.pool.Tidy ∧
      (neverLast k x.execDepth es = true → ∀ id, .stringRemoved k id ∉ es → x.pool.IsTemporary id →
        y.pool.IsTemporary id)) :
    Spares k w w' es := by
  refine ⟨hj, hcounted, fun ht z hz => ?_, fun ht hnever id hid ⟨z, hz, hid'⟩ => ?_⟩
  · rw [h.after] at hz
    split at hz
    · rename_i hk
      cases hz
      exact (hpool hk.symm (ht x (hk ▸ h.before))).1
    · exact ht z hz
  · by_cases hk : k = l
    · subst hk
      obtain rfl : x = z := Option.some.inj (h.before.symm.trans hz)
      rw [execDepth_eq, h.before] at hnever
      exact ⟨y, h.stock?, (hpool rfl (ht x hz)).2 hnever id hid hid'⟩
    · exact ⟨z, by rw [h.after, if_neg hk, hz], hid'⟩

/-- Calls neither begin nor end, and the pool spares its temporary strings. -/
theorem of_pool {x y : Stock} {l : SubsystemId} (h : Restocked l x y w w') (hj : w'.events = w.events ++ es)
    (hes : ∀ e ∈ es, e.Uncounted k) (hdepth : y.execDepth = x.execDepth)
    (hpool : l = k → x.pool.Tidy → y.pool.Tidy ∧
      ∀ id, .stringRemoved k id ∉ es → x.pool.IsTemporary id → y.pool.IsTemporary id) : Spares k w w' es := by
  refine .of_restocked h hj ?_ fun hl ht => ⟨(hpool hl ht).1, fun _ => (hpool hl ht).2⟩
  rw [depthAfter_uncounted hes, execDepth_eq, execDepth_eq, h.after]
  split
  · rename_i hk
    rw [hk, h.before]
    exact hdepth
  · rfl

/-- Nothing happens to stocks. -/
theorem of_same (h : ∀ l, w'.stock? l = w.stock? l) (hj : w'.events = w.events ++ es)
    (hes : ∀ e ∈ es, e.Uncounted k) : Spares k w w' es := by
  refine ⟨hj, ?_, fun ht z hz => ht z ((h k).symm.trans hz), fun _ _ id _ ⟨z, hz, hid⟩ => ⟨z, (h k).trans hz, hid⟩⟩
  rw [depthAfter_uncounted hes, execDepth_eq, execDepth_eq, h]

theorem record (w : World σ) {e : Event} (he : e.Uncounted k) : Spares k w (w.record e) [e] :=
  .of_same (fun _ => rfl) (by simp) (by simpa using he)

end Spares

/-- What happens between two worlds spares the temporary strings. -/
def Sparing (k : SubsystemId) (w w' : World σ) : Prop :=
  ∃ es, Spares k w w' es

end World

namespace Act

theorem track_sparing : Track (Sparing k : World σ → World σ → Prop) where
  refl _ := ⟨[], .of_same (fun _ => rfl) (by simp) (by simp)⟩
  trans := by
    rintro u v w ⟨es, h⟩ ⟨es', h'⟩
    exact ⟨es ++ es', h.trans h'⟩

theorem sparing_setPool {w : World σ} {l : SubsystemId} {s : Subsystem} {q : Pool} (hs : w.subsystem? l = some s)
    (hq : s.pool.LeadsGently q) : Sparing k w (w.setSubsystem l { s with pool := q }) := by
  have hrestocked : Restocked l s.stock { s.stock with pool := q } w (w.setSubsystem l { s with pool := q }) :=
    ⟨stock?_of_subsystem? hs, stock?_setSubsystem hs _, rfl, rfl⟩
  refine ⟨[], .of_pool hrestocked (by simp) (by simp) rfl fun _ ht => ⟨ht.leads hq, fun id _ hid => ?_⟩⟩
  exact ht.isTemporary_leads hid hq

/-- Removing a string by hand is told. -/
theorem sparing_removeString (l : SubsystemId) (id : StringId) :
    (removeString l id : Act σ (Except PoolError CellString)).Keeps (Sparing k) := by
  intro w r w' h
  obtain ⟨x, hx, hevents⟩ := removeString_spec h
  refine ⟨_, .of_pool hx hevents (fun e he => ?_) rfl ?_⟩
  · split at he
    · rw [List.mem_singleton.1 he]
      exact fun _ => rfl
    · cases he
  · rintro rfl ht
    refine ⟨ht.perform _, fun other hother hid => ?_⟩
    by_cases hsame : other = id
    · -- a string that is there is told of
      obtain ⟨e, he, -⟩ := hid
      rw [if_pos (Pool.contains_iff.2 ⟨e, hsame ▸ he⟩)] at hother
      exact absurd (List.mem_singleton.2 (by rw [hsame])) hother
    · exact Pool.isTemporary_remove hid hsame

theorem steady_sparing (k : SubsystemId) : Steady (Sparing k : World σ → World σ → Prop) := by
  have hbeside : ∀ {w w' : World σ}, w'.subsystems = w.subsystems → w'.journal = w.journal → Sparing k w w' := by
    intro w w' hs hj
    have hevents : w'.events = w.events := congrArg Array.toList hj
    exact ⟨[], .of_same (fun l => by unfold World.stock? subsystem?; rw [hs]) (by simp [hevents]) (by simp)⟩
  refine .of_stocks track_sparing (fun {w w'} h => ?_) sparing_setPool sparing_removeString ?_
    fun w e he => ⟨[e], .record w (Event.uncounted_of_not_ofStocks he)⟩
  · exact ⟨[], .of_same h.layers (by simp [h.events]) (by simp)⟩
  · refine .of_parts track_sparing (fun _ _ => hbeside rfl rfl) (fun _ _ => hbeside rfl rfl) fun w e he => ?_
    exact ⟨[e], .record w (Event.uncounted_of_aside he)⟩

end Act

/-- Whether an operation does not collect the strings of a layer. -/
def Operation.leavesCollecting (k : SubsystemId) : Operation → Prop
  | .pool l .collect => l ≠ k
  | _ => True

open Act in
/-- Code that leaves collecting to the layer spares the temporary strings. -/
theorem Operation.sparing_perform (ids : CallbackIds σ) (resume : Resume σ) {o : Operation}
    (h : o.leavesCollecting k) : (o.perform ids resume).Keeps (Sparing k) := by
  have hcollect : ∀ l, o = .pool l .collect → (onPool l fun p => p.perform .collect : Act σ Nat).Keeps (Sparing k) := by
    rintro l rfl w n w' hw
    -- the strings of another layer are collected
    obtain ⟨x, hx⟩ := restocked_of_onSubsystem hw
    have hcollected := hx.onSubsystem hw (fun y => { y with pool := y.pool.collect.2 }) fun _ => rfl
    exact ⟨[], .of_pool hcollected (by simp [events_onSubsystem hw]) (by simp) rfl fun hl => absurd hl h⟩
  cases o with
  | newSubsystem config collaborators =>
    intro w l w' hw
    obtain ⟨hnone, hstock, -, -, hjournal⟩ := stock?_newSubsystem hw
    have hevents : w'.events = w.events := congrArg Array.toList hjournal
    have hdepth : w'.execDepth k = w.execDepth k := (still_newSubsystem config collaborators hw).execDepth
    refine ⟨[], by simp [hevents], hdepth, fun ht z hz => ?_, fun ht hflight id hid ⟨z, hz, hid'⟩ => ?_⟩
    · rw [hstock] at hz
      split at hz
      · cases hz
        exact Pool.tidy_empty
      · exact ht z hz
    · refine ⟨z, ?_, hid'⟩
      rw [hstock, if_neg, hz]
      rintro rfl
      rw [hnone] at hz
      cases hz
  | _ => exact (steady_sparing k).perform ids resume trivial hcollect

namespace Machine

theorem sparing_openFrame (l : SubsystemId) (i : InstanceId) : (openFrame l i : Act σ Unit).Keeps (Sparing k) := by
  intro w u w' h
  obtain ⟨htells, hdepth⟩ := tells_openFrame (k := k) h
  obtain ⟨x, hx⟩ := restocked_openFrame h
  refine ⟨[.entered l i], .of_restocked hx htells.journal ?_ fun _ ht => ⟨ht, fun _ _ _ hid => hid⟩⟩
  rw [hdepth]
  show _ = Event.countCalls k (w.execDepth k) (.entered l i)
  simp only [Event.countCalls, eq_comm]

/-- The end of a call spares the temporary strings unless it is the last one. -/
theorem sparing_closeFrame (l : SubsystemId) (i : InstanceId) : (closeFrame l i : Act σ Unit).Keeps (Sparing k) := by
  intro w u w' h
  obtain ⟨htells, hdepth⟩ := tells_closeFrame (k := k) h
  obtain ⟨x, hx⟩ := restocked_closeFrame h
  refine ⟨_, .of_restocked hx htells.journal ?_ fun hl ht => ⟨?_, fun hnever _ _ hid => ?_⟩⟩
  · rw [hdepth, closing, depthAfter_append, depthAfter_uncounted (uncounted_report i _)]
    show _ = Event.countCalls k (w.execDepth k) (.left l i)
    simp only [Event.countCalls, eq_comm]
  · show (if x.execDepth = 1 then x.pool.collect.2 else x.pool).Tidy
    split
    · exact ht.collect
    · exact ht
  · rw [closing, neverLast_append, depthAfter_uncounted (uncounted_report i _), Bool.and_eq_true] at hnever
    have hne : x.execDepth ≠ 1 := fun hlast => by simp [neverLast, Event.isLast, hl, hlast] at hnever
    show (if x.execDepth = 1 then x.pool.collect.2 else x.pool).IsTemporary _
    rw [if_neg hne]
    exact hid

/-! ## Runs -/

/-- The answer of a call with a frame is that of a call whose frame was closed last, and was counted until then. -/
theorem closeFrame_of_framed (host : Host σ) (depth : Nat) {i : InstanceId} {slot : Option Cell} {index : Cell}
    {d : Activity} {w w' : World σ} {fuel left : Nat} {r : ExecReply}
    (hr : framed host (enter host depth) k i slot index d w fuel = .done r w' left) :
    ∃ w₀ w₁, openFrame k i w = some ((), w₀) ∧
      (passOn (enter host depth) k i slot index >>= settle host (enter host depth) k i) d w₀ fuel = .done r w₁ left ∧
      closeFrame k i w₁ = some ((), w') ∧ w₁.execDepth k = w.execDepth k + 1 := by
  obtain ⟨w₀, w₁, hopen, hinside, hclose⟩ := done_of_framed hr
  have hdepth := (tells_openFrame (k := k) hopen).2
  rw [if_pos rfl] at hdepth
  have hcounts := (regimeOfCounts (k := k) host).inside (counts_enter host depth) k i slot index
  obtain ⟨-, -, -, hsame⟩ := (hcounts d w₀).of_done hinside
  exact ⟨w₀, w₁, hopen, hinside, hclose, hsame.trans hdepth⟩

/-- A call with a frame leaves as many calls counted as there were. If it was the outermost one, the end of it ended the
temporary strings; if not, it touched none. -/
theorem stock?_of_framed (host : Host σ) (depth : Nat) {i : InstanceId} {slot : Option Cell} {index : Cell}
    {d : Activity} {w w' : World σ} {fuel left : Nat} {r : ExecReply}
    (hr : framed host (enter host depth) k i slot index d w fuel = .done r w' left) :
    w'.execDepth k = w.execDepth k ∧ ∃ w₀ w₁ x y, openFrame k i w = some ((), w₀) ∧
      (passOn (enter host depth) k i slot index >>= settle host (enter host depth) k i) d w₀ fuel = .done r w₁ left ∧
      closeFrame k i w₁ = some ((), w') ∧ w₁.execDepth k = w.execDepth k + 1 ∧
      w₁.stock? k = some x ∧ w'.stock? k = some y ∧
      (w.execDepth k = 0 → y.pool.slots.size ≤ Pool.mostStrings → Pool.Collected x.pool y.pool) ∧
      (0 < w.execDepth k → y.pool = x.pool) := by
  obtain ⟨w₀, w₁, hopen, hinside, hclose, hdepth⟩ := closeFrame_of_framed host depth hr
  obtain ⟨x, hx⟩ := restocked_closeFrame hclose
  have hcounted : x.execDepth = w.execDepth k + 1 := by
    rw [← hdepth, execDepth_eq, hx.before]
    rfl
  refine ⟨?_, w₀, w₁, x, x.left, hopen, hinside, hclose, hdepth, hx.before, hx.stock?, fun houtermost hroom => ?_,
    fun hnested => ?_⟩
  · rw [execDepth_eq, hx.stock?]
    show x.execDepth - 1 = _
    omega
  · -- one call is counted right before the end, which is when the end collects
    have hlast : x.left.pool = x.pool.collect.2 := if_pos (by omega)
    rw [hlast] at hroom ⊢
    exact Pool.collected_collect (x.pool.size_collect ▸ hroom)
  · exact if_neg (by omega)

section

variable {host : Host σ} (hhost : host.UsesOnly (.operations (Operation.leavesCollecting k)))
include hhost

theorem regimeOfSparing : Regime host (Sparing k) fun _ r => Run.Flows (Sparing k) r :=
  regimeOfSteady (Act.steady_sparing k) (fun _ ho => Operation.sparing_perform _ _ ho) hhost sparing_openFrame
    sparing_closeFrame

/-- While an execute call has its frame, temporary strings are spared from each moment to the next. -/
theorem temporary_framed (depth : Nat) {i : InstanceId} (slot : Option Cell) (index : Cell) (d : Activity)
    {w w₀ : World σ} (hopen : openFrame k i w = some ((), w₀)) (ht : w₀.TidyAt k) {n m : Nat} (hnm : n ≤ m)
    {v v' : World σ}
    (hv : ((passOn (enter host depth) k i slot index >>= settle host (enter host depth) k i) d w₀ n).world = v)
    (hv' : ((passOn (enter host depth) k i slot index >>= settle host (enter host depth) k i) d w₀ m).world = v') :
    ∃ es, v'.events = v.events ++ es ∧ ∀ id, .stringRemoved k id ∉ es → v.Temporary k id → v'.Temporary k id := by
  have G := regimeOfSparing hhost
  have hflows := G.inside (G.enter depth) k i slot index
  obtain ⟨es₀, h₀⟩ := hflows.keeps.world_of d w₀ n
  obtain ⟨es, h⟩ := hflows.moments d w₀ hnm
  obtain ⟨all, hall, hflight⟩ := inFlight_framed host depth slot index d hopen m
  rw [hv] at h₀ h
  rw [hv'] at h hall
  -- what happened until the later moment is what happened until the earlier one, and what happened since
  have hsplit : all = es₀ ++ es := by
    have hsame : w₀.events ++ all = w₀.events ++ (es₀ ++ es) := by
      rw [← hall, h.journal, h₀.journal, List.append_assoc]
    exact List.append_cancel_left hsame
  rw [hsplit, inFlight_append, ← h₀.counted] at hflight
  exact ⟨es, h.journal, h.temporary (h₀.tidy ht) hflight.2⟩

end

/-- What becomes of the temporary strings of a layer in the runs of a host. -/
structure TemporariesLast (host : Host σ) (k : SubsystemId) : Prop where
  /-- From each moment of a run to a later one the journal tells how many calls are counted; and if some are under way all
  the time, a string that was temporary is still there and temporary, unless it was removed by hand. -/
  spared : ∀ {α : Type} {p : Program σ α}, p.Uses (.operations (Operation.leavesCollecting k)) →
    ∀ (depth : Nat) (resumer : Resumer) (state : σ) {n m : Nat}, n ≤ m → ∀ {v v' : World σ},
    (p.run host (enter host depth) .outside (.initial resumer state) n).world = v →
    (p.run host (enter host depth) .outside (.initial resumer state) m).world = v' →
    v.TidyAt k ∧ ∃ es, v'.events = v.events ++ es ∧ v'.execDepth k = depthAfter k (v.execDepth k) es ∧
      (InFlight k (v.execDepth k) es → ∀ id, .stringRemoved k id ∉ es → v.Temporary k id → v'.Temporary k id)
  /-- As long as an execute call has its frame, a string that is temporary at one moment is so at each later one, unless it
  was removed by hand. -/
  inCall : ∀ (depth : Nat) {i : InstanceId} (slot : Option Cell) (index : Cell) (d : Activity) {w w₀ : World σ},
    openFrame k i w = some ((), w₀) → w₀.TidyAt k → ∀ {n m : Nat}, n ≤ m → ∀ {v v' : World σ},
    ((passOn (enter host depth) k i slot index >>= settle host (enter host depth) k i) d w₀ n).world = v →
    ((passOn (enter host depth) k i slot index >>= settle host (enter host depth) k i) d w₀ m).world = v' →
    ∃ es, v'.events = v.events ++ es ∧ ∀ id, .stringRemoved k id ∉ es → v.Temporary k id → v'.Temporary k id
  /-- When a call is over, however it went, as many calls are counted as before. It had opened its frame, was passed on and
  settled, and the last thing that happened is that its frame was closed; if it was the outermost call and there are numbers
  for all strings, this ended the strings that nobody pinned and nobody held, and left none temporary; if it was not, it
  touched no string. -/
  returns : ∀ (depth : Nat) {i : InstanceId} {slot : Option Cell} {index : Cell} {d : Activity} {w w' : World σ}
    {fuel left : Nat} {r : ExecReply}, framed host (enter host depth) k i slot index d w fuel = .done r w' left →
    w'.execDepth k = w.execDepth k ∧ ∃ w₀ w₁ x y, openFrame k i w = some ((), w₀) ∧
      (passOn (enter host depth) k i slot index >>= settle host (enter host depth) k i) d w₀ fuel = .done r w₁ left ∧
      closeFrame k i w₁ = some ((), w') ∧ w₁.execDepth k = w.execDepth k + 1 ∧
      w₁.stock? k = some x ∧ w'.stock? k = some y ∧
      (w.execDepth k = 0 → y.pool.slots.size ≤ Pool.mostStrings → Pool.Collected x.pool y.pool) ∧
      (0 < w.execDepth k → y.pool = x.pool)

/-- Whatever host code does that leaves collecting to the layer, and however calls nest, return, suspend or fail: temporary
strings live as long as the outermost call. -/
theorem temporaries_last {host : Host σ} (hhost : host.UsesOnly (.operations (Operation.leavesCollecting k))) :
    TemporariesLast host k where
  spared hp depth resumer state _ _ hnm _ _ hv hv' := by
    have hflows := flows_run (Act.steady_sparing k) (fun _ ho => Operation.sparing_perform _ _ ho) hhost
      sparing_openFrame sparing_closeFrame depth hp
    obtain ⟨es₀, h₀⟩ := hflows.keeps.world_of .outside (.initial resumer state) _
    obtain ⟨es, h⟩ := hflows.moments .outside (.initial resumer state) hnm
    rw [hv] at h₀ h
    rw [hv'] at h
    have ht := h₀.tidy (tidyAt_initial resumer state)
    exact ⟨ht, es, h.journal, h.counted, h.temporary ht⟩
  inCall depth _ slot index d _ _ hopen ht _ _ hnm _ _ := temporary_framed hhost depth slot index d hopen ht hnm
  returns depth _ _ _ _ _ _ _ _ _ hr := stock?_of_framed host depth hr

/-- A script with two functions: the first adds two strings, holds the second of them, calls a native and executes the
other function, which suspends its call without a reason. -/
def lendingScript (code : Code) (i : InstanceId) : Program Unit (Except Status Cell) :=
  if code = ⟨0⟩ then do
    let _ ← Program.perform (.pool ⟨0⟩ (.add (.ofCells [1])))
    let held ← Program.perform (.pool ⟨0⟩ (.add (.ofCells [2])))
    let _ ← Program.perform (.pool ⟨0⟩ (.acquire held))
    let _ ← Program.callIndex i 0 []
    Program.execute i 1
  else .done (.error .sleep)

/-- Makes a layer, switches its hooks on, loads that script and executes its first function. -/
def lendingProgram : Program Unit (Except Status Cell) := do
  let i ← Program.perform (.newInstance 4)
  let _ ← Program.perform (.newSubsystem .standard ⟨.host, .unsupported, .unsupported⟩)
  let _ ← Program.perform (.addNative i "touch" ⟨0⟩)
  let _ ← Program.perform (.addFunction i "outer" ⟨0⟩)
  let _ ← Program.perform (.addFunction i "inner" ⟨1⟩)
  let _ ← Program.perform (.installAll ⟨0⟩)
  Program.execute i 0

/-- The world at a moment of its run. -/
def lendingWorld (fuel : Nat) : World Unit :=
  (lendingProgram.run (.scripted lendingScript) (enter (.scripted lendingScript) 4) .outside (.initial .drop ()) fuel).world

/-- The string that nobody holds is still there in the inner call, and ends with the outer one. -/
theorem temporaries_last_lending :
    ((lendingWorld 14).execDepth ⟨0⟩ = 2 ∧ (lendingWorld 14).Temporary ⟨0⟩ ⟨1⟩) ∧
      ∃ r w₀ w₁ w' left, ∃ x y : Stock, framed (.scripted lendingScript) (enter (.scripted lendingScript) 4) ⟨0⟩ ⟨0⟩
        (some 0) 0 .outside (lendingWorld 6) 9 = .done r w' left ∧
        openFrame ⟨0⟩ ⟨0⟩ (lendingWorld 6) = some ((), w₀) ∧
        (passOn (enter (.scripted lendingScript) 4) ⟨0⟩ ⟨0⟩ (some 0) 0 >>=
          settle (.scripted lendingScript) (enter (.scripted lendingScript) 4) ⟨0⟩ ⟨0⟩) .outside w₀ 9 = .done r w₁ left ∧
        w₁.stock? ⟨0⟩ = some x ∧ x.pool.IsTemporary ⟨1⟩ ∧ x.pool.contains ⟨2⟩ = true ∧
        w'.stock? ⟨0⟩ = some y ∧ Pool.Collected x.pool y.pool ∧
        y.pool.contains ⟨1⟩ = false ∧ y.pool.contains ⟨2⟩ = true := by
  have hhost : (Host.scripted lendingScript).UsesOnly (.operations (Operation.leavesCollecting ⟨0⟩)) := by
    refine Host.scripted_uses _ fun code i => ?_
    unfold lendingScript
    split
    · exact ⟨trivial, fun _ => ⟨trivial, fun _ => ⟨trivial, fun _ => ⟨trivial, fun _ => ⟨trivial, fun _ => trivial⟩⟩⟩⟩⟩
    · trivial
  have hprogram : lendingProgram.Uses (.operations (Operation.leavesCollecting ⟨0⟩)) :=
    ⟨trivial, fun _ => ⟨trivial, fun _ => ⟨trivial, fun _ => ⟨trivial, fun _ => ⟨trivial, fun _ => ⟨trivial, fun _ =>
      ⟨trivial, fun _ => trivial⟩⟩⟩⟩⟩⟩⟩
  have hlast : TemporariesLast (.scripted lendingScript) ⟨0⟩ := temporaries_last hhost
  constructor
  · have hadded : ((lendingWorld 10).stock? ⟨0⟩).any (fun x => decide (x.pool.IsTemporary ⟨1⟩)) = true := by decide +kernel
    obtain ⟨x, hx, htemporary⟩ := (Option.any_eq_true _ _).1 hadded
    have hmoment : ∀ fuel, (lendingProgram.run (.scripted lendingScript) (enter (.scripted lendingScript) 4) .outside
        (.initial .drop ()) fuel).world = lendingWorld fuel := fun _ => rfl
    obtain ⟨-, es, hes, -, hspared⟩ := hlast.spared hprogram 4 .drop () (by decide) (hmoment 10) (hmoment 14)
    -- the inner call begins in between, and none ends
    have hsince : (lendingWorld 14).events.drop (lendingWorld 10).events.length = [.entered ⟨0⟩ ⟨0⟩] := by decide +kernel
    rw [hes, List.drop_left] at hsince
    have hdepth : (lendingWorld 10).execDepth ⟨0⟩ = 1 := by decide +kernel
    have hflight : InFlight ⟨0⟩ ((lendingWorld 10).execDepth ⟨0⟩) es := by
      rw [hdepth, hsince]
      decide
    exact ⟨by decide +kernel, hspared hflight ⟨1⟩ (by simp [hsince]) ⟨x, hx, of_decide_eq_true htemporary⟩⟩
  · have hreturns : (framed (.scripted lendingScript) (enter (.scripted lendingScript) 4) ⟨0⟩ ⟨0⟩ (some 0) 0 .outside
        (lendingWorld 6) 9).done?.any (fun rw => (rw.2.stock? ⟨0⟩).any fun y =>
          !y.pool.contains ⟨1⟩ && y.pool.contains ⟨2⟩ && decide (y.pool.slots.size = 2)) = true := by decide +kernel
    have hinside : (openFrame ⟨0⟩ ⟨0⟩ (lendingWorld 6)).any (fun opened =>
        ((passOn (enter (.scripted lendingScript) 4) ⟨0⟩ ⟨0⟩ (some 0) 0 >>=
          settle (.scripted lendingScript) (enter (.scripted lendingScript) 4) ⟨0⟩ ⟨0⟩) .outside opened.2 9).done?.any
            fun rw => (rw.2.stock? ⟨0⟩).any fun x =>
              decide (x.pool.IsTemporary ⟨1⟩) && x.pool.contains ⟨2⟩) = true := by decide +kernel
    obtain ⟨r, w', left, hr, hpool⟩ := Outcome.exists_done hreturns
    obtain ⟨-, w₀, w₁, x, y, hopen, hrun, -, -, hx, hy, hcollected, -⟩ := hlast.returns 4 hr
    -- the world in which the frame is closed is the one that was looked at
    rw [hopen, Option.any_some, hrun] at hinside
    have hbefore : (w₁.stock? ⟨0⟩).any (fun x => decide (x.pool.IsTemporary ⟨1⟩) && x.pool.contains ⟨2⟩) = true := hinside
    rw [hx, Option.any_some, Bool.and_eq_true, decide_eq_true_eq] at hbefore
    rw [show (r, w').2.stock? ⟨0⟩ = some y from hy, Option.any_some, Bool.and_eq_true, Bool.and_eq_true,
      decide_eq_true_eq, Bool.not_eq_true'] at hpool
    refine ⟨r, w₀, w₁, w', left, x, y, hr, hopen, hrun, hx, hbefore.1, hbefore.2, hy, hcollected (by decide +kernel) ?_,
      hpool.1.1, hpool.1.2⟩
    rw [hpool.2, Pool.mostStrings]
    omega

end Machine

end Interpose

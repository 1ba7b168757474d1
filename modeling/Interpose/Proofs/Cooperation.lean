import Interpose.Proofs.CallDepth
import Interpose.Proofs.HandlerRequests
import Interpose.Proofs.StackedRuns
import Interpose.Proofs.SteadyRuns

/-!
# Cooperation of stacked hook layers

Any number of hook layers that are made and installed one after another share one table, and none of them knows of the
others. Nevertheless each execute call goes through all of them and gets a frame from each; also calls that natives make
do, since all layers have put their hooks back by then. And when a call is over each layer has put back what it found: the
hooks are in place, as many calls are counted as before, every instance has its own callback again, and its frames are
those it had, with what was asked for outside of its own calls in the innermost one.

Main statement: `Machine.cooperates_stack`.
-/

namespace Interpose

open World

variable {σ α : Type}

/-- What is used by a program that may do less. -/
theorem Program.Uses.operations {allowed : Program.Allowed σ} {act : Operation → Prop} (h : ∀ o, allowed.act o → act o)
    {p : Program σ α} (hp : p.Uses allowed) : p.Uses (.operations act) := by
  induction p with
  | done a => trivial
  | look next ih => exact ⟨trivial, fun w => ih w (hp.2 w)⟩
  | remember change next ih => exact ⟨trivial, ih hp.2⟩
  | act o next ih => exact ⟨h o hp.1, fun r => ih r (hp.2 r)⟩
  | exec i slot index next ih => exact ⟨trivial, fun r => ih r (hp.2 r)⟩
  | call i index params next ih => exact ⟨trivial, fun r => ih r (hp.2 r)⟩

theorem Host.Uses.operations {host : Host σ} {script : InstanceId → Program.Allowed σ} {other : Program.Allowed σ}
    {act : Operation → Prop} (h : host.Uses script other) (hscript : ∀ i o, (script i).act o → act o)
    (hother : ∀ o, other.act o → act o) : host.UsesOnly (.operations act) where
  script code i := (h.script code i).operations (hscript i)
  native code i params := (h.native code i params).operations hother
  callback code i index params := (h.callback code i index params).operations hother
  invoke k id i slot := (h.invoke k id i slot).operations hother
  detach k i marker := (h.detach k i marker).operations hother

/-! ## Nothing is forgotten -/

/-- An entry of the journal that tells that an instance was forgotten. -/
def Event.unloads : Event → Bool
  | .unloaded _ _ _ => true
  | _ => false

/-- The journal is only written to, and does not tell that an instance was forgotten. -/
def World.Remembers (w w' : World σ) : Prop :=
  ∃ es, w'.events = w.events ++ es ∧ ∀ e ∈ es, e.unloads = false

namespace Act

theorem remembers_of_events {w w' : World σ} (h : w'.events = w.events) : Remembers w w' :=
  ⟨[], by rw [h, List.append_nil], by simp⟩

theorem remembers_record (w : World σ) {e : Event} (he : e.unloads = false) : Remembers w (w.record e) :=
  ⟨[e], events_record w e, by simpa using he⟩

theorem track_remembers : Track (Remembers : World σ → World σ → Prop) where
  refl w := remembers_of_events rfl
  trans := by
    rintro u v w ⟨es, he, hes⟩ ⟨es', he', hes'⟩
    refine ⟨es ++ es', by rw [he', he, List.append_assoc], fun e hm => ?_⟩
    rcases List.mem_append.1 hm with hm | hm
    · exact hes e hm
    · exact hes' e hm

theorem remembers_onSubsystem (k : SubsystemId) (f : Subsystem → α × Subsystem) :
    (onSubsystem k f : Act σ α).Keeps Remembers :=
  fun _ _ _ h => remembers_of_events (events_onSubsystem h)

theorem aloof_remembers : Aloof (Remembers : World σ → World σ → Prop) where
  toMild := .of_quiet track_remembers fun h => by
    obtain ⟨es, he, hes⟩ := h.journal
    refine ⟨es, he, fun e hm => ?_⟩
    have := hes e hm
    cases e <;> first | rfl | cases this
  putInstance _ _ := remembers_of_events rfl
  setCallbacks _ _ := remembers_of_events rfl
  setHolds _ _ := remembers_of_events rfl
  execHook k f := fun _ _ _ h => remembers_of_events (callbacks_onMount (k := k) h).2.2
  callbackLost w _ := remembers_record w rfl

theorem framing_remembers : Framing (Remembers : World σ → World σ → Prop) where
  track := track_remembers
  setContexts _ _ := remembers_of_events rfl
  setDepth _ _ := remembers_of_events rfl
  collect k := remembers_onSubsystem k _
  entered w _ _ := remembers_record w rfl
  left w _ _ := remembers_record w rfl
  popWithoutFrame w _ := remembers_record w rfl

end Act

theorem Operation.remembers_perform (ids : CallbackIds σ) (resume : Resume σ) {o : Operation}
    (h : o.leavesHooks = true) : (o.perform ids resume).Keeps World.Remembers :=
  keeps_of_leavesHooks Act.aloof_remembers.toMild Act.framing_remembers (fun w _ => Act.remembers_record w rfl)
    (fun w e he => Act.remembers_record w (by cases e <;> first | rfl | cases he)) ids resume h

namespace Machine

/-- Where host code leaves hooks alone, no instance is forgotten in a call. -/
theorem remembers_enter {host : Host σ} (hhost : host.UsesOnly (.operations fun o => o.leavesHooks = true))
    (depth : Nat) (c : Call) : (enter host depth c).Flows Remembers := by
  have C := composes_flows (σ := σ) Act.track_remembers
  have G : Regime host Remembers fun _ r => Run.Flows Remembers r := by
    have hperform : ∀ o : Operation, o.leavesHooks = true → (o.perform host.callbackIds host.resume).Keeps Remembers :=
      fun o ho => Operation.remembers_perform _ _ ho
    refine C.regime Act.aloof_remembers hperform hhost (fun w e he => ?_)
      (fun k i task result => hperform (.requestAwait k i task result) rfl)
      (fun k i marker result => hperform (.requestDetach k i marker result) rfl) fun k i h => ?_
    · exact Act.remembers_record w (by cases e <;> first | rfl | cases he)
    · refine C.bind (C.act (keeps_openFrame Act.framing_remembers k i)) fun _ => C.bind h fun a => ?_
      exact C.bind (C.act (keeps_closeFrame Act.framing_remembers k i)) fun _ => C.pure a
  exact G.enter depth c

/-! ## Frames from all layers -/

section

variable {n m : Nat} {i : InstanceId} {own : InstanceId → Option Callback} {w w' : World σ}

/-- A call that was given frames by the first `m` layers. -/
structure Framed (m : Nat) (i : InstanceId) (w w' : World σ) : Prop where
  frames : ∀ l j, w'.frames ⟨l⟩ j = if l < m ∧ j = i then .fresh :: w.frames ⟨l⟩ j else w.frames ⟨l⟩ j
  execDepth : ∀ l, w'.execDepth ⟨l⟩ = if l < m then w.execDepth ⟨l⟩ + 1 else w.execDepth ⟨l⟩

/-- What opening a call does to the frames of all layers. -/
theorem frames_openCall_all (h : openCall ⟨m⟩ i w = some ((), w')) :
    (∀ l j, w'.frames ⟨l⟩ j = if l = m ∧ j = i then .fresh :: w.frames ⟨l⟩ j else w.frames ⟨l⟩ j) ∧
      ∀ l, w'.execDepth ⟨l⟩ = if l = m then w.execDepth ⟨l⟩ + 1 else w.execDepth ⟨l⟩ := by
  obtain ⟨⟨u, w₁⟩, h₁, h⟩ := Option.bind_eq_some_iff.1 h
  have hstill : ∀ l, FramesStill l w w₁ := fun l => Act.still_onSubsystem (fun _ => rfl) (fun _ => rfl) h₁
  refine ⟨fun l j => ?_, fun l => ?_⟩
  · rw [frames_openFrame h, (hstill ⟨l⟩).frames]
    simp only [SubsystemId.mk.injEq, eq_comm]
  · rw [(tells_openFrame h).2, (hstill ⟨l⟩).execDepth]
    simp only [SubsystemId.mk.injEq]

/-- The call is given a frame by the next layer, and after that by those below it. -/
theorem Framed.succ {w₁ w₂ : World σ} (hopen : openCall ⟨m⟩ i w = some ((), w₁)) (hstill : ∀ l, FramesStill l w₁ w₂)
    (h : Framed m i w₂ w') : Framed (m + 1) i w w' := by
  obtain ⟨hframes, hdepth⟩ := frames_openCall_all hopen
  refine ⟨fun l j => ?_, fun l => ?_⟩
  · rw [h.frames, (hstill ⟨l⟩).frames, hframes]
    by_cases hl : l = m
    · subst hl
      simp
    · have hlt : l < m + 1 ↔ l < m := by omega
      simp [hl, hlt]
  · rw [h.execDepth, (hstill ⟨l⟩).execDepth, hdepth]
    by_cases hl : l = m
    · subst hl
      simp
    · have hlt : l < m + 1 ↔ l < m := by omega
      simp [hl, hlt]

theorem stands_openCall (k : SubsystemId) (i : InstanceId) : (openCall k i : Act σ Unit).Keeps Stands :=
  .bind Act.track_stands (Act.stands_onSubsystem (fun _ => rfl) fun _ => rfl) fun _ => keeps_openFrame Act.framing_stands k i

/-- The last layer in place passes a call of an instance that is there on to the one below. -/
theorem passOn_eq (hm : m < n) (hw : Descended n (m + 1) i own w) (hthere : (w.instance? i).isSome)
    (hfresh : ∃ f fs, w.frames ⟨m⟩ i = f :: fs ∧ f.reason = .none) (slot : Option Cell) (index : Cell) :
    ∃ own' w₂, Descended n m i own' w₂ ∧ (∀ l, FramesStill l w w₂) ∧ ∃ rest, ∀ (calls : Calls σ) d fuel,
      passOn calls ⟨m⟩ i slot index d w fuel = (calls (.exec i slot index) >>= rest) d w₂ fuel := by
  obtain ⟨s, hs, hattached⟩ := hw.stacked.attached hm (Nat.lt_succ_self m)
  -- the instance and the layer are there, so the callback can be swapped and the hook be taken
  obtain ⟨a, ha⟩ := Option.isSome_iff_exists.1 hthere
  obtain ⟨w₁, hswap, -⟩ := Act.swapCallback_there ha hs (.intercept ⟨m⟩)
  have hstill₁ : ∀ l, FramesStill l w w₁ := fun l => Act.still_swapCallback ⟨m⟩ i _ hswap
  obtain ⟨s₁, hs₁⟩ := Option.isSome_iff_exists.1 ((hstill₁ ⟨m⟩).persists.layers ⟨m⟩ (by rw [hs]; rfl))
  obtain ⟨took, w₂, hborrow⟩ : ∃ took w₂, Act.borrow ⟨m⟩ .exec w₁ = some (took, w₂) :=
    ⟨_, _, congrArg (Option.map _) hs₁⟩
  obtain ⟨htook, own', -, hw₂⟩ := hw.down hm hfresh hswap hborrow
  subst htook
  refine ⟨own', w₂, hw₂, fun l => (hstill₁ l).trans (Act.still_onMount ⟨m⟩ .exec _ hborrow), fun r => do
    Run.act (Act.giveBack ⟨m⟩ .exec true)
    let _ ← Run.act (Act.restoreCallback ⟨m⟩ i)
    pure r, fun calls d fuel => ?_⟩
  exact passOn_of_attached calls hs hattached hswap hborrow slot index d fuel

/-- A call of a public index of an instance that is there gets a frame from each layer in place, and then reaches the
machine's own entry. -/
theorem reaches_plainExec (host : Host σ) (depth : Nat) {index : Cell} (hindex : ExecIndex.IsPublic index)
    (slot : Option Cell) (hm : m ≤ n) (hw : Descended n m i own w) (hthere : (w.instance? i).isSome) :
    ∃ w₀, Framed m i w w₀ ∧ ∃ rest, ∀ d fuel, enter host (m + 1 + depth) (.exec i slot index) d w fuel =
      (plainExec host (enter host depth) i slot index >>= rest) .machine w₀ fuel := by
  -- by induction on the layers in place: the last one opens a frame, takes its hook out, and leaves the call to the others
  induction m generalizing own w with
  | zero =>
    refine ⟨w, ⟨fun l j => (if_neg fun h => nomatch h.1).symm, fun l => (if_neg nofun).symm⟩, pure, fun d fuel => ?_⟩
    rw [Nat.zero_add, Nat.add_comm, bind_pure]
    exact enter_of_plain (hw.stacked.entry hm) depth i slot index d fuel
  | succ m ih =>
    obtain ⟨s, hs, -⟩ := hw.stacked.layer hm
    obtain ⟨u, w₁, hopen, -⟩ := answers_openCall (i := i) w (Option.isSome_iff_exists.2 ⟨s, hs⟩)
    obtain ⟨hframes₁, -⟩ := frames_openCall_all hopen
    have hw₁ : Descended n (m + 1) i own w₁ := by
      refine hw.of_stands (stands_openCall ⟨m⟩ i hopen) fun l hl _ => ?_
      rw [hframes₁, if_neg fun h => by omega]
    have hthere₁ := (tells_openCall hopen).1.persists.instances i hthere
    obtain ⟨own₂, w₂, hw₂, hstill₂, rest₂, hpassed⟩ :=
      passOn_eq hm hw₁ hthere₁ ⟨.fresh, _, frames_openCall hopen, rfl⟩ slot index
    obtain ⟨w₀, hframed, rest, hreached⟩ := ih (Nat.le_of_lt hm) hw₂ ((hstill₂ ⟨m⟩).persists.instances i hthere₁)
    refine ⟨w₀, hframed.succ hopen hstill₂, fun r => rest r >>= fun r => rest₂ r >>= fun r => do
      let r ← settle host (enter host (m + 1 + depth)) ⟨m⟩ i r
      Run.act (closeCall ⟨m⟩ i)
      pure r, fun d fuel => ?_⟩
    have hdepth : m + 1 + 1 + depth = m + 1 + depth + 1 := by omega
    rw [hdepth]
    generalize hcalls : enter host (m + 1 + depth) = calls at hreached ⊢
    have hcall : (calls (.exec i slot index) >>= rest₂) .machine w₂ fuel =
        (plainExec host (enter host depth) i slot index >>= rest >>= rest₂) .machine w₀ fuel :=
      Run.bind_congr (hreached .machine fuel) rest₂
    calc enter host (m + 1 + depth + 1) (.exec i slot index) d w fuel
      _ = intercepted host calls ⟨m⟩ i slot index .machine w fuel := by
        rw [enter_of_detour (hw.stacked.entry hm), hcalls]
      _ = inFrame host calls ⟨m⟩ i slot index .machine w₁ fuel := by
        rw [intercepted_public hindex, Run.bind_of_done (Run.act_of_some hopen .machine fuel)]
      _ = (calls (.exec i slot index) >>= rest₂ >>= fun r => do
            let r ← settle host calls ⟨m⟩ i r
            Run.act (closeCall ⟨m⟩ i)
            pure r) .machine w₂ fuel := Run.bind_congr (hpassed calls .machine fuel) _
      _ = _ := by
        rw [Run.bind_congr hcall]
        simp only [bind_assoc]

end

/-! ## When a call is over -/

/-- What is as before when an execute call is over. -/
structure GivesBack (host : Host σ) (n : Nat) (w w' : World σ) : Prop where
  /-- All hooks are in place, and the detour of the last layer is in the slot. -/
  stacked : Layered n n w'
  /-- As many calls are counted. -/
  execDepth : ∀ k, w'.execDepth k = w.execDepth k
  /-- The same callbacks are kept. -/
  saved : ∀ k j, w'.saved? k j = w.saved? k j
  /-- Every instance has the callback that it had. -/
  callbacks : ∀ j c, w.callback? j = some c → w'.callback? j = some c
  /-- Where host code leaves frames to their layer, every instance has those that it had; into the innermost one is
  written what was asked for the instance outside of the calls of it that were begun meanwhile. -/
  frames : ∀ k, host.UsesOnly (.operations (Operation.leavesFrames k)) → ∃ es, w'.events = w.events ++ es ∧
    ∀ j, w'.frames k j = (w.frames k j).modifyHead fun f => (ownRequests k j 0 es).foldl Event.requested f

section

variable {n : Nat} {own : InstanceId → Option Callback} {w w' : World σ}

/-- No callback is kept in a world at rest. -/
theorem saved?_of_atRest (h : AtRest n own w) (k : SubsystemId) (j : InstanceId) : w.saved? k j = none := by
  by_cases hk : k.index < n
  · have hsaved := (h.diverted j).saved k.index hk j
    rwa [if_neg fun hj => absurd hk (Nat.not_lt.2 hj.2)] at hsaved
  · -- there is no such layer
    have hstation := h.stacked.stations k
    rw [if_neg hk] at hstation
    rw [World.saved?, Option.map_eq_none_iff.1 hstation]
    rfl

/-- In a world at rest every instance has a callback of its own. -/
theorem atRest_now (h : AtRest n own w) : AtRest n w.callback? w := by
  refine ⟨h.stacked, fun i => ⟨fun j c hc => ?_, (h.diverted i).proper, fun l hl j => ?_,
    fun hn => absurd hn (Nat.lt_irrefl n), fun l hn hl => absurd hl (Nat.not_lt.2 hn)⟩⟩
  · rw [Callback.divert_self, ite_self, hc]
  · rw [saved?_of_atRest h, if_neg fun hj => absurd hl (Nat.not_lt.2 hj.2)]

theorem givesBack {host : Host σ} (hhost : host.Uses .ofScript (.operations fun o => o.leavesHooks = true))
    (h : AtRest n own w) {i : InstanceId} {slot : Option Cell} {index : Cell} {depth : Nat} {d : Activity}
    {fuel left : Nat} {r : ExecReply} (hdone : enter host depth (.exec i slot index) d w fuel = .done r w' left) :
    GivesBack host n w w' := by
  have hclimbs := (climbs_enter (n := n) hhost depth).rests i slot index w.callback? d w (atRest_now h)
  have hrest : AtRest n w.callback? w' := hclimbs.of_done hdone
  refine ⟨hrest.stacked, fun k => ?_, fun k j => ?_, fun j c hc => ?_, fun k hframes => ?_⟩
  · -- whatever is called is counted until it is over, and no longer
    obtain ⟨-, -, -, hdepth⟩ := (counts_enter (k := k) host depth (.exec i slot index) d w).of_done hdone
    exact hdepth
  · rw [saved?_of_atRest h, saved?_of_atRest hrest]
  · have := (hrest.diverted j).callbacks j c hc
    rwa [if_pos rfl, Callback.divert_self] at this
  · obtain ⟨es, htells, hnested, -⟩ := (keepsFrames_enter hframes depth (.exec i slot index) d w).of_done hdone
    have hleaves : host.UsesOnly (.operations fun o => o.leavesHooks = true) :=
      hhost.operations (fun _ _ ho => Operation.leavesHooks_of_isQuiet ho) fun _ ho => ho
    obtain ⟨es', hes', hremembers⟩ := ((remembers_enter hleaves depth (.exec i slot index)).keeps d w).of_done hdone
    -- both tell of the same entries
    obtain rfl : es = es' := List.append_cancel_left (htells.journal.symm.trans hes')
    refine ⟨es, hes', fun j => htells.requested (hnested j) ?_⟩
    rintro ⟨kept, hkept⟩
    cases hremembers _ hkept

end

/-! ## Every moment of a run -/

/-- What `n` layers do together for the execute calls that begin in a world. -/
structure Cooperates (host : Host σ) (n : Nat) (w : World σ) : Prop where
  /-- All hooks are in place, and the detour of the last layer is in the slot. -/
  stacked : Layered n n w
  /-- A call of a public index gets a frame from each layer before anything else happens, and is counted by each. -/
  framed : ∀ {i}, (w.instance? i).isSome → ∀ {index}, ExecIndex.IsPublic index → ∀ slot depth,
    ∃ w₀, Framed n i w w₀ ∧ ∃ rest, ∀ d fuel, enter host (n + 1 + depth) (.exec i slot index) d w fuel =
      (plainExec host (enter host depth) i slot index >>= rest) .machine w₀ fuel
  /-- When a call is over, well or not, everything is as before. -/
  returns : ∀ {i slot index depth d fuel r w' left},
    enter host depth (.exec i slot index) d w fuel = .done r w' left → GivesBack host n w w'

theorem atRest_initial {instances : Array Instance} (h : ∀ a ∈ instances, ∀ k, a.callback ≠ .intercept k)
    (resumer : Resumer) (state : σ) : ∃ own, AtRest 0 own { World.initial resumer state with instances } := by
  refine ⟨fun _ => none, ⟨rfl, fun k => (if_neg (Nat.not_lt_zero _)).symm⟩, fun i => ⟨nofun, fun j k hj => ?_, nofun, nofun,
    nofun⟩⟩
  obtain ⟨a, ha, hcallback⟩ := Option.map_eq_some_iff.1 hj
  exact absurd hcallback (h a (Array.mem_of_getElem? ha) k)

/-- Stacked hook layers cooperate. Let any number of layers without an event source be made and installed one after
another, let scripts reach the host only through the natives that they call, and let host code leave hooks and callbacks
alone. Then at every moment of every run at which code other than that of scripts runs, in particular when a native
begins, all execute hooks are in place, each over the one before; every execute call of a public index that is made then
gets a frame from each layer; and when such a call is over, hooks, callbacks, counts and frames are as they were. -/
theorem cooperates_stack {host : Host σ} (hhost : host.Uses .ofScript (.operations fun o => o.leavesHooks = true))
    {p : Program σ α} (hp : p.Uses (.operations fun o => o.leavesHooks = true)) {instances : Array Instance}
    (hinstances : ∀ a ∈ instances, ∀ k, a.callback ≠ .intercept k) {resumer : Resumer} {state : σ}
    {layers : List (Config × Collaborators)} (hevents : ∀ l ∈ layers, l.2.events = .unsupported) {w₀ : World σ}
    (hstack : Act.stack layers { World.initial resumer state with instances } = some ((), w₀)) {fuel : Nat}
    {d : Activity} {w : World σ} (hmoment : p.runIn host fuel w₀ = .cut d w) (hd : d.mayExecute = true) :
    Cooperates host layers.length w := by
  obtain ⟨own, hinitial⟩ := atRest_initial hinstances resumer state
  have hstart : AtRest layers.length own w₀ := by
    have := hinitial.stack hevents hstack
    rwa [Nat.zero_add] at this
  have hruns : (p.run host (enter host fuel)).KeepsUp layers.length :=
    Program.keepsUp_run (climbs_enter hhost fuel) (fun _ h => h) hp
  have hw : AtRest layers.length own w := (hruns own .outside w₀ hstart).of_cut hmoment hd
  refine ⟨hw.stacked, fun {i} hthere {index} hindex slot depth => ?_, givesBack hhost hw⟩
  exact reaches_plainExec host depth hindex slot (Nat.le_refl _) (hw.descended i) hthere

/-- Loads a script whose first function calls a native that executes the second, and executes the first. -/
def layeredProgram : Program Unit ExecReply := do
  let i ← Program.perform (.newInstance 4)
  let _ ← Program.perform (.addFunction i "first" ⟨0⟩)
  let _ ← Program.perform (.addFunction i "second" ⟨1⟩)
  let _ ← Program.perform (.addNative i "native" ⟨0⟩)
  Program.executeInto i (some 0) 0

/-- Two hook layers with different collaborators. -/
def layerPair : List (Config × Collaborators) :=
  [(.standard, ⟨.host, .unsupported, .unsupported⟩), (.standard, ⟨.tasks, .host, .unsupported⟩)]

theorem cooperates_stack_native :
    ∃ w₀ w, Act.stack layerPair { World.initial .drop () with instances := #[] } = some ((), w₀) ∧
      layeredProgram.runIn reentrantHost 7 w₀ = .cut (.native ⟨0⟩ (.host ⟨0⟩)) w ∧ (w.instance? ⟨0⟩).isSome ∧
      Cooperates reentrantHost 2 w := by
  have hhost : reentrantHost.Uses .ofScript (.operations fun o => o.leavesHooks = true) := by
    refine ⟨fun code i => ?_, fun _ _ _ => ⟨trivial, fun _ => trivial⟩, fun _ _ _ _ => trivial, fun _ _ _ _ => trivial,
      fun _ _ _ => trivial⟩
    show Program.Uses _ (if code = ⟨0⟩ then _ else _)
    split
    · exact ⟨rfl, fun _ => trivial⟩
    · trivial
  have hprogram : layeredProgram.Uses (.operations fun o => o.leavesHooks = true) :=
    ⟨rfl, fun _ => ⟨rfl, fun _ => ⟨rfl, fun _ => ⟨rfl, fun _ => ⟨trivial, fun _ => trivial⟩⟩⟩⟩⟩
  have hreached : (Act.stack layerPair { World.initial .drop () with instances := #[] }).any (fun r =>
      (layeredProgram.runIn reentrantHost 7 r.2).cut?.any fun m =>
        decide (m.1 = .native ⟨0⟩ (.host ⟨0⟩)) && (m.2.instance? ⟨0⟩).isSome) = true := by decide +kernel
  obtain ⟨⟨_, w₀⟩, hstack, hreached⟩ := (Option.any_eq_true _ _).1 hreached
  obtain ⟨d, w, hmoment, hthere⟩ := Outcome.exists_cut hreached
  obtain ⟨hnative, hthere⟩ := Bool.and_eq_true_iff.1 hthere
  obtain rfl : d = .native ⟨0⟩ (.host ⟨0⟩) := of_decide_eq_true hnative
  exact ⟨w₀, w, hstack, hmoment, hthere,
    cooperates_stack hhost hprogram (by simp) (by decide) hstack hmoment rfl⟩

/-- The functions of a script call one native each. The first native pushes a frame by hand; the second executes the third
function of the first instance, whose native asks for the second instance to wait. -/
def meddlingHost : Host Unit :=
  { Host.scripted fun code i => .call i (.ofNat code.number) [] .done with
    native := fun code i _ =>
      if code = ⟨0⟩ then do
        let _ ← Program.perform (.pushFrame ⟨0⟩ i)
        .done (.ok 0)
      else if code = ⟨1⟩ then
        Program.execute ⟨0⟩ (.ofNat 2)
      else do
        let _ ← Program.perform (.requestAwait ⟨0⟩ ⟨1⟩ ⟨1⟩ (.ofNat 5))
        .done (.ok 0) }

/-- Loads the script twice. -/
def meddlingProgram : Program Unit Unit := do
  let load (i : InstanceId) : Program Unit Unit := do
    let _ ← Program.perform (.addFunction i "push" ⟨0⟩)
    let _ ← Program.perform (.addFunction i "nest" ⟨1⟩)
    let _ ← Program.perform (.addFunction i "ask" ⟨2⟩)
    let _ ← Program.perform (.addNative i "push" ⟨0⟩)
    let _ ← Program.perform (.addNative i "nest" ⟨1⟩)
    let _ ← Program.perform (.addNative i "ask" ⟨2⟩)
  load (← Program.perform (.newInstance 4))
  load (← Program.perform (.newInstance 4))

/-- A world with one hook layer in which the script is loaded. -/
def meddlingWorld : Option (World Unit) := do
  let (_, w) ← Act.stack [(.standard, ⟨.host, .unsupported, .unsupported⟩)] (World.initial .drop ())
  let (_, w) ← (meddlingProgram.runIn meddlingHost 20 w).done?
  pure w

/-- Three calls with one layer after which not all is as before: a native of the first pushed a frame by hand; in the
second something was asked for the instance that made the call; and before the third a callback was swapped by hand. -/
theorem cooperates_stack_meddling :
    meddlingHost.Uses .ofScript (.operations fun o => o.leavesHooks = true) ∧ ∃ w, meddlingWorld = some w ∧
      w.entry .exec = .stack 1 ∧
      (∃ r w' left, enter meddlingHost 9 (.exec ⟨0⟩ none 0) .outside w 9 = .done r w' left ∧
        w.frames ⟨0⟩ ⟨0⟩ = [] ∧ w'.frames ⟨0⟩ ⟨0⟩ = [.fresh]) ∧
      (∃ v r v' left, enter meddlingHost 9 (.exec ⟨1⟩ none 1) .outside w 3 = .cut (.native ⟨1⟩ (.host ⟨1⟩)) v ∧
        enter meddlingHost 9 (.exec ⟨0⟩ (some 0) (.ofNat 2)) (.native ⟨1⟩ (.host ⟨1⟩)) v 9 = .done r v' left ∧
        v.frames ⟨0⟩ ⟨1⟩ = [.fresh] ∧ v'.frames ⟨0⟩ ⟨1⟩ = [⟨.await, .ofNat 5, some ⟨1⟩, ⟨0⟩⟩]) ∧
      ∃ v r v' left, Act.swapCallback ⟨0⟩ ⟨0⟩ (.host ⟨7⟩) w = some ((), v) ∧
        enter meddlingHost 9 (.exec ⟨0⟩ none (.ofNat 2)) .outside v 9 = .done r v' left ∧
        v.callback? ⟨0⟩ = some (.host ⟨7⟩) ∧ v'.callback? ⟨0⟩ = some .standard ∧
        v.saved? ⟨0⟩ ⟨0⟩ = some .standard ∧ v'.saved? ⟨0⟩ ⟨0⟩ = none := by
  have hhost : meddlingHost.Uses .ofScript (.operations fun o => o.leavesHooks = true) := by
    refine ⟨fun code i => ⟨rfl, fun _ => trivial⟩, fun code i params => ?_, fun _ _ _ _ => trivial,
      fun _ _ _ _ => trivial, fun _ _ _ => trivial⟩
    show Program.Uses _ (ite _ _ (ite _ _ _))
    split
    · exact ⟨rfl, fun _ => trivial⟩
    · split
      · exact ⟨trivial, fun _ => trivial⟩
      · exact ⟨rfl, fun _ => trivial⟩
  have hworld : meddlingWorld.any (fun w => decide (w.entry .exec = .stack 1) &&
      ((enter meddlingHost 9 (.exec ⟨0⟩ none 0) .outside w 9).done?.any fun r =>
        decide (w.frames ⟨0⟩ ⟨0⟩ = [] ∧ r.2.frames ⟨0⟩ ⟨0⟩ = [.fresh])) &&
      ((enter meddlingHost 9 (.exec ⟨1⟩ none 1) .outside w 3).cut?.any fun m =>
        (enter meddlingHost 9 (.exec ⟨0⟩ (some 0) (.ofNat 2)) m.1 m.2 9).done?.any fun r =>
          decide (m.1 = .native ⟨1⟩ (.host ⟨1⟩) ∧ m.2.frames ⟨0⟩ ⟨1⟩ = [.fresh] ∧
            r.2.frames ⟨0⟩ ⟨1⟩ = [⟨.await, .ofNat 5, some ⟨1⟩, ⟨0⟩⟩])) &&
      ((Act.swapCallback ⟨0⟩ ⟨0⟩ (.host ⟨7⟩) w).any fun v =>
        (enter meddlingHost 9 (.exec ⟨0⟩ none (.ofNat 2)) .outside v.2 9).done?.any fun r =>
          decide (v.2.callback? ⟨0⟩ = some (.host ⟨7⟩) ∧ r.2.callback? ⟨0⟩ = some .standard ∧
            v.2.saved? ⟨0⟩ ⟨0⟩ = some .standard ∧ r.2.saved? ⟨0⟩ ⟨0⟩ = none))) = true := by
    decide +kernel
  obtain ⟨w, hw, hworld⟩ := (Option.any_eq_true _ _).1 hworld
  simp only [Bool.and_eq_true] at hworld
  obtain ⟨⟨⟨hentry, hpush⟩, hnest⟩, hswap⟩ := hworld
  obtain ⟨r, w', left, hpush, hframes⟩ := Outcome.exists_done hpush
  obtain ⟨d, v, hmoment, hnest⟩ := Outcome.exists_cut hnest
  obtain ⟨r₁, v', left₁, hnest, hthere⟩ := Outcome.exists_done hnest
  obtain ⟨rfl, hasked⟩ := of_decide_eq_true hthere
  obtain ⟨⟨_, u⟩, hswap, hidle⟩ := (Option.any_eq_true _ _).1 hswap
  obtain ⟨r₂, u', left₂, hidle, hcallbacks⟩ := Outcome.exists_done hidle
  exact ⟨hhost, w, hw, of_decide_eq_true hentry, ⟨r, w', left, hpush, of_decide_eq_true hframes⟩,
    ⟨v, r₁, v', left₁, hmoment, hnest, hasked⟩, u, r₂, u', left₂, hswap, hidle, of_decide_eq_true hcallbacks⟩

end Machine

end Interpose

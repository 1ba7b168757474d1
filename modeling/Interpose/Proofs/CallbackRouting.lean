import Interpose.Proofs.PooledReading
import Interpose.Proofs.SoundRuns
import Interpose.Proofs.Stages

/-!
# Where the name of a callback leads

A function is executed by name in two steps: the name is looked up, and the index that is found is executed. For the name
of a synthetic callback the layer answers the first step with an index that no function has, and recognises that index in
the second. The handler may then name a function to be run instead; that name is looked up past the layer, so it is never
taken for a callback again, not even if it is the same name.

What a handler does before it is over is its own affair. But it makes no second layer, so when it is over the two hooks
are sound, and passing them leads to the machine's own entries.

Main statement: `Machine.routesNames_runIn`, for every moment of a run with one hook layer at which the two hooks are in their
slots.
-/

namespace Interpose

open World

variable {σ α : Type} {k : SubsystemId} {i : InstanceId} {name : String} {w : World σ} {s : Subsystem}

/-! ## Indices of callbacks -/

/-- What the machine's own entry answers for a name. -/
def Instance.lookup (a : Instance) (name : String) : Except Status Cell :=
  match (a.findFunction? name).bind Cell.ofNat? with
  | some index => .ok index
  | none => .error .notFound

namespace ExecIndex

/-- The number of a callback survives being folded into an index, as long as it can be. -/
theorem callbackIndex_of_le {id : Nat} (h : id ≤ 2147483645) :
    ∃ index, Act.callbackIndex id = .ok index ∧ decode index = .synthetic id := by
  cases hencode : (synthetic id).encode with
  | none =>
    have := Cell.ofInt?_eq_none.1 hencode
    omega
  | some index =>
    refine ⟨index, ?_, decode_encode hencode⟩
    unfold Act.callbackIndex
    rw [hencode]

theorem callbackIndex_of_lt {id : Nat} (h : 2147483645 < id) : Act.callbackIndex id = .error .index := by
  have hencode : (synthetic id).encode = none := Cell.ofInt?_eq_none.2 (by omega)
  unfold Act.callbackIndex
  rw [hencode]

/-- Functions, the main function and the continuation have the indices from -2 up. -/
theorem isPublic_of_le {index : Cell} (h : -2 ≤ index.val) : IsPublic index := by
  intro id
  unfold decode
  split
  · nofun
  split
  · nofun
  split
  · nofun
  · omega

/-- The position of a function survives being looked up. -/
theorem decode_ofNat? {position : Nat} {index : Cell} (h : Cell.ofNat? position = some index) :
    decode index = .function position :=
  decode_encode (x := .function position) h

end ExecIndex

/-! ## Looking names up -/

/-- The callback that a name belongs to, according to the event source of a layer. -/
def World.callbackId? (w : World σ) (host : Host σ) (k : SubsystemId) (i : InstanceId) (name : String) : Option Nat :=
  (w.subsystem? k).bind fun s =>
    match s.collaborators.events with
    | .unsupported => none
    | .host => host.callbackIds w.host k i name

namespace Act

theorem callbackId_eq (host : Host σ) (i : InstanceId) (name : String) (hs : w.subsystem? k = some s) :
    callbackId host.callbackIds k i name w =
      some (w.callbackId? host k i name, w.record (.lookedUp k i name (w.callbackId? host k i name))) := by
  have hget : getSubsystem k w = some (s, w) := congrArg (Option.map _) hs
  unfold callbackId World.callbackId?
  rw [bind_of_some hget, hs, Option.bind_some]
  cases s.collaborators.events <;> rfl

/-- The name of a callback is looked up nowhere else. -/
theorem lookupWithin_of_some {ids : CallbackIds σ} {w' : World σ} {beyond : Entry} {id : Nat}
    (hentry : w.entry .lookup = .detour k beyond) (hask : callbackId ids k i name w = some (some id, w')) (n : Nat) :
    lookupWithin ids i name (n + 1) w = some (callbackIndex id, w') := by
  unfold lookupWithin
  rw [bind_of_some (get_eq w), hentry]
  show (callbackId ids k i name >>= _) w = _
  rw [bind_of_some hask]
  rfl

theorem lookup_of_some {host : Host σ} {id : Nat} (h : Served k .lookup s w) (hid : w.callbackId? host k i name = some id) :
    lookup host.callbackIds i name w = some (callbackIndex id, w.record (.lookedUp k i name (some id))) := by
  have hask := callbackId_eq host i name h.layer
  rw [hid] at hask
  unfold lookup
  rw [bind_of_some (get_eq w)]
  exact lookupWithin_of_some h.entry hask _

/-- Where the lookup export leads to the machine's own entry, the functions of the instance are looked through. -/
theorem lookupWithin_plain (ids : CallbackIds σ) (hentry : w.entry .lookup = .plain) (n : Nat) :
    lookupWithin ids i name (n + 1) w = (w.instance? i).map fun a => (a.lookup name, w) := by
  unfold lookupWithin
  rw [bind_of_some (get_eq w), hentry]
  show Option.bind ((w.instance? i).map _) _ = _
  cases w.instance? i with
  | none => rfl
  | some a =>
    show (match (a.findFunction? name).bind Cell.ofNat? with | some index => _ | none => _ : Act σ _) w =
      some (a.lookup name, w)
    unfold Instance.lookup
    cases (a.findFunction? name).bind Cell.ofNat? <;> rfl

/-- A name that belongs to no callback is looked up past the layer. -/
theorem lookup_past (ids : CallbackIds σ) {a : Instance} {e : Event} (h : Served k .lookup s w)
    (hask : callbackId ids k i name w = some (none, w.record e)) (ha : w.instance? i = some a) :
    lookup ids i name w = some (a.lookup name, w.record e) := by
  obtain ⟨n, hsize⟩ := size_eq h.layer
  have hserved : Served k .lookup s (w.record e) := ⟨h.layer, h.alive, h.sound, h.attached⟩
  have hplain : lookupWithin ids i name (n + 1) hserved.out = some (a.lookup name, hserved.out) :=
    (lookupWithin_plain ids hserved.entry_out n).trans (congrArg (Option.map _) ha)
  unfold lookup
  rw [bind_of_some (get_eq w), hsize]
  unfold lookupWithin
  rw [bind_of_some (get_eq w), h.entry]
  show (callbackId ids k i name >>= _) w = _
  rw [bind_of_some hask]
  exact hserved.pastHook hplain

theorem lookup_of_none {host : Host σ} {a : Instance} (h : Served k .lookup s w)
    (hid : w.callbackId? host k i name = none) (ha : w.instance? i = some a) :
    lookup host.callbackIds i name w = some (a.lookup name, w.record (.lookedUp k i name none)) := by
  have hask := callbackId_eq host i name h.layer
  rw [hid] at hask
  exact lookup_past _ h hask ha

/-- Past a layer that is the only one, the machine's own entry is found, whether the hook is in its slot or not. -/
theorem lookupPast_eq (ids : CallbackIds σ) (name : String) {a : Instance} (hs : w.subsystem? k = some s)
    (hm : Mount.Sound k ⟨s.hooks.lookup, w.exports.lookup⟩) (ha : w.instance? i = some a) :
    lookupPast ids k i name w = some (a.lookup name, w) := by
  have hout : (w.remount k .lookup s (Mount.detach ⟨s.hooks.lookup, w.exports.lookup⟩).2).entry .lookup = .plain := by
    have hslot := hm.detach.1.slot
    rw [hm.detach.2] at hslot
    show (Mount.detach ⟨s.hooks.lookup, w.exports.lookup⟩).2.slot.effective _ = _
    rw [hslot]
    rfl
  exact pastHook_of_sound (x := .lookup) hs hm ((lookupWithin_plain ids hout _).trans (congrArg (Option.map _) ha))

end Act

/-! ## What is known of the layer -/

namespace World

/-- There is one hook layer, whose hooks are sound, wherever they are. -/
structure Guarded (k : SubsystemId) (w : World σ) : Prop where
  tended : ∃ actions, Tended k (fun _ => False) actions w
  sound : Sound k w

/-- There is one hook layer; its execute hook and its lookup hook are in their slots, and it is not gone. -/
structure Routing (k : SubsystemId) (w : World σ) : Prop extends Guarded k w where
  attached : ∃ s, w.subsystem? k = some s ∧ s.alive = true ∧ s.hooks.exec.attached = true ∧
    s.hooks.lookup.attached = true

theorem Guarded.lookup (h : Guarded k w) (hs : w.subsystem? k = some s) :
    Mount.Sound k ⟨s.hooks.lookup, w.exports.lookup⟩ := by
  obtain ⟨actions, ht⟩ := h.tended
  exact ((ht.of_subsystem? hs).1 .lookup nofun).1

theorem Routing.served (h : Routing k w) : ∃ s, Served k .lookup s w ∧ Served k .exec s w := by
  obtain ⟨s, hs, halive, hexec, hlookup⟩ := h.attached
  obtain ⟨t, hlayer, hsound⟩ := h.sound.hook
  rw [hs] at hlayer
  cases hlayer
  exact ⟨s, ⟨hs, halive, h.toGuarded.lookup hs, hlookup⟩, ⟨hs, halive, hsound, hexec⟩⟩

/-- The world in which the handler of a callback is called by name. -/
def asked (w : World σ) (k : SubsystemId) (i : InstanceId) (name : String) (id : Nat) : World σ :=
  (w.record (.lookedUp k i name (some id))).hold k (· + 1)

theorem Guarded.asked (h : Guarded k w) (hs : w.subsystem? k = some s) (i : InstanceId) (name : String) (id : Nat) :
    Guarded k (w.asked k i name id) ∧ (w.asked k i name id).events = w.events ++ [.lookedUp k i name (some id)] ∧
      (w.asked k i name id).instances = w.instances := by
  have hhold := hold_eq (w := w.record (.lookedUp k i name (some id))) (k := k) hs (· + 1)
  obtain ⟨actions, ht⟩ := h.tended
  have hrecord : Tends k w (w.record (.lookedUp k i name (some id))) := Act.tends_beside rfl rfl
  obtain ⟨later, ht⟩ := hrecord _ _ ht
  obtain ⟨later', ht⟩ := (Act.steady_tends k).hold k (· + 1) hhold _ _ ht
  have hcounted := Act.counted_onSubsystem hhold
  have hsound := (Act.hookKept_record (k := k) (w := w) (.lookedUp k i name (some id)) rfl).sound h.sound
  refine ⟨⟨⟨_, ht⟩, hsound.of_same hcounted.slot hcounted.hooks⟩, ?_, ?_⟩
  · exact hcounted.events.trans (events_record w _)
  · obtain ⟨t, -, eq⟩ := Option.map_eq_some_iff.1 hhold
    exact congrArg (fun p => p.2.instances) eq.symm

end World

/-! ## What is there while code runs -/

/-- Instances and layers stay, and the journal is only written to. -/
structure World.Continues (w w' : World σ) : Prop where
  persists : Persists w w'
  journal : ∃ es, w'.events = w.events ++ es

namespace Act

theorem track_continues : Track (Continues : World σ → World σ → Prop) where
  refl w := ⟨.refl w, [], (List.append_nil _).symm⟩
  trans := by
    rintro u v w ⟨hp, es, he⟩ ⟨hp', es', he'⟩
    exact ⟨hp.trans hp', es ++ es', by rw [he', he, List.append_assoc]⟩

theorem continues_instance {w : World σ} {i : InstanceId} {a : Instance} (ha : w.instance? i = some a) (b : Instance) :
    Continues w (w.setInstance i b) :=
  ⟨.setInstance ha b, [], (List.append_nil _).symm⟩

theorem continues_layer {w : World σ} {l : SubsystemId} {s : Subsystem} (hs : w.subsystem? l = some s) (t : Subsystem) :
    Continues w (w.setSubsystem l t) :=
  ⟨.setSubsystem hs t, [], (List.append_nil _).symm⟩

theorem continues_record (w : World σ) (e : Event) : Continues w (w.record e) :=
  ⟨⟨fun _ hk => hk, fun _ hi => hi⟩, [e], events_record w e⟩

/-- Nothing is changed but what has to do with neither instances, nor layers, nor the journal. -/
theorem continues_beside {w w' : World σ} (hi : w'.instances = w.instances) (hs : w'.subsystems = w.subsystems)
    (hj : w'.journal = w.journal) : Continues w w' := by
  refine ⟨⟨fun k hk => ?_, fun i hi' => ?_⟩, [], ?_⟩
  · unfold subsystem? at hk ⊢
    rwa [hs]
  · unfold instance? at hi' ⊢
    rwa [hi]
  · unfold events
    rw [hj, List.append_nil]

theorem continues_onMount (l : SubsystemId) (x : Export) (f : Mount → α × Mount) :
    (onMount l x f : Act σ α).Keeps Continues := by
  intro w a w' h
  obtain ⟨s, hs, eq⟩ := Option.map_eq_some_iff.1 h
  cases eq
  exact track_continues.trans (continues_layer hs _) (continues_beside rfl rfl rfl)

theorem continues_pool (l : SubsystemId) (f : Pool → α × Pool) : (onPool l f : Act σ α).Keeps Continues :=
  .onSubsystem fun _ _ hs => continues_layer hs _

theorem steady_continues : Steady (Continues : World σ → World σ → Prop) where
  track := track_continues
  setInstance ha _ := continues_instance ha _
  addInstance w a _ := by
    refine ⟨⟨fun _ hk => hk, fun i hi => ?_⟩, [], (List.append_nil _).symm⟩
    show (w.instances.push a)[i.index]?.isSome
    rw [Array.getElem?_push]
    split
    · rfl
    · exact hi
  setPool hs _ := continues_layer hs _
  removeString l id := by
    refine .bind track_continues (continues_pool l _) fun r => ?_
    cases r with
    | ok s => exact .bind track_continues (.record fun w => continues_record w _) fun _ => .pure track_continues _
    | error e => exact .pure track_continues _
  setRefArgs _ hs := continues_layer hs _
  tasks := .of_parts track_continues (fun _ _ => continues_beside rfl rfl rfl) (fun _ _ => continues_beside rfl rfl rfl)
    fun w e _ => continues_record w e
  setHost _ _ := continues_beside rfl rfl rfl
  tell w e _ := continues_record w e
  past _ hcall := .bind track_continues (continues_onMount ..) fun _ => .bind track_continues hcall fun _ =>
    .bind track_continues (continues_onMount ..) fun _ => .pure track_continues _
  setContexts _ hs := continues_layer hs _
  disown hs := continues_layer hs _
  toggle _ _ _ := continues_onMount ..
  asked w e _ := continues_record w e
  putInstance _ ha := continues_instance ha _
  setCallbacks _ hs := continues_layer hs _
  setHolds _ hs := continues_layer hs _
  execHook _ _ := continues_onMount ..
  callbackLost w _ := continues_record w _
  unloaded w _ _ _ := continues_record w _
  handsOver w e _ := continues_record w e

theorem counting_continues : Counting (Continues : World σ → World σ → Prop) where
  toUpkeep := steady_continues.toUpkeep
  setDepth _ hs := continues_layer hs _
  entered w _ _ := continues_record w _
  left w _ _ := continues_record w _
  collect l := continues_pool l _

end Act

namespace Machine

variable {host : Host σ} (hhost : host.UsesOnly (.operations Operation.keepsLayers)) {depth : Nat}
include hhost

/-- What is steady, and holds across counting calls, is a discipline. -/
theorem disciplineOfSteady {R : World σ → World σ → Prop} (S : Act.Steady R) (C : Act.Counting R) (depth : Nat) :
    Discipline host (enter host depth) R fun _ r => Run.Flows R r := by
  have hperform : ∀ o : Operation, o.keepsLayers → (o.perform host.callbackIds host.resume).Keeps R := fun o ho =>
    S.perform _ _ ho fun l _ => C.collect l
  have G := regimeOfSteady S hperform hhost (keeps_openFrame C.framing) (keeps_closeFrame C.framing)
  exact G.discipline (G.enter depth)

/-- When the handler of a callback is over, the hooks of the layer are sound. -/
theorem guarded_invoke {id : Nat} {slot : Option Cell} {d : Activity} {v : World σ} {fuel left : Nat} {handled : Handled}
    (hw : Guarded k w) (hdone : invoke host (enter host depth) k i id slot d w fuel = .done handled v left) :
    Guarded k v := by
  obtain ⟨⟨actions, ht⟩, hsound⟩ := hw
  have D := disciplineOfSteady hhost (Act.steady_tends k) (Act.counting_tends k) depth
  obtain ⟨later, hlater⟩ := ((D.invoke k i id slot).keeps d w).of_done hdone _ _ ht
  have hguards := (disciplineOfHook hhost (guardsHook_enter hhost depth)).invoke k i id slot d w hsound
  exact ⟨⟨_, hlater⟩, hguards.of_done hdone⟩

/-- While the handler of a callback runs, instances and layers stay, and the journal tells first that it was asked. -/
theorem continues_invoke {id : Nat} {slot : Option Cell} {d : Activity} {v : World σ} {fuel left : Nat}
    {handled : Handled} (hdone : invoke host (enter host depth) k i id slot d w fuel = .done handled v left) :
    Persists w v ∧ ∃ es, v.events = w.events ++ .invoked k id i slot :: es := by
  have D := disciplineOfSteady hhost Act.steady_continues Act.counting_continues depth
  refine ⟨(((D.invoke k i id slot).keeps d w).of_done hdone).persists, ?_⟩
  obtain ⟨s, w₁, hlayer, hrest⟩ := Run.done_of_act_bind hdone
  obtain ⟨t, -, eq⟩ := Option.map_eq_some_iff.1 hlayer
  cases eq
  obtain ⟨u, w₂, htold, hrest⟩ := Run.done_of_act_bind hrest
  cases htold
  -- whatever the handler does is told after that
  have hafter : Continues (w.record (.invoked k id i slot)) v := by
    cases hevents : s.collaborators.events with
    | unsupported =>
      rw [hevents] at hrest
      cases hrest
      exact Act.track_continues.refl _
    | host =>
      rw [hevents] at hrest
      exact ((D.within (D.handler k id i slot)).keeps d _).of_done hrest
  obtain ⟨es, hes⟩ := hafter.journal
  exact ⟨es, by rw [hes, events_record, List.append_assoc]; rfl⟩

end Machine

/-! ## Executing a function by name -/

/-- What host code that asked for a result takes from the answer of an execute call. -/
def ExecReply.answer (r : ExecReply) : Except Status Cell :=
  r.status.map fun _ => r.slot.getD 0

namespace Machine

/-- Executes a function by name; calls nest at most `depth` deep below the execute call. -/
abbrev executed (host : Host σ) (depth : Nat) (i : InstanceId) (name : String) : Run σ (Except Status Cell) :=
  (Program.executeNamed i name).run host (enter host (depth + 1))

/-- A call that keeps a layer going, up to its end. -/
def held (k : SubsystemId) (r : Run σ ExecReply) : Run σ (Except Status Cell) := do
  let r ← r
  Run.act (Act.onSubsystem k fun s => ((), { s with holds := s.holds - 1 }))
  pure r.answer

/-- What executing the name of a callback comes to, while `w` is the world. -/
structure AnswersCallback (host : Host σ) (k : SubsystemId) (i : InstanceId) (name : String) (id : Nat) (w : World σ) :
    Prop where
  /-- The handler is asked with the number of the callback, and nothing else happens until it is over. -/
  waits : ∀ {depth fuel d d' v},
    invoke host (enter host depth) k i id (some 0) .machine (w.asked k i name id) fuel = .cut d' v →
      executed host depth i name d w (fuel + 2) = .cut d' v
  /-- The journal tells that the name was looked up and the handler asked, and then what the handler does. -/
  told : ∀ {depth fuel handled v left},
    invoke host (enter host depth) k i id (some 0) .machine (w.asked k i name id) fuel = .done handled v left →
      ∃ es, v.events = w.events ++ .lookedUp k i name (some id) :: .invoked k id i (some 0) :: es
  /-- If it names no function, the call succeeds with what it left in the place for the result, and nothing is run. -/
  answers : ∀ {depth fuel d handled v left},
    invoke host (enter host depth) k i id (some 0) .machine (w.asked k i name id) fuel = .done handled v left →
      handled.forward = none →
      executed host depth i name d w (fuel + 2) = .done (.ok (handled.result.getD 0)) (v.hold k (· - 1)) left
  /-- If it names a function that the instance does not have, the call fails, and nothing is run. -/
  refuses : ∀ {depth fuel d handled v left p a},
    invoke host (enter host depth) k i id (some 0) .machine (w.asked k i name id) fuel = .done handled v left →
      handled.forward = some p → v.instance? i = some a → a.findFunction? p = none →
      executed host depth i name d w (fuel + 2) = .done (.error .notFound) (v.hold k (· - 1)) left
  /-- If it names a function that the instance has, the first one with that name is executed in a frame of its own; no
  event source is asked for the name. -/
  forwards : ∀ {depth fuel d handled v left p a index},
    invoke host (enter host depth) k i id (some 0) .machine (w.asked k i name id) fuel = .done handled v left →
      handled.forward = some p → v.instance? i = some a → (a.findFunction? p).bind Cell.ofNat? = some index →
      executed host depth i name d w (fuel + 2) =
        held k (framed host (enter host depth) k i (some (handled.result.getD 0)) index) .machine v left
  /-- The first thing that happens then is that the frame is opened and the body of the function begins. -/
  begins : ∀ {depth fuel handled v left p a index position code},
    invoke host (enter host depth) k i id (some 0) .machine (w.asked k i name id) fuel = .done handled v left →
      v.instance? i = some a → a.findFunction? p = some position → Cell.ofNat? position = some index →
      a.function? position = some code →
      ∃ v₁, (∀ slot depth,
          framed host (enter host (depth + 1)) k i slot index .machine v 0 = .cut (.script i code) v₁) ∧
        v₁.frames k i = .fresh :: v.frames k i ∧ v₁.events = v.events ++ [.entered k i]
  /-- The instance is still there when the handler is over. -/
  there : ∀ {depth fuel handled v left},
    invoke host (enter host depth) k i id (some 0) .machine (w.asked k i name id) fuel = .done handled v left →
      (w.instance? i).isSome → (v.instance? i).isSome

/-- Where a hook layer takes the names and indices that host code executes. -/
structure RoutesNames (host : Host σ) (k : SubsystemId) (w : World σ) : Prop where
  /-- The name of a callback leads to the handler. -/
  callback : ∀ {i name id}, w.callbackId? host k i name = some id → id ≤ 2147483645 →
    AnswersCallback host k i name id w
  /-- A callback whose number is too large for an index leads nowhere. -/
  tooLarge : ∀ {i name id}, w.callbackId? host k i name = some id → 2147483645 < id → ∀ depth d fuel,
    executed host depth i name d w (fuel + 1) = .done (.error .index) (w.record (.lookedUp k i name (some id))) fuel
  /-- Any other name leads to the function that the machine's own entry finds, and that is executed. -/
  ordinary : ∀ {i name a}, w.callbackId? host k i name = none → w.instance? i = some a → ∀ depth d fuel,
    executed host depth i name d w (fuel + 1) =
      (match a.lookup name with
        | .ok index => Program.execute i index
        | .error s => .done (.error s)).run host (enter host (depth + 1)) d (w.record (.lookedUp k i name none)) fuel
  /-- The indices of functions, of the main function and of the continuation are never taken for callbacks. -/
  real : ∀ {index : Cell}, -2 ≤ index.val → ∀ calls i slot,
    intercepted host calls k i slot index = holding k (framed host calls k i slot index)

/-! ## The steps -/

section

variable {host : Host σ} {calls : Calls σ} {d : Activity} {v w' : World σ} {fuel left depth : Nat}

/-- A function is executed by name in two steps. -/
theorem executed_of_lookup {r : Except Status Cell} (h : Act.lookup host.callbackIds i name w = some (r, w')) :
    executed host depth i name d w (fuel + 1) =
      (match r with
        | .ok index => Program.execute i index
        | .error s => .done (.error s)).run host (enter host (depth + 1)) d w' fuel := by
  have htick : Run.tick d w (fuel + 1) = .done () w fuel := rfl
  show (Run.tick >>= fun _ => Run.act (Act.lookup host.callbackIds i name) >>= _) d w (fuel + 1) = _
  rw [Run.bind_of_done htick, Run.bind_of_done (Run.act_of_some h d fuel)]
  cases r <;> rfl

/-- The second step goes through the detour. -/
theorem execute_of_entry {index : Cell} (h : w.entry .exec = .detour k .plain) :
    (Program.execute i index).run host (enter host (depth + 1)) d w (fuel + 1) =
      (intercepted host (enter host depth) k i (some 0) index >>= fun r => pure r.answer) .machine w fuel := by
  have htick : Run.tick d w (fuel + 1) = .done () w fuel := rfl
  have hexec : enter host (depth + 1) (.exec i (some 0) index) d w fuel = _ := enter_of_detour h depth i (some 0) index d fuel
  show (Run.tick >>= fun _ => enter host (depth + 1) (.exec i (some 0) index) >>= fun r => pure r.answer) d w (fuel + 1) = _
  rw [Run.bind_of_done htick]
  -- what is running while the answer is handed on does not matter
  cases hrun : intercepted host (enter host depth) k i (some 0) index .machine w fuel with
  | done r w' left => rw [Run.bind_of_done (hexec.trans hrun), Run.bind_of_done hrun]; rfl
  | cut d' w' => rw [Run.bind_of_cut (hexec.trans hrun), Run.bind_of_cut hrun]

/-- Keeping a layer going for the time of a run. -/
theorem holding_eq (hs : w.subsystem? k = some s) (r : Run σ ExecReply) :
    (holding k r >>= fun r => pure r.answer) d w fuel = held k r d (w.hold k (· + 1)) fuel := by
  have hhold := Run.act_of_some (hold_eq hs (· + 1)) d fuel
  unfold holding held
  simp only [bind_assoc, pure_bind]
  rw [Run.bind_of_done hhold]

/-- The end of a call that kept a layer going. -/
theorem held_of_done {r : Run σ ExecReply} (reply : ExecReply) (hr : r d w fuel = .done reply v left)
    (hv : (v.subsystem? k).isSome) : held k r d w fuel = .done reply.answer (v.hold k (· - 1)) left := by
  obtain ⟨s, hs⟩ := Option.isSome_iff_exists.1 hv
  unfold held
  rw [Run.bind_of_done hr, Run.bind_of_done (Run.act_of_some (hold_eq hs (· - 1)) d left)]
  rfl

/-- The first moment of a call that reaches the machine's own entry: its function begins. -/
theorem enter_begins {a : Instance} {index : Cell} {position : Nat} {code : Code} (hentry : v.entry .exec = .plain)
    (ha : v.instance? i = some a) (hdecode : ExecIndex.decode index = .function position)
    (hcode : a.function? position = some code) (slot : Option Cell) (depth : Nat) :
    enter host (depth + 1) (.exec i slot index) d v 0 = .cut (.script i code) v := by
  have hget : Act.getInstance i v = some (a, v) := congrArg (Option.map _) ha
  have hscript : scriptOf a index = some code := by
    unfold scriptOf
    rw [hdecode]
    exact hcode
  rw [enter_of_plain hentry]
  unfold plainExec
  rw [Run.bind_of_done (Run.act_of_some hget .machine 0), hscript]
  exact Run.bind_of_cut rfl

theorem openFrame_eq (hs : v.subsystem? k = some s) (i : InstanceId) : ∃ v₁, openFrame k i v = some ((), v₁) ∧
    v₁.instances = v.instances ∧ v₁.frames k i = .fresh :: v.frames k i ∧ v₁.events = v.events ++ [.entered k i] := by
  obtain ⟨u, v₁, hopen, -⟩ := answers_openFrame (i := i) v (Option.isSome_iff_exists.2 ⟨s, hs⟩)
  have htells := (tells_openFrame (k := k) hopen).1
  refine ⟨v₁, hopen, ?_, ?_, htells.journal⟩
  · obtain ⟨⟨n, u₁⟩, h₁, h⟩ := Option.bind_eq_some_iff.1 hopen
    obtain ⟨⟨u, u₂⟩, h₂, h⟩ := Option.bind_eq_some_iff.1 h
    obtain ⟨s₁, -, eq⟩ := Option.map_eq_some_iff.1 h₁
    cases eq
    obtain ⟨s₂, -, eq⟩ := Option.map_eq_some_iff.1 h₂
    cases eq
    cases h
    rfl
  · exact (frames_openFrame hopen k i).trans (if_pos ⟨rfl, rfl⟩)

/-- Taking the hook out of its slot for a call leads to the machine's own entry, and touches neither frames nor journal. -/
theorem taken_out {a : Instance} (hsound : Sound k v) (hs : v.subsystem? k = some s)
    (hattached : s.hooks.exec.attached = true) (ha : v.instance? i = some a) :
    ∃ v₁ took v₂, Act.swapCallback k i (.intercept k) v = some ((), v₁) ∧ Act.borrow k .exec v₁ = some (took, v₂) ∧
      v₂.entry .exec = .plain ∧ v₂.instance? i = some { a with callback := .intercept k } ∧
      v₂.frames k i = v.frames k i ∧ v₂.events = v.events := by
  obtain ⟨v₁, hswap, ha₁⟩ := Act.swapCallback_there ha hs (.intercept k)
  have hsound₁ : Sound k v₁ := (Act.hookKept_swapCallback k i _ hswap).sound hsound
  obtain ⟨c, -, -, -, hevents₁, hhooks⟩ := Act.swapCallback_spec hswap
  rw [hs] at hhooks
  obtain ⟨s₁, hs₁, hhook₁⟩ := Option.map_eq_some_iff.1 hhooks
  have hattached₁ : s₁.hooks.exec.attached = true := by
    rw [hhook₁]
    exact hattached
  obtain ⟨took, v₂, hborrow⟩ : ∃ took v₂, Act.borrow k .exec v₁ = some (took, v₂) :=
    ⟨_, _, onMount_eq_remount hs₁ Mount.detach⟩
  obtain ⟨-, hsound₂, hout⟩ := Act.borrow_spec hsound₁ hs₁ hattached₁ hborrow
  obtain ⟨s₂, hs₂, -⟩ := hsound₂.hook
  have ha₂ : v₂.instance? i = v₁.instance? i := by
    obtain ⟨t, ht, eq⟩ := Option.map_eq_some_iff.1 hborrow
    cases eq
    rfl
  refine ⟨v₁, took, v₂, hswap, hborrow, hsound₂.entry_of_out hs₂ (hout s₂ hs₂), ha₂.trans ha₁, ?_, ?_⟩
  · rw [(Act.still_onMount (k := k) k .exec _ hborrow).frames, (Act.still_swapCallback (k := k) k i _ hswap).frames]
  · rw [(Act.callbacks_onMount (k := k) hborrow).2.2, hevents₁]

/-- The first moment of a call with a frame: whether its hook was in the slot or not, it reaches the machine's own entry,
and its function begins. -/
theorem framed_begins {a : Instance} {index : Cell} {position : Nat} {code : Code} (hsound : Sound k v)
    (ha : v.instance? i = some a) (hdecode : ExecIndex.decode index = .function position)
    (hcode : a.function? position = some code) :
    ∃ v₁, (∀ slot depth, framed host (enter host (depth + 1)) k i slot index d v 0 = .cut (.script i code) v₁) ∧
      v₁.frames k i = .fresh :: v.frames k i ∧ v₁.events = v.events ++ [.entered k i] := by
  obtain ⟨s, hs, -⟩ := hsound.hook
  obtain ⟨v₁, hopen, hinstances, hframes, hevents⟩ := openFrame_eq hs i
  have hsound₁ : Sound k v₁ := (keeps_openFrame (Act.counting_hookKept k).framing k i hopen).sound hsound
  have ha₁ : v₁.instance? i = some a := by
    unfold instance?
    rw [hinstances]
    exact ha
  obtain ⟨s₁, hs₁, -⟩ := hsound₁.hook
  -- what passing the call on comes to, the call comes to
  have hpassed : ∀ {slot depth v₂}, passOn (enter host (depth + 1)) k i slot index d v₁ 0 = .cut (.script i code) v₂ →
      framed host (enter host (depth + 1)) k i slot index d v 0 = .cut (.script i code) v₂ := by
    intro slot depth v₂ hpass
    unfold framed
    rw [Run.bind_of_done (Run.act_of_some hopen d 0)]
    exact Run.bind_of_cut hpass
  cases hattached : s₁.hooks.exec.attached with
  | false =>
    refine ⟨v₁, fun slot depth => hpassed ?_, hframes, hevents⟩
    rw [passOn_of_out _ hs₁ hattached]
    exact enter_begins (hsound₁.entry_of_out hs₁ hattached) ha₁ hdecode hcode slot depth
  | true =>
    obtain ⟨v₂, took, v₃, hswap, hborrow, hentry, ha₃, hframes₃, hevents₃⟩ := taken_out hsound₁ hs₁ hattached ha₁
    refine ⟨v₃, fun slot depth => hpassed ?_, hframes₃.trans hframes, hevents₃.trans hevents⟩
    rw [passOn_of_attached _ hs₁ hattached hswap hborrow]
    exact Run.bind_of_cut (enter_begins hentry ha₃ hdecode hcode slot depth)

end

/-! ## Where names lead -/

section

variable {host : Host σ} (hhost : host.UsesOnly (.operations Operation.keepsLayers))
include hhost

omit hhost in
/-- The name of a callback leads through both steps to the handler, and on to the function that this names. -/
theorem executed_callback {id : Nat} (hw : Routing k w) (hid : w.callbackId? host k i name = some id)
    (hle : id ≤ 2147483645) (depth : Nat) (d : Activity) (fuel : Nat) : executed host depth i name d w (fuel + 2) =
      held k (do
        let handled ← invoke host (enter host depth) k i id (some 0)
        match handled.forward with
        | none => pure (.success (some (handled.result.getD 0)))
        | some p =>
          match ← Run.act (Act.lookupPast host.callbackIds k i p) with
          | .error s => pure (.failure s (some (handled.result.getD 0)))
          | .ok index => framed host (enter host depth) k i (some (handled.result.getD 0)) index)
        .machine (w.asked k i name id) fuel := by
  obtain ⟨s, hlookup, hexec⟩ := hw.served
  -- the number of the callback comes back from the index that the lookup answers
  obtain ⟨index, hindex, hdecode⟩ := ExecIndex.callbackIndex_of_le hle
  have hs : (w.record (.lookedUp k i name (some id))).subsystem? k = some s := hlookup.layer
  have hfound := Act.lookup_of_some hlookup hid
  rw [hindex] at hfound
  rw [executed_of_lookup hfound]
  show (Program.execute i index).run _ _ d _ (fuel + 1) = _
  rw [execute_of_entry (k := k) (show (w.record (.lookedUp k i name (some id))).entry .exec = _ from hexec.entry)]
  unfold intercepted
  rw [hdecode, holding_eq hs]
  rfl

theorem answersCallback {id : Nat} (hw : Routing k w) (hid : w.callbackId? host k i name = some id)
    (hle : id ≤ 2147483645) : AnswersCallback host k i name id w := by
  have hrun := executed_callback hw hid hle
  obtain ⟨s, hlookup, -⟩ := hw.served
  obtain ⟨hguarded, hevents, hinstances⟩ := hw.toGuarded.asked hlookup.layer i name id
  refine ⟨fun {depth fuel d d' v} hcut => ?_, fun {depth fuel handled v left} hdone => ?_,
    fun {depth fuel d handled v left} hdone hnone => ?_, fun {depth fuel d handled v left p a} hdone hp ha hmissing => ?_,
    fun {depth fuel d handled v left p a index} hdone hp ha hthere => ?_,
    fun {depth fuel handled v left p a index position code} hdone ha hposition hindex hcode => ?_,
    fun {depth fuel handled v left} hdone hi => ?_⟩
  · rw [hrun]
    exact Run.bind_of_cut (Run.bind_of_cut hcut)
  · obtain ⟨-, es, hes⟩ := continues_invoke hhost hdone
    exact ⟨es, by rw [hes, hevents, List.append_assoc]; rfl⟩
  · have hv := guarded_invoke hhost hguarded hdone
    obtain ⟨t, ht, -⟩ := hv.sound.hook
    rw [hrun]
    refine held_of_done (.success (some (handled.result.getD 0))) ?_ (Option.isSome_iff_exists.2 ⟨t, ht⟩)
    rw [Run.bind_of_done hdone, hnone]
    rfl
  · have hv := guarded_invoke hhost hguarded hdone
    obtain ⟨t, ht, -⟩ := hv.sound.hook
    have hpast := Act.lookupPast_eq host.callbackIds p ht (hv.lookup ht) ha
    rw [show a.lookup p = .error .notFound by unfold Instance.lookup; rw [hmissing]; rfl] at hpast
    rw [hrun]
    refine held_of_done (.failure .notFound (some (handled.result.getD 0))) ?_
      (Option.isSome_iff_exists.2 ⟨t, ht⟩)
    rw [Run.bind_of_done hdone, hp]
    exact Run.bind_of_done (Run.act_of_some hpast .machine left)
  · have hv := guarded_invoke hhost hguarded hdone
    obtain ⟨t, ht, -⟩ := hv.sound.hook
    have hpast := Act.lookupPast_eq host.callbackIds p ht (hv.lookup ht) ha
    rw [show a.lookup p = .ok index by unfold Instance.lookup; rw [hthere]] at hpast
    rw [hrun]
    refine Run.bind_congr ?_ _
    rw [Run.bind_of_done hdone, hp]
    exact Run.bind_of_done (Run.act_of_some hpast .machine left)
  · have hv := guarded_invoke hhost hguarded hdone
    exact framed_begins hv.sound ha (ExecIndex.decode_ofNat? hindex) hcode
  · refine (continues_invoke hhost hdone).1.instances i ?_
    unfold instance?
    rw [hinstances]
    exact hi

theorem routesNames_of_routing (hw : Routing k w) : RoutesNames host k w where
  callback := answersCallback hhost hw
  tooLarge {i name id} hid hlt depth d fuel := by
    obtain ⟨s, hlookup, -⟩ := hw.served
    have hfound := Act.lookup_of_some hlookup hid
    rw [ExecIndex.callbackIndex_of_lt hlt] at hfound
    exact executed_of_lookup hfound
  ordinary {i name a} hid ha depth d fuel := by
    obtain ⟨s, hlookup, -⟩ := hw.served
    exact executed_of_lookup (Act.lookup_of_none hlookup hid ha)
  real {index} hindex calls i slot := by
    unfold intercepted
    split
    · rename_i id hid
      exact absurd hid (ExecIndex.isPublic_of_le hindex id)
    · rfl

/-- At every moment of a run with one hook layer at which its hooks of the execute export and of the lookup export are in
their slots, names and indices lead where they should, whatever code handlers run. -/
theorem routesNames_runIn {p : Program σ α} (hp : p.Uses (.operations Operation.keepsLayers)) {instances : Array Instance}
    {resumer : Resumer} {state : σ} {config : Config} {collaborators : Collaborators} {fuel : Nat} {w : World σ}
    (hmoment : (p.runIn host fuel (.single instances resumer state config collaborators)).world = w) {s : Subsystem}
    (hs : w.subsystem? ⟨0⟩ = some s) (halive : s.alive = true) (hexec : s.hooks.exec.attached = true)
    (hlookup : s.hooks.lookup.attached = true) : RoutesNames host ⟨0⟩ w := by
  subst hmoment
  have hsound := sound_runIn hhost hp instances resumer state config collaborators fuel
  have htended := tended_runIn hhost hp instances resumer state config collaborators fuel
  exact routesNames_of_routing hhost ⟨⟨htended, hsound⟩, s, hs, halive, hexec, hlookup⟩

end

/-- A host with one event, whose handler names a function that has the name of the event. -/
def forwardingHost : Host Unit :=
  { Host.scripted fun _ _ => .done (.ok 1) with
    callbackIds := fun _ _ _ name => if name = "event" then some 5 else none
    invoke := fun _ _ _ _ => .done ⟨some 0, some "event"⟩ }

/-- Loads a script with a function that has the name of the event, and switches every hook on. -/
def forwardingProgram : Program Unit Unit := do
  let i ← Program.perform (.newInstance 4)
  let _ ← Program.perform (.addFunction i "event" ⟨0⟩)
  let _ ← Program.perform (.installAll ⟨0⟩)

theorem routesNames_forwarding :
    ∃ w, (forwardingProgram.runIn forwardingHost 9
        (.single #[] .drop () .standard ⟨.unsupported, .unsupported, .host⟩)).world = w ∧
      w.callbackId? forwardingHost ⟨0⟩ ⟨0⟩ "event" = some 5 ∧ RoutesNames forwardingHost ⟨0⟩ w := by
  have hhost : forwardingHost.UsesOnly (.operations Operation.keepsLayers) :=
    ⟨fun _ _ => trivial, fun _ _ _ => trivial, fun _ _ _ _ => trivial, fun _ _ _ _ => trivial, fun _ _ _ => trivial⟩
  have hprogram : forwardingProgram.Uses (.operations Operation.keepsLayers) :=
    ⟨trivial, fun _ => ⟨trivial, fun _ => ⟨trivial, fun _ => trivial⟩⟩⟩
  have hreached : ((forwardingProgram.runIn forwardingHost 9
      (.single #[] .drop () .standard ⟨.unsupported, .unsupported, .host⟩)).world.subsystem? ⟨0⟩).any
        (fun s => s.alive && s.hooks.exec.attached && s.hooks.lookup.attached) = true := by decide +kernel
  have hevent : (forwardingProgram.runIn forwardingHost 9
      (.single #[] .drop () .standard ⟨.unsupported, .unsupported, .host⟩)).world.callbackId? forwardingHost ⟨0⟩ ⟨0⟩
        "event" = some 5 := by decide +kernel
  obtain ⟨s, hs, hthere⟩ := (Option.any_eq_true _ _).1 hreached
  simp only [Bool.and_eq_true] at hthere
  obtain ⟨⟨halive, hexec⟩, hlookup⟩ := hthere
  exact ⟨_, rfl, hevent, routesNames_runIn hhost hprogram rfl hs halive hexec hlookup⟩

/-- The function that the handler names is run, and the handler is not asked again. -/
example : (do let _ ← forwardingProgram; Program.executeNamed ⟨0⟩ "event" : Program Unit (Except Status Cell)).runIn
    forwardingHost 9 (.single #[] .drop () .standard ⟨.unsupported, .unsupported, .host⟩) |>.done?.any
      (fun r => decide (r.2.events = [.lookedUp ⟨0⟩ ⟨0⟩ "event" (some 5), .invoked ⟨0⟩ 5 ⟨0⟩ (some 0),
        .entered ⟨0⟩ ⟨0⟩, .left ⟨0⟩ ⟨0⟩])) := by
  decide +kernel

end Machine

end Interpose

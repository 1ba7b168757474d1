import Interpose.Proofs.FrameRuns

/-!
# The stages of an intercepted call

An intercepted call of an index that is no synthetic callback begins by opening a frame and ends by closing it, and in
between the call is passed on and its answer settled. Statements about the call itself speak of the world right after
the beginning, `Machine.openCall`, and of the rest, `Machine.inFrame`.

A call of a synthetic callback has no frame until its handler is over, and then only if the handler named a function.

Main statements: `Machine.intercepted_public` and `Machine.intercepted_synthetic`.
-/

namespace Interpose

open World

variable {σ α β : Type}

/-- An index that a script or its host can execute without naming a synthetic callback. -/
def ExecIndex.IsPublic (index : Cell) : Prop :=
  ∀ id, decode index ≠ .synthetic id

/-! ## Operations that have an answer -/

namespace Act

/-- Where a hook layer is there, an operation has an answer, and the layer is still there. -/
def Answers (k : SubsystemId) (x : Act σ α) : Prop :=
  ∀ w, (w.subsystem? k).isSome → ∃ a w', x w = some (a, w') ∧ (w'.subsystem? k).isSome

namespace Answers

variable {k : SubsystemId}

theorem pure (a : α) : Answers k (pure a : Act σ α) :=
  fun w h => ⟨a, w, rfl, h⟩

theorem bind {x : Act σ α} {next : α → Act σ β} (hx : x.Answers k) (hn : ∀ a, (next a).Answers k) :
    Answers k (x >>= next) := by
  intro w h
  obtain ⟨a, v, hv, h⟩ := hx w h
  obtain ⟨b, w', hw', h⟩ := hn a v h
  exact ⟨b, w', (bind_of_some hv).trans hw', h⟩

theorem onSubsystem (f : Subsystem → α × Subsystem) : (Act.onSubsystem k f : Act σ α).Answers k := by
  intro w h
  obtain ⟨s, hs⟩ := Option.isSome_iff_exists.1 h
  refine ⟨_, _, congrArg (Option.map _) hs, ?_⟩
  exact (Persists.setSubsystem hs _).layers k h

theorem record (e : Event) : (Act.record e : Act σ Unit).Answers k :=
  fun w h => ⟨(), w.record e, rfl, h⟩

end Answers

end Act

/-- Two operations in a row are one, if the second always has an answer after the first. -/
theorem Run.act_bind {x : Act σ α} {y : α → Act σ β} (h : ∀ w a w', x w = some (a, w') → ∃ r, y a w' = some r) :
    Run.act (x >>= y) = Run.act x >>= fun a => Run.act (y a) := by
  funext d w fuel
  cases hx : x w with
  | none =>
    have hxy : (x >>= y) w = none := by
      show Option.bind (x w) _ = none
      rw [hx]
      rfl
    rw [act_of_none hxy, bind_of_cut (act_of_none hx d fuel)]
  | some r =>
    obtain ⟨a, w'⟩ := r
    have hxy : (x >>= y) w = y a w' := Act.bind_of_some hx
    obtain ⟨⟨b, v⟩, hy⟩ := h w a w' hx
    rw [bind_of_done (act_of_some hx d fuel), act_of_some (hxy.trans hy), act_of_some hy]

/-! ## Keeping a layer going -/

namespace World

/-- The world with another count of the calls that keep a layer going. -/
def hold (w : World σ) (k : SubsystemId) (f : Nat → Nat) : World σ :=
  match w.subsystem? k with
  | some s => w.setSubsystem k { s with holds := f s.holds }
  | none => w

variable {w w' : World σ} {k : SubsystemId} {f : Nat → Nat}

theorem hold_eq {s : Subsystem} (hs : w.subsystem? k = some s) (f : Nat → Nat) :
    Act.onSubsystem k (fun s => ((), { s with holds := f s.holds })) w = some ((), w.hold k f) := by
  unfold hold
  rw [hs]
  exact congrArg (Option.map _) hs

theorem eq_hold (h : Act.onSubsystem k (fun s => ((), { s with holds := f s.holds })) w = some ((), w')) :
    w' = w.hold k f := by
  obtain ⟨s, hs, -⟩ := Option.map_eq_some_iff.1 h
  rw [hold_eq hs] at h
  cases h
  rfl

end World

namespace Machine

/-! ## Beginning and end -/

/-- How an intercepted call begins: it keeps its layer going, is counted, and has a frame. -/
def openCall (k : SubsystemId) (i : InstanceId) : Act σ Unit := do
  Act.onSubsystem k fun s => ((), { s with holds := s.holds + 1 })
  openFrame k i

/-- How an intercepted call ends. -/
def closeCall (k : SubsystemId) (i : InstanceId) : Act σ Unit := do
  closeFrame k i
  Act.onSubsystem k fun s => ((), { s with holds := s.holds - 1 })

/-- What happens in an intercepted call while its frame is open, and its end. -/
def inFrame (host : Host σ) (calls : Calls σ) (k : SubsystemId) (i : InstanceId) (slot : Option Cell) (index : Cell) :
    Run σ ExecReply := do
  let r ← passOn calls k i slot index
  let r ← settle host calls k i r
  Run.act (closeCall k i)
  pure r

variable {k : SubsystemId} {i : InstanceId}

theorem answers_openFrame : (openFrame k i : Act σ Unit).Answers k :=
  .bind (.onSubsystem _) fun _ => .bind (.onSubsystem _) fun _ => .record _

theorem answers_closeFrame : (closeFrame k i : Act σ Unit).Answers k := by
  have hpop : (Act.popFrame k i : Act σ (Option Frame)).Answers k := by
    refine .bind (.onSubsystem _) fun f => ?_
    cases f with
    | some f => exact .pure _
    | none => exact .bind (.record _) fun _ => .pure _
  refine .bind hpop fun _ => .bind (.onSubsystem _) fun before => .bind (.record _) fun _ => ?_
  split
  · exact .bind (.onSubsystem _) fun _ => .pure _
  · exact .pure _

theorem answers_openCall : (openCall k i : Act σ Unit).Answers k :=
  .bind (.onSubsystem _) fun _ => answers_openFrame

theorem answers_closeCall : (closeCall k i : Act σ Unit).Answers k :=
  .bind answers_closeFrame fun _ => .onSubsystem _

/-- Beginning a call is two operations in a row. -/
theorem act_openCall : Run.act (openCall k i : Act σ Unit) =
    Run.act (Act.onSubsystem k fun s => ((), { s with holds := s.holds + 1 })) >>= fun _ => Run.act (openFrame k i) := by
  -- the second never fails after the first
  refine Run.act_bind fun w a w' hx => ?_
  obtain ⟨s, hs, eq⟩ := Option.map_eq_some_iff.1 hx
  cases eq
  have hthere := (Persists.setSubsystem hs { s with holds := s.holds + 1 }).layers k (by rw [hs]; rfl)
  obtain ⟨b, v, hv, -⟩ := answers_openFrame (i := i) _ hthere
  exact ⟨_, hv⟩

/-- So is ending one. -/
theorem act_closeCall : Run.act (closeCall k i : Act σ Unit) =
    Run.act (closeFrame k i) >>= fun _ => Run.act (Act.onSubsystem k fun s => ((), { s with holds := s.holds - 1 })) := by
  refine Run.act_bind fun w a w' hx => ?_
  have hthere : (w.subsystem? k).isSome := by
    obtain ⟨⟨f, w₂⟩, h₂, -⟩ := Option.bind_eq_some_iff.1 hx
    obtain ⟨⟨f', w₁⟩, h₁, -⟩ := Option.bind_eq_some_iff.1 h₂
    obtain ⟨s, hs, -⟩ := Option.map_eq_some_iff.1 h₁
    exact Option.isSome_iff_exists.2 ⟨s, hs⟩
  have hthere' := (tells_closeFrame (k := k) hx).1.persists.layers k hthere
  obtain ⟨b, v, hv, -⟩ := Act.Answers.onSubsystem (fun s => ((), { s with holds := s.holds - 1 })) w' hthere'
  exact ⟨_, hv⟩

/-- An answer that is not suspended is left as it is. -/
theorem settle_of_ne (host : Host σ) {calls : Calls σ} {q : ExecReply} (h : q.status ≠ .error .sleep) :
    settle host calls k i q = pure q := by
  unfold settle
  split
  · rename_i hsleep
    exact absurd hsleep h
  · rfl

/-- An intercepted call of a public index opens a frame and goes on in it. -/
theorem intercepted_public {host : Host σ} {calls : Calls σ} {index : Cell} (h : ExecIndex.IsPublic index)
    (slot : Option Cell) :
    intercepted host calls k i slot index = Run.act (openCall k i) >>= fun _ => inFrame host calls k i slot index := by
  have hframed : intercepted host calls k i slot index = holding k (framed host calls k i slot index) := by
    unfold intercepted
    split
    · rename_i id hid
      exact absurd hid (h id)
    · rfl
  rw [hframed]
  simp only [holding, framed, inFrame, act_openCall, act_closeCall, bind_assoc, pure_bind]

/-- What is over of a call with an open frame was passed on and settled, and then closed. -/
theorem done_of_inFrame {host : Host σ} {calls : Calls σ} {slot : Option Cell} {index : Cell} {d : Activity}
    {w₀ w' : World σ} {fuel left : Nat} {r : ExecReply}
    (h : inFrame host calls k i slot index d w₀ fuel = .done r w' left) :
    ∃ w₁, (passOn calls k i slot index >>= settle host calls k i) d w₀ fuel = .done r w₁ left ∧
      closeCall k i w₁ = some ((), w') := by
  obtain ⟨r₀, w₂, left₂, hpassed, hrest⟩ := Run.done_of_bind h
  obtain ⟨r₁, w₁, left₁, hsettled, hrest⟩ := Run.done_of_bind hrest
  obtain ⟨u, w₃, hclosed, hrest⟩ := Run.done_of_act_bind hrest
  cases hrest
  exact ⟨w₁, (Run.bind_of_done hpassed).trans hsettled, hclosed⟩

/-- What follows the handler of a synthetic callback: the function that it named is executed, if it named one. -/
def forwarded (host : Host σ) (calls : Calls σ) (k : SubsystemId) (i : InstanceId) (slot : Option Cell)
    (handled : Handled) : Run σ ExecReply := do
  let slot := slot.map fun c => handled.result.getD c
  match handled.forward with
  | none => pure (.success slot)
  | some name =>
    match ← Run.act (Act.lookupPast host.callbackIds k i name) with
    | .error s => pure (.failure s slot)
    | .ok index => framed host calls k i slot index

/-- An intercepted call of a synthetic callback has its handler run, and then goes on with what the handler named. -/
theorem intercepted_synthetic {host : Host σ} {calls : Calls σ} {index : Cell} {id : Nat}
    (h : ExecIndex.decode index = .synthetic id) (slot : Option Cell) :
    intercepted host calls k i slot index =
      holding k (invoke host calls k i id slot >>= forwarded host calls k i slot) := by
  unfold intercepted
  rw [h]
  rfl

/-- Where an intercepted call opens a frame of its own: of a public index at once, and of a synthetic callback when its
handler has named a function. The frame is opened in the world `v` with `left` fuel, for the index `index'` and the place
`slot'`. -/
inductive OpensFrame (host : Host σ) (calls : Calls σ) (k : SubsystemId) (i : InstanceId) (slot : Option Cell)
    (index : Cell) (d : Activity) (w : World σ) (fuel : Nat) :
    (slot' : Option Cell) → (index' : Cell) → (v : World σ) → (left : Nat) → Prop
  | atOnce {v : World σ} (hindex : ExecIndex.IsPublic index)
    (hhold : Act.onSubsystem k (fun s => ((), { s with holds := s.holds + 1 })) w = some ((), v)) :
    OpensFrame host calls k i slot index d w fuel slot index v fuel
  | afterHandler {index' : Cell} {id : Nat} {u u' v : World σ} {handled : Handled} {left : Nat} {name : String}
    (hindex : ExecIndex.decode index = .synthetic id)
    (hhold : Act.onSubsystem k (fun s => ((), { s with holds := s.holds + 1 })) w = some ((), u))
    (hinvoke : invoke host calls k i id slot d u fuel = .done handled u' left) (hname : handled.forward = some name)
    (hlookup : Act.lookupPast host.callbackIds k i name u' = some (.ok index', v)) :
    OpensFrame host calls k i slot index d w fuel (slot.map fun c => handled.result.getD c) index' v left

/-- With its frame open, an intercepted call goes on in it. -/
theorem OpensFrame.intercepted {host : Host σ} {calls : Calls σ} {slot slot' : Option Cell} {index index' : Cell}
    {d : Activity} {w v v₀ : World σ} {fuel left : Nat}
    (h : OpensFrame host calls k i slot index d w fuel slot' index' v left) (hopen : openFrame k i v = some ((), v₀)) :
    Machine.intercepted host calls k i slot index d w fuel = inFrame host calls k i slot' index' d v₀ left := by
  cases h with
  | atOnce hindex hhold =>
    rw [intercepted_public hindex, act_openCall, bind_assoc, Run.bind_of_done (Run.act_of_some hhold d fuel),
      Run.bind_of_done (Run.act_of_some hopen d fuel)]
  | @afterHandler index' id u u' v handled left name hindex hhold hinvoke hname hlookup =>
    -- what is left of the call is what is left of the frame, and the end of it
    have hrest : inFrame host calls k i (slot.map fun c => handled.result.getD c) index' =
        (do
          let r ← passOn calls k i (slot.map fun c => handled.result.getD c) index'
          let r ← settle host calls k i r
          Run.act (closeFrame k i)
          Run.act (Act.onSubsystem k fun s => ((), { s with holds := s.holds - 1 }))
          pure r) := by
      simp only [inFrame, act_closeCall, bind_assoc]
    have hforwarded : forwarded host calls k i slot handled d u' left =
        framed host calls k i (slot.map fun c => handled.result.getD c) index' d v left := by
      unfold forwarded
      rw [hname]
      exact Run.bind_of_done (Run.act_of_some hlookup d left)
    rw [intercepted_synthetic hindex, hrest]
    unfold holding
    rw [Run.bind_of_done (Run.act_of_some hhold d fuel), bind_assoc, Run.bind_of_done hinvoke,
      Run.bind_congr hforwarded]
    simp only [framed, bind_assoc, pure_bind]
    exact Run.bind_of_done (Run.act_of_some hopen d left)

/-! ## What opening and closing do -/

theorem tells_openCall {w w' : World σ} (h : openCall k i w = some ((), w')) :
    Tells k w w' [.entered k i] ∧ w'.execDepth k = w.execDepth k + 1 := by
  obtain ⟨⟨u, w₁⟩, h₁, h⟩ := Option.bind_eq_some_iff.1 h
  have hstill : FramesStill k w w₁ := Act.still_onSubsystem (fun _ => rfl) (fun _ => rfl) h₁
  obtain ⟨htells, hdepth⟩ := tells_openFrame (k := k) h
  have hhold : Tells k w w₁ [] :=
    .of_silent (by simp [Act.events_onSubsystem h₁]) (by simp [Silent]) hstill.frames hstill.persists
  refine ⟨hhold.trans htells, ?_⟩
  rw [hdepth, if_pos rfl, hstill.execDepth]

/-- A run is over for the time of which a layer was kept going. Keeping it going has nothing to do with its frames. -/
theorem done_of_holding {α : Type} {x : Run σ α} {a : α} {d : Activity} {w w' : World σ} {fuel left : Nat}
    (hdone : holding k x d w fuel = .done a w' left) :
    ∃ w₁, FramesStill k w (w.hold k (· + 1)) ∧ (w.hold k (· + 1)).events = w.events ∧
      x d (w.hold k (· + 1)) fuel = .done a w₁ left ∧ FramesStill k w₁ w' := by
  obtain ⟨u, w₀, hheld, hrest⟩ := Run.done_of_act_bind hdone
  obtain ⟨b, w₁, left₁, hx, hrest⟩ := Run.done_of_bind hrest
  obtain ⟨u', w₂, hreleased, hrest⟩ := Run.done_of_act_bind hrest
  cases hrest
  cases eq_hold hheld
  exact ⟨w₁, Act.still_onSubsystem (fun _ => rfl) (fun _ => rfl) hheld, Act.events_onSubsystem hheld, hx,
    Act.still_onSubsystem (fun _ => rfl) (fun _ => rfl) hreleased⟩

/-- A frame is opened in a layer that exists. -/
theorem isSome_of_openFrame {w w' : World σ} (h : openFrame k i w = some ((), w')) : (w'.subsystem? k).isSome := by
  refine (tells_openFrame (k := k) h).1.persists.layers k ?_
  obtain ⟨⟨n, w₁⟩, h₁, -⟩ := Option.bind_eq_some_iff.1 h
  obtain ⟨s, hs, -⟩ := Option.map_eq_some_iff.1 h₁
  exact Option.isSome_iff_exists.2 ⟨s, hs⟩

/-- So is the frame of a call. -/
theorem isSome_of_openCall {w w' : World σ} (h : openCall k i w = some ((), w')) : (w'.subsystem? k).isSome := by
  obtain ⟨⟨u, w₁⟩, -, hopen⟩ := Option.bind_eq_some_iff.1 h
  exact isSome_of_openFrame hopen

/-- The frame of a call is the innermost one, and nothing was asked for in it yet. -/
theorem frames_openCall {w w' : World σ} (h : openCall k i w = some ((), w')) :
    w'.frames k i = .fresh :: w.frames k i := by
  rw [(tells_openCall h).1.frames]
  show FrameChange.replay [Event.frameChange k i (.entered k i)] _ = _
  rw [Event.frameChange, if_pos ⟨rfl, rfl⟩]
  rfl

theorem tells_closeCall {w w' : World σ} (h : closeCall k i w = some ((), w')) :
    Tells k w w' (closing k i (w.frames k i)) ∧ w'.execDepth k = w.execDepth k - 1 := by
  obtain ⟨⟨u, w₁⟩, h₁, h⟩ := Option.bind_eq_some_iff.1 h
  have hstill : FramesStill k w₁ w' := Act.still_onSubsystem (fun _ => rfl) (fun _ => rfl) h
  obtain ⟨htells, hdepth⟩ := tells_closeFrame (k := k) h₁
  have hrelease : Tells k w₁ w' [] :=
    .of_silent (by simp [Act.events_onSubsystem h]) (by simp [Silent]) hstill.frames hstill.persists
  have := htells.trans hrelease
  rw [List.append_nil] at this
  refine ⟨this, ?_⟩
  rw [hstill.execDepth, hdepth, if_pos rfl]

/-- Closing takes the innermost frame of the instance away, if there is one, and none of any other. -/
theorem frames_closeCall {w w' : World σ} (h : closeCall k i w = some ((), w')) (j : InstanceId) :
    w'.frames k j = if j = i then (w.frames k j).tail else w.frames k j := by
  obtain ⟨⟨u, w₁⟩, h₁, h⟩ := Option.bind_eq_some_iff.1 h
  have hstill : FramesStill k w₁ w' := Act.still_onSubsystem (fun _ => rfl) (fun _ => rfl) h
  rw [hstill.frames, frames_closeFrame h₁]
  simp [eq_comm]

/-- The end of a call works on its layer and on the journal, and on nothing else. -/
theorem eq_closeCall {β : Type} (part : World σ → β) (hlayer : ∀ w l s, part (w.setSubsystem l s) = part w)
    (hjournal : ∀ w e, part (w.record e) = part w) {w w' : World σ} (h : closeCall k i w = some ((), w')) :
    part w' = part w := by
  have t : Act.Track fun w w' => part w' = part w := ⟨fun _ => rfl, fun h h' => h'.trans h⟩
  have F : Act.Framing fun w w' => part w' = part w :=
    ⟨t, fun _ _ => hlayer .., fun _ _ => hlayer .., fun _ => .onSubsystem fun _ _ _ => hlayer .., fun _ _ _ => hjournal ..,
      fun _ _ _ => hjournal .., fun _ _ => hjournal ..⟩
  have hclose : (closeCall k i).Keeps fun w w' => part w' = part w :=
    .bind t (keeps_closeFrame F k i) fun _ => .onSubsystem fun _ _ _ => hlayer ..
  exact hclose h

theorem instance?_closeCall {w w' : World σ} (h : closeCall k i w = some ((), w')) (j : InstanceId) :
    w'.instance? j = w.instance? j :=
  eq_closeCall (fun w => w.instance? j) (fun _ _ _ => rfl) (fun _ _ => rfl) h

theorem tasks_closeCall {w w' : World σ} (h : closeCall k i w = some ((), w')) : w'.tasks = w.tasks :=
  eq_closeCall World.tasks (fun _ _ _ => rfl) (fun _ _ => rfl) h

theorem host_closeCall {w w' : World σ} (h : closeCall k i w = some ((), w')) : w'.host = w.host :=
  eq_closeCall World.host (fun _ _ _ => rfl) (fun _ _ => rfl) h

end Machine

end Interpose

import Interpose.Proofs.Runs

/-!
# Code that is unaware of hook layers

Two runs of the same code in two worlds are followed side by side: whenever the first is over, the second is over with the
same answer and the same fuel left (`Run.Mirrors`). For code that knows nothing of hook layers this needs little of the two
worlds: they have to look the same to it, and go on to do so after each of its operations (`World.Likeness`); and what it
calls has to be mirrored too (`Machine.Echoes`).

What code may do without leaving that class depends in part on what it meets, such as the addresses that it uses. So it is
a condition on a run, and is put so that the run of the code that is *confined*, which stands still for ever where the code
would leave the class, is over.

Main statements: `Program.mirrors_run`, and `Machine.mirrors_plainExec` and `Machine.mirrors_dispatch` for the machine's
own entries.
-/

namespace Interpose

variable {σ α β : Type}

/-! ## Runs side by side -/

/-- Whenever an operation has an answer in one world, it has the same in another, and the worlds then are as asked. -/
def Act.Mirrors (x : Act σ α) (w w' : World σ) (post : α → World σ → World σ → Prop) : Prop :=
  ∀ a v, x w = some (a, v) → ∃ v', x w' = some (a, v') ∧ post a v v'

namespace Act.Mirrors

variable {x : Act σ α} {w w' : World σ} {post post' : α → World σ → World σ → Prop}

theorem mono (h : x.Mirrors w w' post) (hp : ∀ a v v', post a v v' → post' a v v') : x.Mirrors w w' post' := by
  intro a v hx
  obtain ⟨v', hx', hv⟩ := h a v hx
  exact ⟨v', hx', hp a v v' hv⟩

theorem pure {a : α} (h : post a w w') : Mirrors (pure a : Act σ α) w w' post := by
  intro b v he
  cases he
  exact ⟨w', rfl, h⟩

theorem bind {post : β → World σ → World σ → Prop} {next : α → Act σ β}
    (h : x.Mirrors w w' fun a v v' => (next a).Mirrors v v' post) : (x >>= next).Mirrors w w' post := by
  intro b v he
  obtain ⟨⟨a, u⟩, hx, hnext⟩ := Option.bind_eq_some_iff.1 he
  obtain ⟨u', hx', hu⟩ := h a u hx
  obtain ⟨v', hnext', hv⟩ := hu b v hnext
  exact ⟨v', (bind_of_some hx').trans hnext', hv⟩

theorem ofOption {o : Option α} (h : ∀ a, o = some a → post a w w') : (Act.ofOption o : Act σ α).Mirrors w w' post := by
  cases o with
  | none => exact fun _ _ => nofun
  | some a => exact .pure (h a rfl)

end Act.Mirrors

namespace Run

/-- Whenever a run is over in one world, another is over in another world, with the same answer and the same fuel left, and
the worlds then are as asked. -/
def Mirrors (r : Run σ α) (d : Activity) (w : World σ) (r' : Run σ α) (w' : World σ)
    (post : α → World σ → World σ → Prop) : Prop :=
  ∀ fuel a v left, r d w fuel = .done a v left → ∃ v', r' d w' fuel = .done a v' left ∧ post a v v'

namespace Mirrors

variable {r r' : Run σ α} {d : Activity} {w w' : World σ} {post post' : α → World σ → World σ → Prop}

theorem mono (h : r.Mirrors d w r' w' post) (hp : ∀ a v v', post a v v' → post' a v v') :
    r.Mirrors d w r' w' post' := by
  intro fuel a v left hr
  obtain ⟨v', hr', hv⟩ := h _ _ _ _ hr
  exact ⟨v', hr', hp a v v' hv⟩

theorem pure {a : α} (h : post a w w') : Mirrors (pure a : Run σ α) d w (pure a) w' post := by
  intro fuel b v left he
  cases he
  exact ⟨w', rfl, h⟩

theorem bind {post : β → World σ → World σ → Prop} {next next' : α → Run σ β}
    (h : r.Mirrors d w r' w' fun a v v' => (next a).Mirrors d v (next' a) v' post) :
    (r >>= next).Mirrors d w (r' >>= next') w' post := by
  intro fuel b v left he
  obtain ⟨a, u, m, hr, hnext⟩ := done_of_bind he
  obtain ⟨u', hr', hu⟩ := h _ _ _ _ hr
  obtain ⟨v', hnext', hv⟩ := hu _ _ _ _ hnext
  exact ⟨v', (bind_of_done hr').trans hnext', hv⟩

theorem act {x : Act σ α} (h : x.Mirrors w w' post) : (Run.act x).Mirrors d w (Run.act x) w' post := by
  intro fuel a v left he
  obtain ⟨hx, rfl⟩ := done_of_act he
  obtain ⟨v', hx', hv⟩ := h a v hx
  exact ⟨v', act_of_some hx' d left, hv⟩

/-- The second run may do something that the first does not. -/
theorem aside {x : Act σ β} {b : β} {u' : World σ} {next : β → Run σ α} (hx : x w' = some (b, u'))
    (h : r.Mirrors d w (next b) u' post) : r.Mirrors d w (Run.act x >>= next) w' post := by
  intro fuel a v left hr
  obtain ⟨v', hnext, hv⟩ := h _ _ _ _ hr
  exact ⟨v', (bind_of_done (act_of_some hx d fuel)).trans hnext, hv⟩

/-- The second run may go on after the first is over. -/
theorem bind_right {next : α → Run σ α} (h : r.Mirrors d w r' w' fun a v v' => Mirrors (Pure.pure a) d v (next a) v' post) :
    r.Mirrors d w (r' >>= next) w' post := by
  have hboth : (r >>= Pure.pure).Mirrors d w (r' >>= next) w' post := .bind h
  rwa [bind_pure] at hboth

theorem tick {post : Unit → World σ → World σ → Prop} (h : post () w w') : Run.tick.Mirrors d w Run.tick w' post := by
  intro fuel a v left he
  cases fuel with
  | zero => cases he
  | succ fuel =>
    cases he
    exact ⟨w', rfl, h⟩

theorem under {activity : Activity} (h : r.Mirrors activity w r' w' post) :
    (Run.under activity r).Mirrors d w (Run.under activity r') w' post :=
  h

theorem within {activity : Activity} (h : r.Mirrors activity w r' w' post) :
    (Run.within activity r).Mirrors d w (Run.within activity r') w' post :=
  under (.bind (.tick h))

/-- Only what the two runs do in these worlds matters. -/
theorem congr {s s' : Run σ α} {e : Activity} (h : s.Mirrors e w s' w' post) (hr : ∀ fuel, r d w fuel = s e w fuel)
    (hr' : ∀ fuel, r' d w' fuel = s' e w' fuel) : r.Mirrors d w r' w' post := by
  intro fuel a v left he
  obtain ⟨v', hs', hv⟩ := h fuel a v left ((hr fuel).symm.trans he)
  exact ⟨v', (hr' fuel).trans hs', hv⟩

/-- A run that is never over is mirrored by any. -/
theorem of_cut (h : ∀ fuel, ∃ d' v, r d w fuel = .cut d' v) : r.Mirrors d w r' w' post := by
  intro fuel a v left he
  obtain ⟨d', u, hcut⟩ := h fuel
  rw [hcut] at he
  cases he

end Mirrors

end Run

/-! ## What unaware code sees and does -/

/-- The instance with another callback. -/
def Instance.withCallback (a : Instance) (callback : Callback) : Instance :=
  { a with callback }

/-- Two worlds look the same to code that looks at instances, but not at their callbacks, and at what the host
remembers. -/
structure World.LooksLike (w w' : World σ) : Prop where
  host : w'.host = w.host
  instances : ∀ i, (w'.instance? i).map (·.withCallback .standard) = (w.instance? i).map (·.withCallback .standard)

theorem World.LooksLike.refl (w : World σ) : w.LooksLike w :=
  ⟨rfl, fun _ => rfl⟩

/-- An instance that is there has a likeness. -/
theorem World.LooksLike.instance? {w w' : World σ} (h : w.LooksLike w') {i : InstanceId} {a : Instance}
    (ha : w.instance? i = some a) : ∃ c, w'.instance? i = some (a.withCallback c) := by
  have hi := h.instances i
  rw [ha] at hi
  obtain ⟨a', ha', heq⟩ := Option.map_eq_some_iff.1 hi
  -- the two differ in their callbacks only
  have : a' = a.withCallback a'.callback := congrArg (·.withCallback a'.callback) heq
  exact ⟨a'.callback, ha'.trans (congrArg some this)⟩

/-- A program that cannot tell worlds apart that look the same. -/
def Program.Unaware : Program σ α → Prop
  | done _ => True
  | look next => (∀ w w', w.LooksLike w' → next w' = next w) ∧ ∀ w, (next w).Unaware
  | remember _ next => next.Unaware
  | act _ next => ∀ r, (next r).Unaware
  | exec _ _ _ next => ∀ r, (next r).Unaware
  | call _ _ _ next => ∀ r, (next r).Unaware

/-- All bodies are unaware. -/
structure Host.Unaware (host : Host σ) : Prop where
  script : ∀ code i, (host.script code i).Unaware
  native : ∀ code i params, (host.native code i params).Unaware
  callback : ∀ code i index params, (host.callback code i index params).Unaware

/-- What unaware code can ask for: work on registers, statuses and memory, at addresses below those of pooled strings, and
the indices of functions and natives. -/
def Operation.isOrdinary : Operation → Bool
  | findNative _ _ | lookup _ _ | readRegisters _ | setRegister _ _ _ | restore _ _ | raise _ _ | clearError _ => true
  | allot _ _ | allocCells _ _ | release _ _ | mark _ | notify _ => true
  | peek _ address | poke _ address _ | stringLength _ address => decide (address < Address.base)
  | readString _ address | readCells _ address _ | writeString _ address _ _ => decide (address < Address.base)
  | _ => false

/-- A program that is never over: it asks for the registers of an instance that is not there. -/
def Program.standstill : Program σ (Except Status Cell) :=
  look fun w => act (.readRegisters ⟨w.instances.size⟩) fun _ => done (.ok 0)

/-- The program, as long as it does what unaware code can do, executes indices from -2 up, and does not answer that the call
is suspended; from then on it stands still. -/
def Program.confined : Program σ (Except Status Cell) → Program σ (Except Status Cell)
  | done (.ok value) => done (.ok value)
  | done (.error s) => if s = .sleep then standstill else done (.error s)
  | look next => look fun w => (next w).confined
  | remember change next => remember change next.confined
  | act o next => if o.isOrdinary then act o fun r => (next r).confined else standstill
  | exec i slot index next => if -2 ≤ index.val then exec i slot index fun r => (next r).confined else standstill
  | call i index params next => call i index params fun r => (next r).confined

/-- The host with all bodies confined. -/
def Host.confined (host : Host σ) : Host σ :=
  { host with
    script := fun code i => (host.script code i).confined
    native := fun code i params => (host.native code i params).confined
    callback := fun code i index params => (host.callback code i index params).confined }

/-- What unaware code can do, as a condition on its text. -/
def Program.Allowed.ordinary : Program.Allowed σ where
  look := True
  remember _ := True
  act o := o.isOrdinary = true
  exec _ _ index := -2 ≤ index.val
  call _ _ _ := True

/-- A program that does not answer that the call is suspended, whatever answers it gets. -/
def Program.StaysAwake : Program σ (Except Status Cell) → Prop
  | done r => r ≠ .error .sleep
  | look next => ∀ w, (next w).StaysAwake
  | remember _ next => next.StaysAwake
  | act _ next => ∀ r, (next r).StaysAwake
  | exec _ _ _ next => ∀ r, (next r).StaysAwake
  | call _ _ _ next => ∀ r, (next r).StaysAwake

/-- Code that stays in the class by its text is confined as it is. -/
theorem Program.confined_eq {p : Program σ (Except Status Cell)} (hp : p.Uses .ordinary) (hawake : p.StaysAwake) :
    p.confined = p := by
  induction p with
  | done r =>
    cases r with
    | ok value => rfl
    | error s => exact if_neg fun hs => hawake (congrArg Except.error hs)
  | look next ih => exact congrArg look (funext fun w => ih w (hp.2 w) (hawake w))
  | remember change next ih => exact congrArg (remember change) (ih hp.2 hawake)
  | act o next ih => exact (if_pos hp.1).trans (congrArg (act o) (funext fun r => ih r (hp.2 r) (hawake r)))
  | exec i slot index next ih =>
    exact (if_pos hp.1).trans (congrArg (exec i slot index) (funext fun r => ih r (hp.2 r) (hawake r)))
  | call i index params next ih => exact congrArg (call i index params) (funext fun r => ih r (hp.2 r) (hawake r))

theorem Program.cut_standstill (host : Host σ) (calls : Calls σ) (d : Activity) (w : World σ) (fuel : Nat) :
    ∃ d' v, (standstill.run host calls) d w fuel = .cut d' v := by
  have hnone : w.instance? ⟨w.instances.size⟩ = none := Array.getElem?_size
  have hread : (Operation.readRegisters ⟨w.instances.size⟩).perform host.callbackIds host.resume w = none := by
    show Option.bind ((w.instance? _).map _) _ = none
    rw [hnone]
    rfl
  match fuel with
  | 0 => exact ⟨d, w, rfl⟩
  | 1 => exact ⟨d, w, rfl⟩
  | fuel + 2 =>
    refine ⟨d, w, ?_⟩
    show (Run.act _ >>= _) d w fuel = _
    exact Run.bind_of_cut (Run.act_of_none hread d fuel)

/-- Whether a native is code of the host's. -/
def Native.isHost : Native → Bool
  | .host _ => true
  | _ => false

/-! ## Unaware code in two worlds -/

/-- Worlds that look the same go on to do so, whatever unaware code does. -/
structure World.Likeness (R : World σ → World σ → Prop) : Prop where
  looks : ∀ {w w'}, R w w' → w.LooksLike w'
  remember : ∀ {w w'}, R w w' → ∀ change : σ → σ,
    R { w with host := change w.host } { w' with host := change w'.host }
  perform : ∀ {w w'}, R w w' → ∀ (ids : CallbackIds σ) (resume : Resume σ) {o : Operation}, o.isOrdinary = true →
    (o.perform ids resume).Mirrors w w' fun _ => R
  natives : ∀ {w w'}, R w w' → ∀ {i a}, w.instance? i = some a → ∀ n ∈ a.natives, n.2.isHost = true

namespace Machine

/-- Calls a native through the callback that the instance has now. -/
def throughCallback (calls : Calls σ) (i : InstanceId) (index : Cell) (params : List Cell) :
    Run σ (Except Status Cell) := do
  let a ← Run.act (Act.getInstance i)
  calls (.dispatch a.callback i index params)

/-- The calls of unaware code are mirrored, and none comes back suspended. -/
structure Echoes (R : World σ → World σ → Prop) (calls calls' : Calls σ) : Prop where
  exec : ∀ {w w'}, R w w' → ∀ i slot {index : Cell}, -2 ≤ index.val → ∀ d,
    (calls (.exec i slot index)).Mirrors d w (calls' (.exec i slot index)) w' fun r v v' =>
      r.status ≠ .error .sleep ∧ R v v'
  call : ∀ {w w'}, R w w' → ∀ i index params d,
    (throughCallback calls i index params).Mirrors d w (throughCallback calls' i index params) w' fun _ => R

end Machine

theorem Program.run_call (host : Host σ) (calls : Calls σ) (i : InstanceId) (index : Cell) (params : List Cell)
    (next : Except Status Cell → Program σ α) : (call i index params next).run host calls =
      Run.tick >>= fun _ => Machine.throughCallback calls i index params >>= fun r => (next r).run host calls := by
  unfold Machine.throughCallback
  simp only [bind_assoc]
  rfl

section

variable {R : World σ → World σ → Prop} {calls calls' : Calls σ} {w w' : World σ} {d : Activity}

open Machine

/-- Unaware code does in the second world what it does in the first, as long as it confines itself there. -/
theorem Program.mirrors_run (hR : World.Likeness R) (hcalls : Echoes R calls calls') {host : Host σ}
    {p : Program σ (Except Status Cell)} (hp : p.Unaware) (hw : R w w') :
    (p.confined.run host.confined calls).Mirrors d w (p.run host calls') w' fun r v v' => r ≠ .error .sleep ∧ R v v' := by
  induction p generalizing w w' with
  | done r =>
    cases r with
    | ok value => exact .pure ⟨nofun, hw⟩
    | error s =>
      unfold confined
      split
      · -- confined code that has nowhere to go is never over, so there is nothing to show
        exact .of_cut (cut_standstill _ _ _ _)
      · rename_i hs
        exact .pure ⟨fun h => hs (Except.error.inj h), hw⟩
  | look next ih =>
    refine .bind (.tick ?_)
    -- both worlds let it go on in the same way
    have hnext : next w' = next w := hp.1 w w' (hR.looks hw)
    intro fuel a v left hdone
    obtain ⟨v', hdone', hv⟩ := ih w (hp.2 w) hw fuel a v left hdone
    refine ⟨v', ?_, hv⟩
    show ((next w').run host calls') d w' fuel = _
    rw [hnext, hdone']
  | remember change next ih =>
    refine .bind (.tick (.bind (.act ?_)))
    intro u v he
    cases he
    exact ⟨_, rfl, ih hp (hR.remember hw change)⟩
  | act o next ih =>
    unfold confined
    split
    · rename_i ho
      exact .bind (.tick (.bind (.act ((hR.perform hw _ _ ho).mono fun r v v' hv => ih r (hp r) hv))))
    · exact .of_cut (cut_standstill _ _ _ _)
  | exec i slot index next ih =>
    unfold confined
    split
    · rename_i hindex
      exact .bind (.tick (.bind ((hcalls.exec hw i slot hindex d).mono fun r v v' hv => ih r (hp r) hv.2)))
    · exact .of_cut (cut_standstill _ _ _ _)
  | call i index params next ih =>
    show ((call i index params fun r => (next r).confined).run host.confined calls).Mirrors d w _ w' _
    rw [run_call, run_call]
    exact .bind (.tick (.bind ((hcalls.call hw i index params d).mono fun r v v' hv => ih r (hp r) hv)))

namespace Machine

theorem mirrors_raise (hR : World.Likeness R) (hw : R w w') (i : InstanceId) (s : Status) :
    (Act.raise i s).Mirrors w w' fun _ => R :=
  hR.perform (o := .raise i s) hw (fun _ _ _ _ => none) (fun _ _ state => state) rfl

/-! The functions and the natives of an instance do not depend on its callback. -/

theorem scriptOf_withCallback (a : Instance) (c : Callback) (index : Cell) :
    scriptOf (a.withCallback c) index = scriptOf a index := rfl

theorem native?_withCallback (a : Instance) (c : Callback) (index : Cell) :
    (a.withCallback c).native? index = a.native? index := rfl

variable (hR : World.Likeness R) {host : Host σ} (hhost : host.Unaware) (hcalls : Echoes R calls calls') (hw : R w w')
include hR hw

/-- Looking at an instance, as far as the two worlds agree on it. -/
theorem mirrors_instance {i : InstanceId} {next next' : Instance → Run σ α} {post : α → World σ → World σ → Prop}
    (h : ∀ a c, w.instance? i = some a → w'.instance? i = some (a.withCallback c) →
      (next a).Mirrors d w (next' (a.withCallback c)) w' post) :
    (Run.act (Act.getInstance i) >>= next).Mirrors d w (Run.act (Act.getInstance i) >>= next') w' post := by
  cases ha : w.instance? i with
  | none =>
    have hnone : Act.getInstance i w = none := congrArg (Option.map _) ha
    exact .of_cut fun fuel => ⟨d, w, Run.bind_of_cut (Run.act_of_none hnone d fuel)⟩
  | some a =>
    obtain ⟨c, ha'⟩ := (hR.looks hw).instance? ha
    have hget : Act.getInstance i w = some (a, w) := congrArg (Option.map _) ha
    have hget' : Act.getInstance i w' = some (a.withCallback c, w') := congrArg (Option.map _) ha'
    intro fuel b v left hdone
    rw [Run.bind_of_done (Run.act_of_some hget d fuel)] at hdone
    obtain ⟨v', hdone', hv⟩ := h a c ha ha' _ _ _ _ hdone
    exact ⟨v', (Run.bind_of_done (Run.act_of_some hget' d fuel)).trans hdone', hv⟩

include hhost hcalls

/-- The machine's own entry of the execute export. -/
theorem mirrors_plainExec (i : InstanceId) (slot : Option Cell) (index : Cell) :
    (plainExec host.confined calls i slot index).Mirrors d w (plainExec host calls' i slot index) w' fun r v v' =>
      r.status ≠ .error .sleep ∧ R v v' := by
  refine mirrors_instance hR hw fun a c ha ha' => ?_
  -- where a call fails, a status is raised
  have hfail : ∀ {s slot v v'}, s ≠ .sleep → R v v' → Run.Mirrors (do
      let s ← Run.act (Act.raise i s)
      pure (.failure s slot) : Run σ ExecReply) d v (do
      let s ← Run.act (Act.raise i s)
      pure (.failure s slot)) v' fun r v v' => r.status ≠ .error .sleep ∧ R v v' := by
    intro s slot v v' hs hv
    refine .bind (.act fun t u he => ?_)
    obtain ⟨u', he', hu⟩ := mirrors_raise hR hv i s t u he
    obtain ⟨b, -, eq⟩ := Option.map_eq_some_iff.1 he
    cases eq
    exact ⟨u', he', .pure ⟨fun h => hs (Except.error.inj h), hu⟩⟩
  rw [scriptOf_withCallback]
  cases scriptOf a index with
  | none => exact hfail nofun hw
  | some code =>
    refine .bind (.within ((Program.mirrors_run hR hcalls (hhost.script code i) hw).mono fun r v v' hv => ?_))
    cases r with
    | ok value => exact .pure ⟨nofun, hv.2⟩
    | error s => exact hfail (fun hs => hv.1 (congrArg Except.error hs)) hv.2

/-- What a native of the host's does. -/
theorem mirrors_runNative (i : InstanceId) {n : Native} (hn : n.isHost = true) (params : List Cell) :
    (runNative host.confined calls i n params).Mirrors d w (runNative host calls' i n params) w' fun _ => R := by
  cases n with
  | host code =>
    exact .within ((Program.mirrors_run hR hcalls (hhost.native code i params) hw).mono fun _ _ _ hv => hv.2)
  | string | task | detach => cases hn

/-- The machine's own callback, and those of the host. -/
theorem mirrors_dispatch {callback : Callback} (hproper : ∀ k, callback ≠ .intercept k) (i : InstanceId) (index : Cell)
    (params : List Cell) : (dispatch host.confined calls callback i index params).Mirrors d w
      (dispatch host calls' callback i index params) w' fun _ => R := by
  cases callback with
  | intercept k => exact absurd rfl (hproper k)
  | host code =>
    exact .within ((Program.mirrors_run hR hcalls (hhost.callback code i index params) hw).mono fun _ _ _ hv => hv.2)
  | standard =>
    refine mirrors_instance hR hw fun a c ha ha' => ?_
    rw [native?_withCallback]
    cases hnative : a.native? index with
    | none => exact .bind (.act ((mirrors_raise hR hw i .notFound).mono fun _ _ _ hv => .pure hv))
    | some n =>
      obtain ⟨position, -, hfound⟩ := Option.bind_eq_some_iff.1 hnative
      obtain ⟨entry, hentry, rfl⟩ := Option.map_eq_some_iff.1 hfound
      exact mirrors_runNative hR hhost hcalls hw i (hR.natives hw ha entry (List.mem_of_getElem? hentry)) params

end Machine

end

end Interpose

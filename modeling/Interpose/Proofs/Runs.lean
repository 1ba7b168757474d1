import Interpose.Machine
import Interpose.Proofs.Worlds

/-!
# What holds throughout a run

A run ends with a value and a world, or it is cut and shows what was running and the world at that moment. `Run.Ensures`
speaks of both at once: whatever the fuel, a run from a world that is over meets `post`, and one that is cut meets
`moment`. Since every moment of a run is shown by cutting it there, `moment` is what holds *throughout*.

There is one rule for each way in which runs are put together, and `Program.ensures_run` for programs of the host: what
every allowed operation and every call keeps, the program keeps. Which programs a host is made of is told by `Host.Uses`.
-/

namespace Interpose

variable {σ α β : Type}

/-- Whether an outcome is over with `post`, or cut at a `moment`. -/
def Outcome.Meets (moment : Activity → World σ → Prop) (post : α → World σ → Prop) : Outcome σ α → Prop
  | .done a w _ => post a w
  | .cut during w => moment during w

/-- The world that an outcome shows. -/
def Outcome.world : Outcome σ α → World σ
  | .done _ w _ => w
  | .cut _ w => w

/-- The answer of an outcome that is over, and the world then. -/
def Outcome.done? : Outcome σ α → Option (α × World σ)
  | .done a w _ => some (a, w)
  | .cut _ _ => none

/-- What was running when an outcome was cut, and the world then. -/
def Outcome.cut? : Outcome σ α → Option (Activity × World σ)
  | .done _ _ _ => none
  | .cut during w => some (during, w)

theorem Outcome.exists_done {o : Outcome σ α} {p : α × World σ → Bool} (h : o.done?.any p = true) :
    ∃ a w left, o = .done a w left ∧ p (a, w) = true := by
  cases o with
  | done a w left => exact ⟨a, w, left, rfl, h⟩
  | cut d w => cases h

theorem Outcome.exists_cut {o : Outcome σ α} {p : Activity × World σ → Bool} (h : o.cut?.any p = true) :
    ∃ d w, o = .cut d w ∧ p (d, w) = true := by
  cases o with
  | done a w left => cases h
  | cut d w => exact ⟨d, w, rfl, h⟩

namespace Run

/-- Whatever the fuel, a run from a world is over with `post`, or it is cut at a `moment`. -/
def Ensures (r : Run σ α) (during : Activity) (w : World σ) (moment : Activity → World σ → Prop)
    (post : α → World σ → Prop) : Prop :=
  ∀ fuel, (r during w fuel).Meets moment post

namespace Ensures

variable {r : Run σ α} {d : Activity} {w : World σ} {moment moment' : Activity → World σ → Prop}
  {post post' : α → World σ → Prop}

theorem mono (h : r.Ensures d w moment post) (hm : ∀ d w, moment d w → moment' d w)
    (hp : ∀ a w, post a w → post' a w) : r.Ensures d w moment' post' := by
  intro fuel
  have := h fuel
  cases hr : r d w fuel with
  | done a w' left =>
    rw [hr] at this
    exact hp a w' this
  | cut d' w' =>
    rw [hr] at this
    exact hm d' w' this

theorem mono_post (h : r.Ensures d w moment post) (hp : ∀ a w, post a w → post' a w) : r.Ensures d w moment post' :=
  h.mono (fun _ _ hm => hm) hp

/-- Nothing is asked. -/
theorem trivial (r : Run σ α) (d : Activity) (w : World σ) : r.Ensures d w (fun _ _ => True) fun _ _ => True := by
  intro fuel
  cases r d w fuel <;> exact True.intro

/-- What is over is as asked. -/
theorem of_done (h : r.Ensures d w moment post) {fuel : Nat} {a : α} {w' : World σ} {left : Nat}
    (hr : r d w fuel = .done a w' left) : post a w' := by
  have := h fuel
  rwa [hr] at this

/-- What is cut is as asked. -/
theorem of_cut (h : r.Ensures d w moment post) {fuel : Nat} {d' : Activity} {w' : World σ}
    (hr : r d w fuel = .cut d' w') : moment d' w' := by
  have := h fuel
  rwa [hr] at this

theorem pure {a : α} (h : post a w) : Ensures (pure a : Run σ α) d w moment post :=
  fun _ => h

theorem bind {post : β → World σ → Prop} {next : α → Run σ β}
    (h : r.Ensures d w moment fun a w' => (next a).Ensures d w' moment post) :
    Ensures (r >>= next) d w moment post := by
  intro fuel
  show ((r.andThen next) d w fuel).Meets moment post
  unfold andThen
  have := h fuel
  cases hr : r d w fuel with
  | done a w' left =>
    rw [hr] at this
    exact this left
  | cut d' w' =>
    rw [hr] at this
    exact this

theorem act {x : Act σ α} (h : ∀ a w', x w = some (a, w') → post a w') (hnone : x w = none → moment d w) :
    (Run.act x).Ensures d w moment post := by
  intro fuel
  unfold Run.act
  cases hx : x w with
  | none => exact hnone hx
  | some r => exact h r.1 r.2 hx

/-- An operation whose answer is known. -/
theorem act_eq {x : Act σ α} {a : α} {w' : World σ} (hx : x w = some (a, w')) (h : post a w') :
    (Run.act x).Ensures d w moment post := by
  refine .act (fun b v e => ?_) fun e => ?_
  · rw [hx] at e
    cases e
    exact h
  · rw [hx] at e
    cases e

theorem tick {post : Unit → World σ → Prop} (hm : moment d w) (h : post () w) :
    Run.tick.Ensures d w moment post := by
  intro fuel
  cases fuel with
  | zero => exact hm
  | succ fuel => exact h

theorem world {post : World σ → World σ → Prop} (h : post w w) : Run.world.Ensures d w moment post :=
  fun _ => h

theorem stop (h : moment d w) : (Run.stop : Run σ α).Ensures d w moment post :=
  fun _ => h

theorem under {activity : Activity} (h : r.Ensures activity w moment post) :
    (Run.under activity r).Ensures d w moment post :=
  fun fuel => h fuel

theorem within {activity : Activity} (hm : moment activity w) (h : r.Ensures activity w moment post) :
    (Run.within activity r).Ensures d w moment post :=
  .under (.bind (.tick hm h))

end Ensures

/-! ## Single steps -/

theorem andThen_result (r : Run σ α) : r.andThen result = r := by
  funext during w fuel
  unfold andThen
  cases r during w fuel <;> rfl

theorem andThen_assoc {γ : Type} (r : Run σ α) (f : α → Run σ β) (g : β → Run σ γ) :
    (r.andThen f).andThen g = r.andThen fun a => (f a).andThen g := by
  funext during w fuel
  unfold andThen
  cases r during w fuel <;> rfl

instance : LawfulMonad (Run σ) where
  map_const := rfl
  id_map := andThen_result
  seqLeft_eq x y :=
    (andThen_assoc x (fun a => result (Function.const _ a)) fun f => y.andThen fun b => result (f b)).symm
  seqRight_eq x y := by
    refine Eq.symm ((andThen_assoc x (fun _ => result id) fun f => y.andThen fun b => result (f b)).trans ?_)
    exact congrArg x.andThen (funext fun _ => andThen_result y)
  pure_seq _ _ := rfl
  bind_pure_comp _ _ := rfl
  bind_map _ _ := rfl
  pure_bind _ _ := rfl
  bind_assoc := andThen_assoc

theorem act_of_some {x : Act σ α} {a : α} {w w' : World σ} (h : x w = some (a, w')) (d : Activity) (fuel : Nat) :
    act x d w fuel = .done a w' fuel := by
  unfold act
  rw [h]

theorem act_of_none {x : Act σ α} {w : World σ} (h : x w = none) (d : Activity) (fuel : Nat) :
    act x d w fuel = .cut d w := by
  unfold act
  rw [h]

theorem done_of_act {x : Act σ α} {a : α} {w w' : World σ} {d : Activity} {fuel left : Nat}
    (h : act x d w fuel = .done a w' left) : x w = some (a, w') ∧ left = fuel := by
  unfold act at h
  cases hx : x w with
  | none =>
    rw [hx] at h
    cases h
  | some r =>
    rw [hx] at h
    cases h
    exact ⟨rfl, rfl⟩

theorem bind_of_done {r : Run σ α} {next : α → Run σ β} {d : Activity} {w w' : World σ} {fuel left : Nat} {a : α}
    (h : r d w fuel = .done a w' left) : (r >>= next) d w fuel = next a d w' left := by
  show r.andThen next d w fuel = _
  unfold andThen
  rw [h]

theorem bind_of_cut {r : Run σ α} {next : α → Run σ β} {d d' : Activity} {w w' : World σ} {fuel : Nat}
    (h : r d w fuel = .cut d' w') : (r >>= next) d w fuel = .cut d' w' := by
  show r.andThen next d w fuel = _
  unfold andThen
  rw [h]

/-- A run of two parts is over if both are, one after the other. -/
theorem done_of_bind {r : Run σ α} {next : α → Run σ β} {d : Activity} {w w' : World σ} {fuel left : Nat} {b : β}
    (h : (r >>= next) d w fuel = .done b w' left) :
    ∃ a v m, r d w fuel = .done a v m ∧ next a d v m = .done b w' left := by
  cases hr : r d w fuel with
  | done a v m =>
    rw [bind_of_done hr] at h
    exact ⟨a, v, m, rfl, h⟩
  | cut d' v =>
    rw [bind_of_cut hr] at h
    cases h

theorem done_of_act_bind {x : Act σ α} {next : α → Run σ β} {d : Activity} {w w' : World σ} {fuel left : Nat} {b : β}
    (h : (act x >>= next) d w fuel = .done b w' left) :
    ∃ a v, x w = some (a, v) ∧ next a d v fuel = .done b w' left := by
  obtain ⟨a, v, m, hfirst, hnext⟩ := done_of_bind h
  obtain ⟨hx, rfl⟩ := done_of_act hfirst
  exact ⟨a, v, hx, hnext⟩

/-- Whatever runs takes a unit of fuel to begin with. -/
theorem done_of_within {activity : Activity} {r : Run σ α} {d : Activity} {w w' : World σ} {fuel left : Nat} {a : α}
    (h : within activity r d w fuel = .done a w' left) : ∃ m, r activity w m = .done a w' left := by
  cases fuel with
  | zero => cases h
  | succ m => exact ⟨m, h⟩

theorem bind_congr {r r' : Run σ α} {d : Activity} {w w' : World σ} {fuel fuel' : Nat}
    (h : r d w fuel = r' d w' fuel') (next : α → Run σ β) : (r >>= next) d w fuel = (r' >>= next) d w' fuel' := by
  show r.andThen next d w fuel = r'.andThen next d w' fuel'
  unfold andThen
  rw [h]

end Run

/-! ## Programs -/

/-- What a program keeps that asks for allowed things only: what every step of it keeps, its calls included. -/
theorem Program.ensures_run {host : Host σ} {calls : Calls σ} {allowed : Program.Allowed σ} {d : Activity}
    (moment : Activity → World σ → Prop) (inv : World σ → Prop)
    (hmoment : ∀ w, inv w → moment d w)
    (hremember : ∀ w (change : σ → σ), inv w → inv { w with host := change w.host })
    (hact : ∀ o, allowed.act o → ∀ w r w', o.perform host.callbackIds host.resume w = some (r, w') → inv w → inv w')
    (hexec : ∀ i slot index, allowed.exec i slot index → ∀ w, inv w →
      (calls (.exec i slot index)).Ensures d w moment fun _ => inv)
    (hcall : ∀ i index params, allowed.call i index params → ∀ w a, w.instance? i = some a → inv w →
      (calls (.dispatch a.callback i index params)).Ensures d w moment fun _ => inv)
    {p : Program σ α} (hp : p.Uses allowed) {w : World σ} (hw : inv w) :
    (p.run host calls).Ensures d w moment fun _ => inv := by
  -- every step begins with a tick, at which the run may be cut in the world as it is
  induction p generalizing w with
  | done a => exact .pure hw
  | look next ih =>
    refine .bind (.tick (hmoment w hw) ?_)
    exact .bind (.world (ih w (hp.2 w) hw))
  | remember change next ih =>
    refine .bind (.tick (hmoment w hw) ?_)
    have hchange : (modify fun w => { w with host := change w.host } : Act σ Unit) w =
        some ((), { w with host := change w.host }) := rfl
    refine .bind (.act_eq hchange ?_)
    exact ih hp.2 (hremember w change hw)
  | act o next ih =>
    refine .bind (.tick (hmoment w hw) ?_)
    refine .bind (.act (fun r w' h => ?_) fun _ => hmoment w hw)
    exact ih r (hp.2 r) (hact o hp.1 w r w' h hw)
  | exec i slot index next ih =>
    refine .bind (.tick (hmoment w hw) ?_)
    refine .bind ((hexec i slot index hp.1 w hw).mono_post fun r w' hw' => ?_)
    exact ih r (hp.2 r) hw'
  | call i index params next ih =>
    refine .bind (.tick (hmoment w hw) ?_)
    refine .bind (.act (fun a w' h => ?_) fun _ => hmoment w hw)
    obtain ⟨b, hb, e⟩ := Option.map_eq_some_iff.1 h
    cases e
    refine .bind ((hcall i index params hp.1 w a hb hw).mono_post fun r w' hw' => ?_)
    exact ih r (hp.2 r) hw'

/-- Code may do everything, as long as it asks for certain operations only. -/
def Program.Allowed.operations (act : Operation → Prop) : Program.Allowed σ where
  look := True
  remember _ := True
  act := act
  exec _ _ _ := True
  call _ _ _ := True

/-- The bodies of scripts do only what `script` allows on their instance, all other code of the host only what `other`
allows. -/
structure Host.Uses (host : Host σ) (script : InstanceId → Program.Allowed σ) (other : Program.Allowed σ) : Prop where
  script : ∀ code i, (host.script code i).Uses (script i)
  native : ∀ code i params, (host.native code i params).Uses other
  callback : ∀ code i index params, (host.callback code i index params).Uses other
  invoke : ∀ k id i slot, (host.invoke k id i slot).Uses other
  detach : ∀ k i marker, (host.detach k i marker).Uses other

/-- All code of the host does only what is allowed. -/
abbrev Host.UsesOnly (host : Host σ) (allowed : Program.Allowed σ) : Prop :=
  host.Uses (fun _ => allowed) allowed

theorem Program.uses_operations_true (p : Program σ α) : p.Uses (.operations fun _ => True) := by
  induction p with
  | done a => trivial
  | look next ih => exact ⟨trivial, ih⟩
  | remember change next ih => exact ⟨trivial, ih⟩
  | act o next ih => exact ⟨trivial, ih⟩
  | exec i slot index next ih => exact ⟨trivial, ih⟩
  | call i index params next ih => exact ⟨trivial, ih⟩

/-- Any host asks for operations. -/
theorem Host.uses_operations_true (host : Host σ) : host.UsesOnly (.operations fun _ => True) :=
  ⟨fun _ _ => Program.uses_operations_true _, fun _ _ _ => Program.uses_operations_true _,
    fun _ _ _ _ => Program.uses_operations_true _, fun _ _ _ _ => Program.uses_operations_true _,
    fun _ _ _ => Program.uses_operations_true _⟩

/-- A host with scripts, and nothing else that does anything. -/
def Host.scripted (script : Code → InstanceId → Program σ (Except Status Cell)) : Host σ where
  script := script
  native _ _ _ := .done (.ok 0)
  callback _ _ _ _ := .done (.ok 0)
  callbackIds _ _ _ _ := none
  invoke _ _ _ _ := .done ⟨none, none⟩
  detach _ _ _ := .done ()
  register _ _ _ state := (.ok (), state)
  resume _ _ state := state

theorem Host.scripted_uses {allowed : InstanceId → Program.Allowed σ} (other : Program.Allowed σ)
    {script : Code → InstanceId → Program σ (Except Status Cell)} (h : ∀ code i, (script code i).Uses (allowed i)) :
    (Host.scripted script).Uses allowed other :=
  ⟨h, fun _ _ _ => trivial, fun _ _ _ _ => trivial, fun _ _ _ _ => trivial, fun _ _ _ => trivial⟩

/-- A world in which one hook layer was just made, and there are some instances. -/
def World.single (instances : Array Instance) (resumer : Resumer) (state : σ) (config : Config)
    (collaborators : Collaborators) : World σ :=
  { World.initial resumer state with instances, subsystems := #[.new ⟨0⟩ (.const .plain) config collaborators] }

/-! ## What a call reaches -/

namespace Machine

variable {host : Host σ} {w : World σ}

theorem enter_of_plain (h : w.entry .exec = .plain) (depth : Nat) (i : InstanceId) (slot : Option Cell) (index : Cell)
    (d : Activity) (fuel : Nat) : enter host (depth + 1) (.exec i slot index) d w fuel =
      plainExec host (enter host depth) i slot index .machine w fuel := by
  show exec host (enter host depth) i slot index .machine w fuel = _
  unfold exec
  rw [Run.bind_of_done (show Run.world .machine w fuel = .done w w fuel from rfl), h]

theorem enter_of_detour {k : SubsystemId} {replaced : Entry} (h : w.entry .exec = .detour k replaced) (depth : Nat)
    (i : InstanceId) (slot : Option Cell) (index : Cell) (d : Activity) (fuel : Nat) :
    enter host (depth + 1) (.exec i slot index) d w fuel =
      intercepted host (enter host depth) k i slot index .machine w fuel := by
  show exec host (enter host depth) i slot index .machine w fuel = _
  unfold exec
  rw [Run.bind_of_done (show Run.world .machine w fuel = .done w w fuel from rfl), h]

theorem enter_of_intercept {k : SubsystemId} (h : w.isAlive k = true) (depth : Nat) (i : InstanceId) (index : Cell)
    (params : List Cell) (d : Activity) (fuel : Nat) :
    enter host (depth + 1) (.dispatch (.intercept k) i index params) d w fuel =
      forwardNative (enter host depth) k i index params .machine w fuel := by
  show (Run.world >>= fun w => if w.isAlive k then _ else _) .machine w fuel = _
  rw [Run.bind_of_done (show Run.world .machine w fuel = .done w w fuel from rfl), if_pos h]

/-- A call is passed on as it is while the hook is not in its slot. -/
theorem passOn_of_out (calls : Calls σ) {k : SubsystemId} {s : Subsystem} (hs : w.subsystem? k = some s)
    (hout : s.hooks.exec.attached = false) (i : InstanceId) (slot : Option Cell) (index : Cell) (d : Activity)
    (fuel : Nat) : passOn calls k i slot index d w fuel = calls (.exec i slot index) d w fuel := by
  have hget : Act.getSubsystem k w = some (s, w) := congrArg (Option.map _) hs
  unfold passOn
  rw [Run.bind_of_done (Run.act_of_some hget d fuel), hout]
  rfl

/-- Otherwise this happens once the callback is taken and the hook is out. -/
theorem passOn_of_attached (calls : Calls σ) {k : SubsystemId} {s : Subsystem} {i : InstanceId} {w₁ w₂ : World σ}
    {took : Bool} (hs : w.subsystem? k = some s) (hattached : s.hooks.exec.attached = true)
    (hswap : Act.swapCallback k i (.intercept k) w = some ((), w₁)) (hborrow : Act.borrow k .exec w₁ = some (took, w₂))
    (slot : Option Cell) (index : Cell) (d : Activity) (fuel : Nat) :
    passOn calls k i slot index d w fuel = (calls (.exec i slot index) >>= fun r => do
      Run.act (Act.giveBack k .exec took)
      let _ ← Run.act (Act.restoreCallback k i)
      pure r) d w₂ fuel := by
  have hget : Act.getSubsystem k w = some (s, w) := congrArg (Option.map _) hs
  unfold passOn
  rw [Run.bind_of_done (Run.act_of_some hget d fuel), if_pos hattached, Run.bind_of_done (Run.act_of_some hswap d fuel),
    Run.bind_of_done (Run.act_of_some hborrow d fuel)]

end Machine

end Interpose

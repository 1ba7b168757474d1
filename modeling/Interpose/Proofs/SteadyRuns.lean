import Interpose.Proofs.Discipline

/-!
# What every run keeps

Some facts have nothing to do with execute calls: what is in the pools, what is waited for, and the hooks of the other
three exports. A relation between worlds that looks at these alone is *steady* (`Act.Steady`). A steady relation that
also holds across the opening and the closing of frames is kept by every part of the machine, and so, by induction on
how deep calls nest, by every run: it relates the world at the start to the world at every moment on the way, and the
world at each moment to those at later moments.

A later moment of a run is one that the run gets to with more fuel. That a run which is over stays over with more fuel is
shown along with it.

Main statements: `Machine.regimeOfSteady` for calls, and `Machine.flows_run` for programs.
-/

namespace Interpose

open World

variable {σ α β : Type}

/-! ## Moments of a run -/

/-- Whatever the fuel, a run relates the world it begins in to the one it ends in, and to the one it is cut in. -/
def Run.Keeps (R : World σ → World σ → Prop) (r : Run σ α) : Prop :=
  ∀ d w, r.Ensures d w (fun _ => R w) fun _ => R w

/-- A run relates the world it begins in to that of every moment, and each moment to the later ones; and once it is over
it stays as it is. -/
structure Run.Flows (R : World σ → World σ → Prop) (r : Run σ α) : Prop where
  keeps : r.Keeps R
  later : ∀ d w fuel more, R (r d w fuel).world (r d w (fuel + more)).world
  stays : ∀ {d w fuel a w' left} (more : Nat), r d w fuel = .done a w' left → r d w (fuel + more) = .done a w' (left + more)

namespace Run.Keeps

variable {R : World σ → World σ → Prop}

theorem bind (t : Act.Track R) {r : Run σ α} {next : α → Run σ β} (h : r.Keeps R) (hn : ∀ a, (next a).Keeps R) :
    Keeps R (r >>= next) := by
  intro d w
  refine .bind ((h d w).mono_post fun a v hv => ?_)
  -- what is kept from the world in between is kept from the first one
  exact (hn a d v).mono (fun _ _ hu => t.trans hv hu) fun _ _ hu => t.trans hv hu

/-- The world that a run shows, over or not. -/
theorem world_of {r : Run σ α} (h : r.Keeps R) (d : Activity) (w : World σ) (fuel : Nat) :
    R w (r d w fuel).world := by
  have hmeets := h d w fuel
  cases hr : r d w fuel with
  | done a w' left =>
    rw [hr] at hmeets
    exact hmeets
  | cut d' w' =>
    rw [hr] at hmeets
    exact hmeets

end Run.Keeps

namespace Run.Flows

variable {R : World σ → World σ → Prop}

theorem pure (t : Act.Track R) (a : α) : Flows R (pure a : Run σ α) where
  keeps _ w := .pure (t.refl w)
  later _ w _ _ := t.refl w
  stays more h := by
    cases h
    rfl

theorem act (t : Act.Track R) {x : Act σ α} (h : x.Keeps R) : (Run.act x).Flows R where
  keeps _ w := .act (fun _ _ hx => h hx) fun _ => t.refl w
  later d w fuel more := by
    cases hx : x w with
    | none =>
      rw [act_of_none hx, act_of_none hx]
      exact t.refl w
    | some r =>
      rw [act_of_some hx, act_of_some hx]
      exact t.refl r.2
  stays {d w fuel a w' left} more he := by
    cases hx : x w with
    | none =>
      rw [act_of_none hx] at he
      cases he
    | some r =>
      rw [act_of_some hx] at he ⊢
      cases he
      rfl

theorem tick (t : Act.Track R) : Run.tick.Flows R where
  keeps _ w := .tick (t.refl w) (t.refl w)
  later d w fuel more := by
    -- cut or not, the world is the same
    have hsame : ∀ fuel, (Run.tick d w fuel).world = w := fun fuel => by cases fuel <;> rfl
    rw [hsame, hsame]
    exact t.refl w
  stays {d w fuel a w' left} more h := by
    cases fuel with
    | zero => cases h
    | succ fuel =>
      cases h
      rw [Nat.add_right_comm]
      rfl

theorem world (t : Act.Track R) : (Run.world : Run σ (World σ)).Flows R where
  keeps _ w := .world (t.refl w)
  later _ w _ _ := t.refl w
  stays more h := by
    cases h
    rfl

theorem stop (t : Act.Track R) : (Run.stop : Run σ α).Flows R where
  keeps _ w := .stop (t.refl w)
  later _ w _ _ := t.refl w
  stays _ h := by cases h

theorem under {activity : Activity} {r : Run σ α} (h : r.Flows R) : (Run.under activity r).Flows R where
  keeps _ w := .under (h.keeps activity w)
  later _ := h.later activity
  stays more he := h.stays more he

theorem bind (t : Act.Track R) {r : Run σ α} {next : α → Run σ β} (h : r.Flows R) (hn : ∀ a, (next a).Flows R) :
    Flows R (r >>= next) where
  keeps := .bind t h.keeps fun a => (hn a).keeps
  later d w fuel more := by
    have hkeeps : ∀ {a v u left}, R u v → R u ((next a) d v left).world := fun {a v u left} huv =>
      t.trans huv ((hn a).keeps.world_of d v left)
    have hlater := h.later d w fuel more
    cases hr : r d w fuel with
    | done a v left =>
      -- the first run is over in both, and the second one has more fuel
      rw [bind_of_done hr, bind_of_done (h.stays more hr)]
      exact (hn a).later d v left more
    | cut d' v =>
      rw [hr] at hlater
      rw [bind_of_cut hr]
      cases hr' : r d w (fuel + more) with
      | done a v' left =>
        rw [hr'] at hlater
        rw [bind_of_done hr']
        exact hkeeps hlater
      | cut d'' v' =>
        rw [hr'] at hlater
        rw [bind_of_cut hr']
        exact hlater
  stays {d w fuel a w' left} more he := by
    cases hr : r d w fuel with
    | done b v left' =>
      rw [bind_of_done hr] at he
      rw [bind_of_done (h.stays more hr)]
      exact (hn b).stays more he
    | cut d' v =>
      rw [bind_of_cut hr] at he
      cases he

/-- Of two moments of a run, the one with less fuel is the earlier one. -/
theorem moments {r : Run σ α} (h : r.Flows R) (d : Activity) (w : World σ) {n m : Nat} (hnm : n ≤ m) :
    R (r d w n).world (r d w m).world := by
  have hlater := h.later d w n (m - n)
  rwa [Nat.add_sub_cancel' hnm] at hlater

end Run.Flows

/-! ## Runs of the machine -/

section

variable {R : World σ → World σ → Prop} (S : Act.Steady R) {allowed : Operation → Prop} {host : Host σ}
  (hperform : ∀ o, allowed o → (o.perform host.callbackIds host.resume).Keeps R)
include S hperform

namespace Machine

omit S hperform in
theorem composes_flows (t : Act.Track R) : Composes R fun _ r => Run.Flows R r where
  pure := .pure t
  bind := .bind t
  act := .act t
  tick := .tick t
  world := .world t
  stop := .stop t
  under := .under

/-- What is steady, and holds across the opening and the closing of frames, flows through the whole machine. -/
theorem regimeOfSteady (hhost : host.UsesOnly (.operations allowed))
    (hopen : ∀ k i, (openFrame k i : Act σ Unit).Keeps R) (hclose : ∀ k i, (closeFrame k i : Act σ Unit).Keeps R) :
    Regime host R fun _ r => Run.Flows R r := by
  have C := composes_flows S.track
  refine C.regime S.toAloof hperform hhost S.handsOver S.requestAwait S.requestDetach fun k i h => ?_
  refine C.bind (C.act (hopen k i)) fun _ => ?_
  exact C.bind h fun a => C.bind (C.act (hclose k i)) fun _ => C.pure a

/-- So it flows through the run of a program whose calls the machine answers. -/
theorem flows_run (hhost : host.UsesOnly (.operations allowed))
    (hopen : ∀ k i, (openFrame k i : Act σ Unit).Keeps R) (hclose : ∀ k i, (closeFrame k i : Act σ Unit).Keeps R)
    (depth : Nat) {p : Program σ α} (hp : p.Uses (.operations allowed)) : (p.run host (enter host depth)).Flows R :=
  (composes_flows S.track).program S.toMild hperform ((regimeOfSteady S hperform hhost hopen hclose).enter depth) hp

end Machine

end

end Interpose

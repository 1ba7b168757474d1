import Interpose.Proofs.Stages

/-!
# Answers of execute calls

No intercepted call is suspended when it is over, whatever happened in it: what was suspended is settled, and looking up
the function that a handler names does not suspend anything. And a call that is suspended is one of an instance that
exists, so that the status of that instance can be recorded.

Main statements: `Machine.awake_intercepted` and `Machine.faithful_enter`.
-/

namespace Interpose

open World

variable {σ α β : Type}

/-! ## Answers -/

/-- Whether a call came back suspended. -/
def ExecReply.isSuspended (r : ExecReply) : Bool :=
  match r.status with
  | .error .sleep => true
  | _ => false

theorem ExecReply.isSuspended_iff {r : ExecReply} : r.isSuspended = true ↔ r.status = .error .sleep := by
  unfold isSuspended
  split
  · rename_i hsleep
    exact ⟨fun _ => hsleep, fun _ => rfl⟩
  · rename_i hother
    exact ⟨nofun, fun h => absurd h hother⟩

namespace Act

/-- Whatever the world, an answer is as asked. -/
def AnswersOnly (P : α → Prop) (x : Act σ α) : Prop :=
  ∀ ⦃w a w'⦄, x w = some (a, w') → P a

namespace AnswersOnly

variable {P : α → Prop} {Q : β → Prop}

theorem any (x : Act σ α) : x.AnswersOnly fun _ => True :=
  fun _ _ _ _ => trivial

theorem pure {a : α} (h : P a) : AnswersOnly P (pure a : Act σ α) := by
  intro w b w' e
  cases e
  exact h

theorem bind {x : Act σ α} {next : α → Act σ β} (h : x.AnswersOnly P) (hn : ∀ a, P a → (next a).AnswersOnly Q) :
    AnswersOnly Q (x >>= next) := by
  intro w b w' e
  obtain ⟨⟨a, v⟩, hv, e⟩ := Option.bind_eq_some_iff.1 e
  exact hn a (h hv) e

end AnswersOnly

/-- Looking a function up does not suspend anything. -/
theorem lookupWithin_ne_sleep (ids : CallbackIds σ) (i : InstanceId) (name : String) (bound : Nat) :
    (lookupWithin ids i name bound).AnswersOnly fun r => r ≠ .error .sleep := by
  -- along the chain of detours that the look-up goes past
  induction bound with
  | zero => exact fun _ _ _ e => nomatch e
  | succ bound ih =>
    refine .bind (.any _) fun w _ => ?_
    cases w.entry .lookup with
    | plain =>
      refine .bind (.any _) fun a _ => ?_
      split <;> exact .pure (by simp)
    | detour k replaced =>
      refine .bind (.any _) fun id _ => ?_
      cases id with
      | some id =>
        refine .pure ?_
        unfold callbackIndex
        split <;> simp
      | none =>
        refine .bind (.any _) fun took _ => .bind ih fun r hr => ?_
        exact .bind (.any _) fun _ _ => .pure hr

theorem lookupPast_ne_sleep (ids : CallbackIds σ) (k : SubsystemId) (i : InstanceId) (name : String) :
    (lookupPast ids k i name).AnswersOnly fun r => r ≠ .error .sleep := by
  refine .bind (.any _) fun took _ => ?_
  refine .bind (.bind (.any _) fun w _ => lookupWithin_ne_sleep ids i name _) fun r hr => ?_
  exact .bind (.any _) fun _ _ => .pure hr

end Act

/-- After whatever comes first, a run is over as asked. -/
theorem Run.Ensures.after {r : Run σ α} {next : α → Run σ β} {d : Activity} {w : World σ} {post : β → World σ → Prop}
    (h : ∀ a w', (next a).Ensures d w' (fun _ _ => True) post) :
    Run.Ensures (r >>= next) d w (fun _ _ => True) post :=
  .bind ((Run.Ensures.trivial r d w).mono_post fun a w' _ => h a w')

namespace Machine

/-- An answer has a place for a result if there was one, and a call that was suspended is one of an instance. -/
structure Faithful (i : InstanceId) (slot : Option Cell) (r : ExecReply) (w : World σ) : Prop where
  place : r.slot.isSome = slot.isSome
  sleeper : r.status = .error .sleep → (w.instance? i).isSome

theorem Faithful.persists {i : InstanceId} {slot : Option Cell} {r : ExecReply} {w w' : World σ}
    (h : Faithful i slot r w) (hp : Persists w w') : Faithful i slot r w' :=
  ⟨h.place, fun hr => hp.instances i (h.sleeper hr)⟩

section

variable {host : Host σ} {calls : Calls σ} {i : InstanceId} {slot : Option Cell} {index : Cell} {d : Activity}
  {w : World σ}

theorem isSome_of_raise {s s' : Status} {w' : World σ} (h : Act.raise i s w = some (s', w')) :
    s' = s ∧ (w'.instance? i).isSome := by
  obtain ⟨a, ha, eq⟩ := Option.map_eq_some_iff.1 h
  cases eq
  exact ⟨rfl, (Persists.setInstance ha _).instances i (by rw [ha]; rfl)⟩

theorem faithful_plainExec : (plainExec host calls i slot index).Ensures d w (fun _ _ => True) (Faithful i slot) := by
  have hfailure : ∀ s w, Run.Ensures (do
      let s ← Run.act (Act.raise i s)
      pure (.failure s slot) : Run σ ExecReply) d w (fun _ _ => True) (Faithful i slot) := by
    refine fun s w => .bind (.act (fun s' w' h => .pure ?_) fun _ => trivial)
    exact ⟨rfl, fun _ => (isSome_of_raise h).2⟩
  refine .after fun a w₁ => ?_
  cases scriptOf a index with
  | none => exact hfailure _ _
  | some code =>
    refine .after fun r w₂ => ?_
    cases r with
    | ok value => exact .pure ⟨by cases slot <;> rfl, nofun⟩
    | error s => exact hfailure _ _

/-- A suspended call that is settled is not suspended any more. -/
theorem awake_settle (k : SubsystemId) (r : ExecReply) :
    (settle host calls k i r).Ensures d w (fun _ _ => True)
      fun r' _ => r'.status ≠ .error .sleep ∧ r'.slot.isSome = r.slot.isSome := by
  -- there are two ways in which a suspension is settled
  have hreject : ∀ why slot w, (Run.act (reject i why slot) : Run σ ExecReply).Ensures d w (fun _ _ => True)
      fun r' _ => r'.status ≠ .error .sleep ∧ r'.slot.isSome = slot.isSome := by
    refine fun why slot w => .act (fun r w' h => ?_) fun _ => trivial
    obtain ⟨⟨s, w₁⟩, h₁, h⟩ := Option.bind_eq_some_iff.1 h
    cases h
    rw [(isSome_of_raise h₁).1]
    exact ⟨nofun, rfl⟩
  have hsuccess : ∀ (slot : Option Cell) (c : Cell) w,
      Run.Ensures (pure (.success (slot.map fun _ => c)) : Run σ ExecReply) d w (fun _ _ => True)
        fun r' _ => r'.status ≠ .error .sleep ∧ r'.slot.isSome = slot.isSome :=
    fun slot c w => .pure ⟨nofun, by cases slot <;> rfl⟩
  unfold settle
  split
  · refine .after fun s w₁ => ?_
    split
    · unfold route
      split
      · exact hreject _ _ _
      · exact hreject _ _ _
      · refine .after fun a w₂ => .after fun answer w₃ => ?_
        cases answer with
        | error why => exact hreject _ _ _
        | ok u => exact .after fun _ w₄ => hsuccess _ _ _
      · exact .after fun _ w₂ => .after fun _ w₃ => hsuccess _ _ _
    · exact hreject _ _ _
  · rename_i hr
    exact .pure ⟨fun h => hr h, rfl⟩

variable (hcalls : ∀ i slot index d w, (calls (.exec i slot index)).Ensures d w (fun _ _ => True) (Faithful i slot))
include hcalls

theorem faithful_passOn (k : SubsystemId) :
    (passOn calls k i slot index).Ensures d w (fun _ _ => True) (Faithful i slot) := by
  refine .after fun s w₁ => ?_
  split
  · refine .after fun _ w₂ => .after fun took w₃ => ?_
    refine .bind ((hcalls i slot index d w₃).mono_post fun r w₄ hr => ?_)
    refine .bind (.act (fun u w₅ h₅ => ?_) fun _ => trivial)
    refine .bind (.act (fun b w₆ h₆ => .pure ?_) fun _ => trivial)
    -- the hook and the callback go back, which removes no instance
    have hback : FramesStill k w₄ w₅ := Act.still_onMount k .exec _ h₅
    have hrestored : FramesStill k w₅ w₆ := Act.still_restoreCallback k i h₆
    exact hr.persists (hback.persists.trans hrestored.persists)
  · exact hcalls i slot index d w₁

/-- No intercepted call is suspended when it is over. -/
theorem awake_intercepted (k : SubsystemId) :
    (intercepted host calls k i slot index).Ensures d w (fun _ _ => True)
      fun r _ => r.status ≠ .error .sleep ∧ r.slot.isSome = slot.isSome := by
  have hframed : ∀ (slot' : Option Cell) index w, slot'.isSome = slot.isSome →
      (framed host calls k i slot' index).Ensures d w (fun _ _ => True)
        fun r _ => r.status ≠ .error .sleep ∧ r.slot.isSome = slot.isSome := by
    refine fun slot' index w hslot' => .after fun _ w₁ => ?_
    refine .bind ((faithful_passOn hcalls k).mono_post fun r w₂ hr => ?_)
    refine .bind ((awake_settle k r).mono_post fun r' w₃ hr' => ?_)
    exact .after fun _ _ => .pure ⟨hr'.1, hr'.2.trans (hr.place.trans hslot')⟩
  refine .after fun _ w₁ => .bind (.mono ?_ (fun _ _ h => h) fun r w₂ hr => .after fun _ _ => .pure hr)
  -- a handler may name a function to run instead, or answer itself
  split
  · refine .after fun handled w₂ => ?_
    have hplace : (slot.map fun c => handled.result.getD c).isSome = slot.isSome := Option.isSome_map ..
    split
    · exact .pure ⟨nofun, hplace⟩
    · rename_i name _
      refine .bind (.act (fun answer w₃ h => ?_) fun _ => trivial)
      have hanswer := Act.lookupPast_ne_sleep host.callbackIds k i name h
      cases answer with
      | error s => exact .pure ⟨fun hs => hanswer (by cases hs; rfl), hplace⟩
      | ok index => exact hframed _ index w₃ hplace
  · exact hframed slot index w₁ rfl

end

theorem faithful_enter (host : Host σ) (depth : Nat) (i : InstanceId) (slot : Option Cell) (index : Cell) (d : Activity)
    (w : World σ) : (enter host depth (.exec i slot index)).Ensures d w (fun _ _ => True) (Faithful i slot) := by
  induction depth generalizing i slot index d w with
  | zero => exact .under (.stop trivial)
  | succ depth ih =>
    refine .under (.bind (.world ?_))
    cases w.entry .exec with
    | plain => exact faithful_plainExec
    | detour k replaced =>
      -- an answer that is not suspended needs no instance
      exact (awake_intercepted ih k).mono_post fun r w' hr => ⟨hr.2, fun h => absurd h hr.1⟩

end Machine

end Interpose

import Interpose.Proofs.Discipline
import Interpose.Proofs.Hooks

/-!
# Runs with one hook layer

Where there is one hook layer, it is known of every execute call whether it is intercepted, and an intercepted call that
is passed on finds the hook in its slot, has it out of the slot for the time of the call, and puts it back. The rules
here follow a run through these parts of the machine, and ask for the rest.

Main statements: `Machine.ensures_exec` and `Machine.ensures_passOn`.
-/

namespace Interpose

open World

variable {σ α : Type}

/-! ## A layer that was just made -/

section

variable (instances : Array Instance) (resumer : Resumer) (state : σ) (config : Config) (collaborators : Collaborators)

theorem World.sound_single : Sound ⟨0⟩ (World.single instances resumer state config collaborators) := by
  refine ⟨fun l hl => ?_, _, rfl, ⟨rfl, rfl, nofun, rfl⟩⟩
  refine Array.getElem?_eq_none (Nat.pos_of_ne_zero fun h => hl ?_)
  exact subsystemId_eq.1 h

/-- Its hook is switched off. -/
theorem World.settled_single : Settled ⟨0⟩ (World.single instances resumer state config collaborators) := by
  rintro s ⟨⟩
  rfl

end

namespace Machine

/-! ## Rules for parts of the machine -/

variable {k : SubsystemId} {host : Host σ} {calls : Calls σ} {d : Activity} {w : World σ}
  {moment : Activity → World σ → Prop}

/-- While a run keeps its layer going, one call more is counted. -/
theorem ensures_holding {r : Run σ α} {post : α → World σ → Prop} (hhere : moment d w)
    (h : ∀ w₁, Counted k (· + 1) w w₁ → r.Ensures d w₁ moment fun a w₂ =>
      moment d w₂ ∧ ∀ w₃, Counted k (· - 1) w₂ w₃ → post a w₃) :
    (holding k r).Ensures d w moment post := by
  refine .bind (.act (fun u w₁ h₁ => ?_) fun _ => hhere)
  refine .bind ((h w₁ (Act.counted_onSubsystem h₁)).mono_post fun a w₂ h₂ => ?_)
  obtain ⟨hmoment, hpost⟩ := h₂
  exact .bind (.act (fun u w₃ h₃ => .pure (hpost w₃ (Act.counted_onSubsystem h₃))) fun _ => hmoment)

/-- An execute call is intercepted by the layer, or it reaches the machine's own entry. -/
theorem ensures_exec {i : InstanceId} {slot : Option Cell} {index : Cell} {post : ExecReply → World σ → Prop}
    (hw : Sound k w) (hplain : (plainExec host calls i slot index).Ensures d w moment post)
    (hintercepted : (intercepted host calls k i slot index).Ensures d w moment post) :
    (exec host calls i slot index).Ensures d w moment post := by
  refine .bind (.world ?_)
  obtain ⟨s, hs, -⟩ := hw.hook
  cases hattached : s.hooks.exec.attached with
  | false =>
    rw [hw.entry_of_out hs hattached]
    exact hplain
  | true =>
    rw [hw.entry_of_attached hs hattached]
    cases w.isAlive k with
    | false => exact hplain
    | true => exact hintercepted

/-- A call is passed on as it is, or the hook is taken out of its slot for it and settled afterwards. -/
theorem ensures_passOn {i : InstanceId} {slot : Option Cell} {index : Cell} {post : ExecReply → World σ → Prop}
    (hw : Sound k w) (hhere : moment d w) (hplain : (calls (.exec i slot index)).Ensures d w moment post)
    (hout : ∀ w₁ w₂, Act.swapCallback k i (.intercept k) w = some ((), w₁) →
      Act.borrow k .exec w₁ = some (true, w₂) → Sound k w₂ →
      (∀ s, w₂.subsystem? k = some s → s.hooks.exec.attached = false) →
      (calls (.exec i slot index)).Ensures d w₂ moment fun r w₃ => Sound k w₃ ∧
        ∀ w₄, Act.giveBack k .exec true w₃ = some ((), w₄) → Sound k w₄ → Settled k w₄ → moment d w₄ ∧
          ∀ restored w₅, Act.restoreCallback k i w₄ = some (restored, w₅) → post r w₅)
    (hswapped : ∀ w₁, Act.swapCallback k i (.intercept k) w = some ((), w₁) → moment d w₁) :
    (passOn calls k i slot index).Ensures d w moment post := by
  obtain ⟨s, hs, -⟩ := hw.hook
  have hget : Act.getSubsystem k w = some (s, w) := congrArg (Option.map _) hs
  refine .bind (.act_eq hget ?_)
  split
  · rename_i hattached
    refine .bind (.act (fun u w₁ h₁ => ?_) fun _ => hhere)
    have hw₁ : Sound k w₁ := (Act.hookKept_swapCallback k i _ h₁).sound hw
    obtain ⟨c, -, -, -, -, hhooks⟩ := Act.swapCallback_spec h₁
    refine .bind (.act (fun took w₂ h₂ => ?_) fun _ => hswapped w₁ h₁)
    -- nothing but callbacks has changed, so the hook was still in its slot
    rw [hs] at hhooks
    obtain ⟨s₁, hs₁, hhook₁⟩ := Option.map_eq_some_iff.1 hhooks
    have hattached₁ : s₁.hooks.exec.attached = true := by
      rw [hhook₁]
      exact hattached
    obtain ⟨htook, hw₂, hempty⟩ := Act.borrow_spec hw₁ hs₁ hattached₁ h₂
    subst htook
    refine .bind ((hout w₁ w₂ h₁ h₂ hw₂ hempty).mono_post fun r w₃ h₃ => ?_)
    obtain ⟨hw₃, hrest⟩ := h₃
    -- whether a native was called or not, the hook goes back
    refine .bind (.act (fun u w₄ h₄ => ?_) fun hnone => absurd hnone (Act.onMount_ne_none hw₃))
    obtain ⟨hw₄, hsettled₄⟩ := Act.giveBack_spec hw₃ h₄
    obtain ⟨hmoment, hpost⟩ := hrest w₄ h₄ hw₄ hsettled₄
    exact .bind (.act (fun restored w₅ h₅ => .pure (hpost restored w₅ h₅)) fun _ => hmoment)
  · exact hplain

end Machine

end Interpose

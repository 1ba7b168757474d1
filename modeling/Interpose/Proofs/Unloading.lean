import Interpose.Proofs.CallDepth
import Interpose.Proofs.Forgetting
import Interpose.Proofs.Suspension

/-!
# Unloading in the middle of calls

An instance may be unloaded at any time, also while calls of it are under way, however deep they nest. These calls have no
frame from then on, and calls that begin later open new ones in the place where the old ones were. No call takes a frame
of another one for its own: a call that lost its frame finds none when it comes back, since whatever was opened after the
unloading is closed by then. So if it comes back suspended, nobody is told of the suspension and the call fails; and at its
end it closes nothing. The calls that began later go by their own frames as ever.

Main statement: `Machine.unloads_safely`.
-/

namespace Interpose.Machine

open World

variable {σ : Type} {k : SubsystemId} {i : InstanceId}

/-! ## Calls that lost their frames -/

section

variable {host : Host σ} {calls : Calls σ} {slot : Option Cell} {index : Cell} {d : Activity} {w₀ w₁ w' : World σ}
  {fuel left : Nat} {r : ExecReply}

/-- Without a frame, a suspended call fails, and all that is told is that there was none. -/
theorem EndsWith.of_lost {o : Outcome σ ExecReply} {log : List Event} {systems : σ × Tasks} {error : Option Status}
    {reply : ExecReply} (hnone : w₁.frames k i = []) (h : EndsWith k i o w₁ left log systems error reply) :
    ∃ w', o = .done reply w' left ∧ (w'.instance? i).map Instance.error = some error ∧
      w'.events = w₁.events ++ log ++ [.notice (.popWithoutFrame i), .left k i] := by
  obtain ⟨w', ho, hevents, -, herror⟩ := h
  rw [hnone] at hevents
  exact ⟨w', ho, herror, hevents⟩

end

/-! ## The law -/

/-- How calls through layer `k` come back whose instances may have been unloaded in the meantime. -/
structure SurvivesUnloading (host : Host σ) (k : SubsystemId) : Prop where
  /-- A call that opened a frame has it at every moment before it closes it, whatever happens in it, as long as its instance
  is not unloaded. -/
  there : ∀ (depth : Nat) {i : InstanceId} (slot : Option Cell) (index : Cell) (d : Activity) {v v₀ : World σ},
    openFrame k i v = some ((), v₀) → ∀ (fuel : Nat) {u : World σ},
    ((passOn (enter host depth) k i slot index >>= settle host (enter host depth) k i) d v₀ fuel).world = u →
    ∃ es, u.events = v₀.events ++ es ∧
      (¬ Unloaded k i es → ∃ above f, u.frames k i = above ++ f :: v.frames k i)
  /-- A call that was passed on and comes back suspended: if its instance was unloaded since its frame was opened, it fails
  with the status `invalidState`, which is recorded, and neither the task system nor the thread system is told of it; if
  not, its own frame is the innermost one and says what becomes of it. Whatever calls were made in between, and whether the
  instance was unloaded before, does not matter. -/
  suspended : ∀ (depth : Nat) {i : InstanceId} {slot slot' : Option Cell} {index index' : Cell} {d : Activity}
    {w v v₀ : World σ} {fuel fuel' : Nat},
    OpensFrame host (enter host depth) k i slot index d w fuel slot' index' v fuel' → openFrame k i v = some ((), v₀) →
    ∀ {r : ExecReply} {w₁ : World σ} {left : Nat},
    passOn (enter host depth) k i slot' index' d v₀ fuel' = .done r w₁ left → r.status = .error .sleep →
    ∃ es, w₁.events = v₀.events ++ es ∧
      (Unloaded k i es → ∃ w', intercepted host (enter host depth) k i slot index d w fuel =
          .done (.failure .invalidState r.slot) w' left ∧
        (w'.instance? i).map Instance.error = some (some .invalidState) ∧
        w'.events = w₁.events ++ [.notice (.contextLost i)] ++ [.notice (.popWithoutFrame i), .left k i]) ∧
      (¬ Unloaded k i es → ∃ f, FrameChange.ownFrame 0 .fresh (frameChanges k i es) = some f ∧
        w₁.frames k i = f :: v.frames k i ∧ Routes host (enter host depth) k i slot' r d w₁ left
          (intercepted host (enter host depth) k i slot index d w fuel) (some f))
  /-- When a call is over, however it went, as many calls are counted as before it. Its end closes the frame that it opened
  itself and no other, or none at all if the instance was unloaded since. -/
  returns : ∀ (depth : Nat) {i : InstanceId} {slot slot' : Option Cell} {index index' : Cell} {d : Activity}
    {w v v₀ : World σ} {fuel fuel' : Nat},
    OpensFrame host (enter host depth) k i slot index d w fuel slot' index' v fuel' → openFrame k i v = some ((), v₀) →
    ∀ {r : ExecReply} {w' : World σ} {left : Nat},
    intercepted host (enter host depth) k i slot index d w fuel = .done r w' left →
    w'.execDepth k = w.execDepth k ∧ ∃ w₁ es,
      (passOn (enter host depth) k i slot' index' >>= settle host (enter host depth) k i) d v₀ fuel' = .done r w₁ left ∧
      closeCall k i w₁ = some ((), w') ∧ w₁.events = v₀.events ++ es ∧
      (Unloaded k i es → w₁.frames k i = [] ∧ w'.frames k i = []) ∧
      (¬ Unloaded k i es → (∃ f, w₁.frames k i = f :: v.frames k i) ∧ w'.frames k i = v.frames k i) ∧
      ∀ j, j ≠ i → w'.frames k j = w₁.frames k j

/-- What comes of unloading instances from layer `k`, whenever that happens. -/
structure UnloadsSafely (host : Host σ) (k : SubsystemId) : Prop where
  /-- Unloading is complete and local, whatever is under way. -/
  forgets : ∀ {w : World σ} {s : Subsystem}, w.subsystem? k = some s → ∀ i,
    ∃ w', Act.unload k i w = some ((), w') ∧ Unloads k i w w'
  /-- Between two moments of a run something happened, and whatever it was: if the journal tells that an instance was
  unloaded, its pool was told, and in the end no address of the pool leads the instance anywhere that was not given to it
  after that. -/
  unaddressed : ∀ {α : Type} (p : Program σ α) (depth : Nat) (d : Activity) (w : World σ) {n m : Nat}, n ≤ m →
    ∀ {v v' : World σ}, (p.run host (enter host depth) d w n).world = v → (p.run host (enter host depth) d w m).world = v' →
    (∃ hs, Since k v hs v') ∧ ∀ {hs}, Since k v hs v' → ∀ {told rest i kept},
      v'.events = v.events ++ (told ++ .unloaded k i kept :: rest) →
      ∃ before later, hs = before ++ .unloaded i kept :: later ∧ before.filterMap (Happening.event? k) = told ∧
        ∀ address, (∀ first id part others, later = first ++ .pooled (.bind i id part) :: others →
          (((v.pool k).after (Happening.actions (before ++ .unloaded i kept :: first))).perform (.bind i id part)).1 ≠
            .ok address) →
        (v'.pool k).resolve? i address = none
  /-- Calls that are under way come back safely, if host code leaves the frames of the layer to it. -/
  calls : host.UsesOnly (.operations (Operation.leavesFrames k)) → SurvivesUnloading host k

/-- Whatever is opened in a call is closed when it comes back, so what an unloading takes away from under a call is not
replaced by anything. -/
theorem survivesUnloading {host : Host σ} (hhost : host.UsesOnly (.operations (Operation.leavesFrames k))) :
    SurvivesUnloading host k where
  there depth i slot index d v v₀ hopen fuel u hu := by
    subst hu
    obtain ⟨es, htells, hnested⟩ :=
      ((regimeOfFrames hhost).inside (keepsFrames_enter hhost depth) k i slot index).begun d v₀ fuel
    obtain ⟨m, hm⟩ := hnested i
    exact ⟨es, htells.journal, fun hi => htells.kept hm (frames_of_openFrame hopen) hi⟩
  suspended depth i slot slot' index index' d w v v₀ fuel fuel' hopens hopen r w₁ left hinner hsleep := by
    obtain ⟨es, htells, hnested, hthere, hsleeper, hplace, hrest⟩ :=
      inFrame_suspended hhost (isSome_of_openFrame hopen) hinner hsleep
    have hroutes : Routes host (enter host depth) k i slot' r d w₁ left
        (intercepted host (enter host depth) k i slot index d w fuel) (w₁.frames k i).head? := by
      -- what becomes of the suspension is up to the frame that is innermost now
      rw [hopens.intercepted hopen, hrest]
      exact routes_settleAndClose hhost (keepsFrames_enter hhost depth) hthere hsleeper hsleep hplace
    have hopened := frames_of_openFrame hopen
    refine ⟨es, htells.journal, ?_⟩
    -- the calls that were begun in this one are over, so that is the frame of this one, or there is none
    rcases htells.own (hnested i) hopened with ⟨-, hi, hframes⟩ | ⟨f, hown, hi, hframes⟩
    · rw [hframes] at hroutes
      exact ⟨fun _ => EndsWith.of_lost hframes hroutes, fun hnot => absurd hi hnot⟩
    · rw [hframes] at hroutes
      exact ⟨fun hunloaded => absurd hunloaded hi, fun _ => ⟨f, hown, hframes, hroutes⟩⟩
  returns depth i slot slot' index index' d w v v₀ fuel fuel' hopens hopen r w' left hdone := by
    refine ⟨execDepth_intercepted host depth hdone, ?_⟩
    rw [hopens.intercepted hopen] at hdone
    obtain ⟨w₁, hinside, hclose⟩ := done_of_inFrame hdone
    obtain ⟨es, htells, hnested, -⟩ :=
      ((regimeOfFrames hhost).inside (keepsFrames_enter hhost depth) k i slot' index' d v₀).of_done hinside
    have hopened := frames_of_openFrame hopen
    -- the same holds right before the call is closed
    obtain ⟨hkept, hlost⟩ := htells.innermost (hnested i) hopened
    have hclosed := frames_closeCall hclose
    refine ⟨w₁, es, hinside, hclose, htells.journal, fun hi => ⟨hlost hi, ?_⟩, fun hi => ⟨hkept hi, ?_⟩, fun j hj => ?_⟩
    · rw [hclosed, if_pos rfl, hlost hi, List.tail_nil]
    · obtain ⟨f, hf⟩ := hkept hi
      rw [hclosed, if_pos rfl, hf, List.tail_cons]
    · rw [hclosed, if_neg hj]

/-- Whatever the host does, and whenever it has instances unloaded. -/
theorem unloads_safely (host : Host σ) (k : SubsystemId) : UnloadsSafely host k where
  forgets hs i := Act.unload_spec hs i
  unaddressed p depth d w n m hnm v v' hv hv' := by
    subst hv hv'
    refine ⟨since_moments host k p depth d w hnm, fun hsince told rest i kept htold => ?_⟩
    obtain ⟨before, later, rfl, hbefore, -⟩ := hsince.exists_of_unloaded htold
    exact ⟨before, later, rfl, hbefore, fun address hnever => hsince.resolve?_of_unloaded hnever⟩
  calls := survivesUnloading

/-! ## An instance that is unloaded in a native -/

/-- Each of the two functions of a script calls a native and is suspended after that. What the natives do is given by
lists of operations, and after its own the first native executes the second function. -/
def unloadingHost (outer inner : List Operation) : Host Unit :=
  let inTurn (os : List Operation) : Program Unit Unit := os.forM fun o => do
    let _ ← Program.perform o
  { Host.scripted fun code i => .call i (.ofNat code.number) [] fun _ => .done (.error .sleep) with
    native := fun code i _ =>
      if code = ⟨0⟩ then do
        inTurn outer
        let _ ← Program.executeInto i none 1
        .done (.ok 0)
      else do
        inTurn inner
        .done (.ok 0) }

/-- A world in which that script is loaded, and every hook is switched on. -/
def unloadingWorld : World Unit :=
  let setUp : Program Unit Unit := do
    let i ← Program.perform (.newInstance 4)
    let _ ← Program.perform (.addFunction i "outer" ⟨0⟩)
    let _ ← Program.perform (.addFunction i "inner" ⟨1⟩)
    let _ ← Program.perform (.addNative i "outer" ⟨0⟩)
    let _ ← Program.perform (.addNative i "inner" ⟨1⟩)
    let _ ← Program.perform (.installAll ⟨0⟩)
  (setUp.runIn (unloadingHost [] []) 9 (.single #[] .drop () .standard ⟨.host, .unsupported, .unsupported⟩)).world

/-- The tasks that the task system was asked to wait for, in order. -/
def tasksAskedFor (es : List Event) : List TaskId :=
  es.filterMap fun
    | .registered _ task _ => some task
    | _ => none

/-- The first native has the instance unloaded, and the second asks for it to wait. -/
abbrev unloadAndNest : Host Unit :=
  unloadingHost [.unload ⟨0⟩ ⟨0⟩] [.requestAwait ⟨0⟩ ⟨0⟩ ⟨1⟩ 1]

theorem unloads_safely_nested :
    ∃ v v₀ r w₁ left es w', openFrame ⟨0⟩ ⟨0⟩ v = some ((), v₀) ∧
      passOn (enter unloadAndNest 9) ⟨0⟩ ⟨0⟩ (some 0) 0 .outside v₀ 20 = .done r w₁ left ∧
      r.status = .error .sleep ∧ w₁.events = v₀.events ++ es ∧ Unloaded ⟨0⟩ ⟨0⟩ es ∧ tasksAskedFor es = [⟨1⟩] ∧
      intercepted unloadAndNest (enter unloadAndNest 9) ⟨0⟩ ⟨0⟩ (some 0) 0 .outside unloadingWorld 20 =
        .done (.failure .invalidState r.slot) w' left ∧
      w'.events = w₁.events ++ [.notice (.contextLost ⟨0⟩)] ++ [.notice (.popWithoutFrame ⟨0⟩), .left ⟨0⟩ ⟨0⟩] := by
  have hhost : unloadAndNest.UsesOnly (.operations (Operation.leavesFrames ⟨0⟩)) := by
    refine ⟨fun code i => ⟨trivial, fun _ => trivial⟩, fun code i params => ?_, fun _ _ _ _ => trivial,
      fun _ _ _ _ => trivial, fun _ _ _ => trivial⟩
    show Program.Uses _ (ite _ _ _)
    split
    · exact ⟨trivial, fun _ => ⟨trivial, fun _ => trivial⟩⟩
    · exact ⟨trivial, fun _ => trivial⟩
  have hindex : ExecIndex.IsPublic 0 := fun id h => nomatch h
  have hruns : (Act.onSubsystem ⟨0⟩ (fun s => ((), { s with holds := s.holds + 1 })) unloadingWorld).any (fun held =>
      (openFrame ⟨0⟩ ⟨0⟩ held.2).any fun opened =>
        (passOn (enter unloadAndNest 9) ⟨0⟩ ⟨0⟩ (some 0) 0 .outside opened.2 20).done?.any fun m =>
          m.1.isSuspended && decide (Event.unloaded ⟨0⟩ ⟨0⟩ false ∈ m.2.events.drop opened.2.events.length ∧
            tasksAskedFor (m.2.events.drop opened.2.events.length) = [⟨1⟩])) = true := by
    decide +kernel
  obtain ⟨⟨_, v⟩, hhold, hruns⟩ := (Option.any_eq_true _ _).1 hruns
  obtain ⟨⟨_, v₀⟩, hopen, hinner⟩ := (Option.any_eq_true _ _).1 hruns
  obtain ⟨r, w₁, left, hinner, hsuspended⟩ := Outcome.exists_done hinner
  simp only [Bool.and_eq_true, decide_eq_true_eq] at hsuspended
  obtain ⟨hsleep, hunloaded, htasks⟩ := hsuspended
  have hsleep := ExecReply.isSuspended_iff.1 hsleep
  obtain ⟨es, hes, hlost, -⟩ :=
    ((unloads_safely _ ⟨0⟩).calls hhost).suspended 9 (.atOnce hindex hhold) hopen hinner hsleep
  rw [hes, List.drop_left] at hunloaded htasks
  obtain ⟨w', hdone, -, hevents⟩ := hlost ⟨_, hunloaded⟩
  exact ⟨v, v₀, r, w₁, left, es, w', hopen, hinner, hsleep, hes, ⟨_, hunloaded⟩, htasks, hdone, hevents⟩

/-- Whether the call of the first function has an answer of that status after its instance was unloaded, the task system
having been asked to wait for those tasks. -/
def answersAfterUnloading (outer inner : List Operation) (status : Except Status Unit) (asked : List TaskId) : Bool :=
  let host := unloadingHost (.unload ⟨0⟩ ⟨0⟩ :: outer) (.requestAwait ⟨0⟩ ⟨0⟩ ⟨1⟩ 1 :: inner)
  (intercepted host (enter host 9) ⟨0⟩ ⟨0⟩ (some 0) 0 .outside unloadingWorld 20).done?.any fun m =>
    decide (m.1.status = status ∧ Event.unloaded ⟨0⟩ ⟨0⟩ false ∈ m.2.events ∧ tasksAskedFor m.2.events = asked)

/-- Where frames are changed by hand it is otherwise. With a frame that was pushed by hand, a call whose instance was
unloaded is suspended all the same: it succeeds, and the task system is asked. And a call that began only after the
unloading fails, and the task system is not asked, if its frame was popped, overwritten or removed by hand. -/
theorem unloads_safely_meddling :
    answersAfterUnloading [.pushFrame ⟨0⟩ ⟨0⟩, .requestAwait ⟨0⟩ ⟨0⟩ ⟨2⟩ 1] [] (.ok ()) [⟨1⟩, ⟨2⟩] = true ∧
      ∀ o ∈ [.popFrame ⟨0⟩ ⟨0⟩, .setFrame ⟨0⟩ ⟨0⟩ .fresh, .removeFrames ⟨0⟩ ⟨0⟩],
        answersAfterUnloading [] [o] (.error .invalidState) [] = true := by
  decide +kernel

end Interpose.Machine

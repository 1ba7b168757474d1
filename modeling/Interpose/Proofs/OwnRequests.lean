import Interpose.Proofs.FrameHistory

/-!
# The requests made in a call itself

Of the requests to suspend that are made during a call, those that are made while a call within it is open go to the frame
of that one. The others are the call's own (`ownRequests`), and they alone decide what its frame is in the end.

Main statements: `ownFrame_eq_some`, and `ownRequests_append` for parts of the journal.
-/

namespace Interpose

open FrameChange

variable {k : SubsystemId} {i : InstanceId} {f f' : Frame} {es : List Event}

/-- What a request writes into the frame it goes to. -/
def Event.requested (f : Frame) : Event → Frame
  | .awaitRequested _ _ task result _ => f.await task result
  | .detachRequested _ _ marker result _ => f.detach marker result
  | _ => f

/-- The requests for an instance that are made while no call is open above, if `n` calls were open before. -/
def ownRequests (k : SubsystemId) (i : InstanceId) : (n : Nat) → List Event → List Event
  | _, [] => []
  | n, e :: es =>
    match e.frameChange k i with
    | .opened => ownRequests k i (n + 1) es
    | .closed => ownRequests k i (n - 1) es
    | .asked _ => if n = 0 then e :: ownRequests k i 0 es else ownRequests k i n es
    | _ => ownRequests k i n es

theorem change_eq_requested {e : Event} {change : Frame → Frame} (h : e.frameChange k i = .asked change) (f : Frame) :
    change f = e.requested f := by
  cases e with
  | awaitRequested l j task result s =>
    simp only [Event.frameChange] at h
    split at h
    · cases h
      rfl
    · cases h
  | detachRequested l j marker result s =>
    simp only [Event.frameChange] at h
    split at h
    · cases h
      rfl
    · cases h
  | entered | left | unloaded =>
    simp only [Event.frameChange] at h
    split at h <;> cases h
  | _ => cases h

/-! ## Parts of the journal -/

/-- The requests of a later part go by the calls that are open after the earlier one. -/
theorem ownRequests_append {n m : Nat} (h : nested? n (frameChanges k i es) = some m) (es' : List Event) :
    ownRequests k i n (es ++ es') = ownRequests k i n es ++ ownRequests k i m es' := by
  -- both count the open calls in the same way, but `nested?` stops where a call is closed that is not open
  induction es generalizing n with
  | nil =>
    cases h
    rfl
  | cons e es ih =>
    have hcons : frameChanges k i (e :: es) = e.frameChange k i :: frameChanges k i es := rfl
    rw [hcons] at h
    rw [List.cons_append, ownRequests, ownRequests]
    cases hchange : e.frameChange k i with
    | opened =>
      rw [hchange] at h
      exact ih h
    | closed =>
      rw [hchange] at h
      cases n with
      | zero => cases h
      | succ n => exact ih h
    | asked change =>
      rw [hchange, nested?] at h
      cases n with
      | zero => exact congrArg (e :: ·) (ih h)
      | succ n => exact ih h
    | dropped =>
      rw [hchange, nested?] at h
      exact ih h
    | none =>
      rw [hchange, nested?] at h
      exact ih h

/-- While a call is open that is not closed, all requests go to it or to those that are open above it. -/
theorem ownRequests_enclosed {n m : Nat} (h : nested? n (frameChanges k i es) = some m) :
    ownRequests k i (n + 1) es = [] := by
  -- one more call is open than `nested?` counts, so the count never comes down to none
  induction es generalizing n with
  | nil => rfl
  | cons e es ih =>
    have hcons : frameChanges k i (e :: es) = e.frameChange k i :: frameChanges k i es := rfl
    rw [hcons] at h
    unfold ownRequests
    cases hchange : e.frameChange k i with
    | opened =>
      rw [hchange] at h
      exact ih h
    | closed =>
      rw [hchange] at h
      cases n with
      | zero => cases h
      | succ n => exact ih h
    | asked change =>
      rw [hchange, nested?] at h
      exact ih h
    | dropped =>
      rw [hchange, nested?] at h
      exact ih h
    | none =>
      rw [hchange, nested?] at h
      exact ih h

theorem ownRequests_silent {n : Nat} (h : Silent k es) : ownRequests k i n es = [] := by
  induction es with
  | nil => rfl
  | cons e es ih =>
    unfold ownRequests
    rw [h e (List.mem_cons_self ..) i]
    exact ih fun e' he => h e' (List.mem_cons_of_mem e he)

/-! ## What the requests make of a frame -/

/-- A frame that was not dropped is what the requests made of it, one after another. -/
theorem ownFrame_eq_some {n : Nat} (h : ownFrame n f (frameChanges k i es) = some f') :
    f' = (ownRequests k i n es).foldl Event.requested f := by
  induction es generalizing n f with
  | nil =>
    have hsame : ownFrame n f [] = some f := by cases n <;> rfl
    exact (Option.some.inj (hsame.symm.trans h)).symm
  | cons e es ih =>
    have hcons : frameChanges k i (e :: es) = e.frameChange k i :: frameChanges k i es := rfl
    rw [hcons] at h
    unfold ownRequests
    cases hchange : e.frameChange k i with
    | opened =>
      rw [hchange, ownFrame] at h
      exact ih h
    | closed =>
      rw [hchange, ownFrame] at h
      exact ih h
    | asked change =>
      rw [hchange] at h
      cases n with
      | zero =>
        rw [ownFrame, change_eq_requested hchange] at h
        exact ih h
      | succ n =>
        rw [ownFrame] at h
        exact ih h
    | dropped =>
      rw [hchange, ownFrame] at h
      cases h
    | none =>
      rw [hchange, ownFrame] at h
      exact ih h

/-- A call that asked last to wait for a task waits for it. -/
theorem ownFrame_of_awaitRequested {n : Nat} {task : TaskId} {result : Cell} {s : Status} {l : SubsystemId}
    {j : InstanceId} (h : ownFrame n f (frameChanges k i es) = some f')
    (hlast : (ownRequests k i n es).getLast? = some (.awaitRequested l j task result s)) :
    ∃ reclaim, f' = ⟨.await, result, some task, reclaim⟩ := by
  obtain ⟨before, hbefore⟩ := List.getLast?_eq_some_iff.1 hlast
  refine ⟨(before.foldl Event.requested f).reclaim, ?_⟩
  rw [ownFrame_eq_some h, hbefore, List.foldl_append]
  rfl

end Interpose

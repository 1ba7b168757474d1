import Interpose.Proofs.Worlds

/-!
# The history of a frame stack

The journal tells when a call was given a frame and when it was over, which suspensions were asked for, and which
instances were forgotten. For the frames that one hook layer has for one instance, each entry is a `FrameChange`, and the
frames after a part of the journal are those before it, *replayed*.

A call has ended all calls that were made in it before it ends itself. In the journal between the beginning and the end
of a call, no call is therefore closed that was not opened there: `nested?` counts the calls that are open. This is all
that is needed to know what becomes of the frame of the call and of the frames below it.

Main statements:

* `replay_kept`: unless the instance is forgotten, the frames below the call's own stay as they are, and its own is what
  `ownFrame` makes of it;
* `length_replay_of_dropped`: once the instance was forgotten, there are no more frames than calls begun since.
-/

namespace Interpose

/-- What an entry of the journal means for the frames that a layer has for an instance. -/
inductive FrameChange
  /-- A frame is opened. -/
  | opened
  /-- The innermost frame is closed. -/
  | closed
  /-- The innermost frame is written into. -/
  | asked (change : Frame → Frame)
  /-- All frames are dropped. -/
  | dropped
  /-- Nothing happens to them. -/
  | none

namespace FrameChange

/-- The frames after a change. Where there is no frame, none is closed or written into. -/
def apply : FrameChange → List Frame → List Frame
  | opened, fs => .fresh :: fs
  | closed, fs => fs.tail
  | asked change, fs => fs.modifyHead change
  | dropped, _ => []
  | none, fs => fs

/-- The frames after changes in a row. -/
def replay (cs : List FrameChange) (fs : List Frame) : List Frame :=
  cs.foldl (fun fs c => c.apply fs) fs

/-- How many calls are open after the changes, if `n` were open before; none if a call was closed that was not open. -/
def nested? : (n : Nat) → List FrameChange → Option Nat
  | n, [] => some n
  | n, opened :: cs => nested? (n + 1) cs
  | n + 1, closed :: cs => nested? n cs
  | 0, closed :: _ => Option.none
  | n, asked _ :: cs => nested? n cs
  | n, dropped :: cs => nested? n cs
  | n, none :: cs => nested? n cs

/-- What the changes make of one frame with `n` calls open above it: only what is asked for while no call is open above
it is written into it. It is gone once the frames were dropped. -/
def ownFrame : (n : Nat) → Frame → List FrameChange → Option Frame
  | _, f, [] => some f
  | n, f, opened :: cs => ownFrame (n + 1) f cs
  | n, f, closed :: cs => ownFrame (n - 1) f cs
  | 0, f, asked change :: cs => ownFrame 0 (change f) cs
  | n + 1, f, asked _ :: cs => ownFrame (n + 1) f cs
  | _, _, dropped :: _ => Option.none
  | n, f, none :: cs => ownFrame n f cs

/-! ## Laws of counting and replaying -/

theorem replay_append (cs ds : List FrameChange) (fs : List Frame) :
    replay (cs ++ ds) fs = replay ds (replay cs fs) :=
  List.foldl_append

theorem nested?_append (cs ds : List FrameChange) (n : Nat) :
    nested? n (cs ++ ds) = (nested? n cs).bind fun m => nested? m ds := by
  induction cs generalizing n with
  | nil => rfl
  | cons c cs ih =>
    cases c with
    | opened => exact ih (n + 1)
    | closed =>
      cases n with
      | zero => rfl
      | succ n => exact ih n
    | asked change => exact ih n
    | dropped => exact ih n
    | none => exact ih n

/-- Calls that were open before do not matter to those that are opened and closed later. -/
theorem nested?_add {n m : Nat} {cs : List FrameChange} (h : nested? n cs = some m) (p : Nat) :
    nested? (n + p) cs = some (m + p) := by
  induction cs generalizing n with
  | nil =>
    cases h
    rfl
  | cons c cs ih =>
    cases c with
    | opened =>
      rw [nested?, Nat.add_right_comm]
      exact ih h
    | closed =>
      cases n with
      | zero => cases h
      | succ n =>
        rw [Nat.add_right_comm, nested?]
        exact ih h
    | asked change =>
      rw [nested?]
      exact ih (by rwa [nested?] at h)
    | dropped =>
      rw [nested?]
      exact ih (by rwa [nested?] at h)
    | none =>
      rw [nested?]
      exact ih (by rwa [nested?] at h)

/-- Unless the frames are dropped, those below a call's own stay as they are, its own becomes what `ownFrame` makes of
it, and above it there is a frame for every call that is open. -/
theorem replay_kept {n m : Nat} {cs : List FrameChange} (hdropped : dropped ∉ cs) (h : nested? n cs = some m)
    (xs : List Frame) (hxs : xs.length = n) (f : Frame) (fs : List Frame) :
    ∃ ys f', ys.length = m ∧ ownFrame n f cs = some f' ∧ replay cs (xs ++ f :: fs) = ys ++ f' :: fs := by
  -- along the changes, `xs` stays as long as the count of open calls
  induction cs generalizing n xs f with
  | nil =>
    cases h
    exact ⟨xs, f, hxs, by cases m <;> rfl, rfl⟩
  | cons c cs ih =>
    have hrest : dropped ∉ cs := fun hm => hdropped (List.mem_cons_of_mem c hm)
    cases c with
    | opened => exact ih hrest h (.fresh :: xs) (by simp [hxs]) f
    | closed =>
      cases n with
      | zero => cases h
      | succ n =>
        -- a call is open, so the frame that is closed is not the call's own
        obtain ⟨x, xs, rfl⟩ := List.exists_cons_of_length_eq_add_one hxs
        exact ih hrest h xs (by simpa using hxs) f
    | asked change =>
      rw [nested?] at h
      cases n with
      | zero =>
        -- no call is open, so the request goes to the call's own frame
        obtain rfl := List.length_eq_zero_iff.1 hxs
        exact ih hrest h [] rfl (change f)
      | succ n =>
        obtain ⟨x, xs, rfl⟩ := List.exists_cons_of_length_eq_add_one hxs
        exact ih hrest h (change x :: xs) (by simpa using hxs) f
    | dropped => exact absurd (List.mem_cons_self ..) hdropped
    | none =>
      rw [nested?] at h
      obtain ⟨ys, f', hys, hown, hreplay⟩ := ih hrest h xs hxs f
      refine ⟨ys, f', hys, ?_, hreplay⟩
      cases n <;> exact hown

/-- If there are no more frames than open calls, there never are. -/
theorem length_replay_le {n m : Nat} {cs : List FrameChange} (h : nested? n cs = some m) (xs : List Frame)
    (hxs : xs.length ≤ n) : (replay cs xs).length ≤ m := by
  induction cs generalizing n xs with
  | nil =>
    cases h
    exact hxs
  | cons c cs ih =>
    cases c with
    | opened => exact ih h (.fresh :: xs) (by simpa using hxs)
    | closed =>
      cases n with
      | zero => cases h
      | succ n => exact ih h xs.tail (by rw [List.length_tail]; omega)
    | asked change =>
      rw [nested?] at h
      cases xs with
      | nil => exact ih h [] hxs
      | cons x xs => exact ih h (change x :: xs) hxs
    | dropped =>
      rw [nested?] at h
      exact ih h [] (Nat.zero_le n)
    | none =>
      rw [nested?] at h
      exact ih h xs hxs

/-- Once the frames were dropped, there are no more of them than calls that are open. -/
theorem length_replay_of_dropped {n m : Nat} {cs : List FrameChange} (hdropped : dropped ∈ cs)
    (h : nested? n cs = some m) (xs : List Frame) : (replay cs xs).length ≤ m := by
  -- after the first drop there is no frame, whatever there was before
  obtain ⟨before, after, rfl⟩ := List.append_of_mem hdropped
  rw [nested?_append] at h
  obtain ⟨p, -, h⟩ := Option.bind_eq_some_iff.1 h
  rw [replay_append]
  rw [nested?] at h
  exact length_replay_le h [] (Nat.zero_le p)

/-- A frame that was dropped is gone. -/
theorem ownFrame_of_dropped {n : Nat} {cs : List FrameChange} (hdropped : dropped ∈ cs) (f : Frame) :
    ownFrame n f cs = Option.none := by
  induction cs generalizing n f with
  | nil => cases hdropped
  | cons c cs ih =>
    cases c with
    | dropped => cases n <;> rfl
    | opened => exact ih (by simpa using hdropped) f
    | closed =>
      rw [ownFrame]
      exact ih (by simpa using hdropped) f
    | asked change =>
      have hrest : dropped ∈ cs := by simpa using hdropped
      cases n with
      | zero => exact ih hrest (change f)
      | succ n => exact ih hrest f
    | none =>
      rw [ownFrame]
      exact ih (by simpa using hdropped) f

/-- Where no call is opened, nothing asked for and nothing dropped, nothing can be closed either. -/
theorem replay_untouched {m : Nat} {cs : List FrameChange} (h : nested? 0 cs = some m)
    (hc : ∀ c ∈ cs, c = closed ∨ c = none) (fs : List Frame) : replay cs fs = fs := by
  induction cs with
  | nil => rfl
  | cons c cs ih =>
    rcases hc c (List.mem_cons_self ..) with rfl | rfl
    · -- closing a call that was not opened is not counted
      cases h
    · exact ih h fun d hd => hc d (List.mem_cons_of_mem _ hd)

/-- A change of the frames of instance `i`, seen from every instance. -/
theorem apply_own (c : FrameChange) (l : SubsystemId) (i j : InstanceId) (fs : InstanceId → List Frame) :
    (if l = l ∧ i = j then c else none).apply (fs j) = if j = i then c.apply (fs i) else fs j := by
  by_cases hj : j = i
  · rw [if_pos hj, if_pos ⟨rfl, hj.symm⟩, hj]
  · rw [if_neg hj, if_neg fun h => hj h.2.symm]
    rfl

end FrameChange

/-! ## Entries of the journal -/

/-- What an entry of the journal means for the frames that layer `k` has for instance `i`. -/
def Event.frameChange (k : SubsystemId) (i : InstanceId) : Event → FrameChange
  | .entered l j => if l = k ∧ j = i then .opened else .none
  | .left l j => if l = k ∧ j = i then .closed else .none
  | .awaitRequested l j task result _ => if l = k ∧ j = i then .asked fun f => f.await task result else .none
  | .detachRequested l j marker result _ => if l = k ∧ j = i then .asked fun f => f.detach marker result else .none
  | .unloaded l j _ => if l = k ∧ j = i then .dropped else .none
  | _ => .none

/-- What the entries mean in a row. -/
def frameChanges (k : SubsystemId) (i : InstanceId) (es : List Event) : List FrameChange :=
  es.map (Event.frameChange k i)

/-- Whether layer `k` forgot instance `i`. -/
def Unloaded (k : SubsystemId) (i : InstanceId) (es : List Event) : Prop :=
  ∃ kept, Event.unloaded k i kept ∈ es

/-- Whether layer `k` gave a call of instance `i` a frame, was asked to suspend it, or forgot it. -/
def Involved (k : SubsystemId) (i : InstanceId) (es : List Event) : Prop :=
  .entered k i ∈ es ∨ (∃ task result s, .awaitRequested k i task result s ∈ es) ∨
    (∃ marker result s, .detachRequested k i marker result s ∈ es) ∨ Unloaded k i es

/-- Entries that mean nothing for the frames of a layer. -/
def Silent (k : SubsystemId) (es : List Event) : Prop :=
  ∀ e ∈ es, ∀ i, e.frameChange k i = .none

theorem Silent.append {k : SubsystemId} {es es' : List Event} (h : Silent k es) (h' : Silent k es') :
    Silent k (es ++ es') := by
  intro e he
  rcases List.mem_append.1 he with he | he
  · exact h e he
  · exact h' e he

theorem Silent.frameChanges {k : SubsystemId} {es : List Event} (h : Silent k es) (i : InstanceId) :
    frameChanges k i es = List.replicate es.length .none := by
  refine List.eq_replicate_iff.2 ⟨List.length_map .., fun c hc => ?_⟩
  obtain ⟨e, he, rfl⟩ := List.mem_map.1 hc
  exact h e he i

theorem FrameChange.replay_silent (n : Nat) (fs : List Frame) : replay (List.replicate n .none) fs = fs := by
  induction n with
  | zero => rfl
  | succ n ih => exact ih

theorem FrameChange.nested?_silent (n p : Nat) : nested? p (List.replicate n .none) = some p := by
  induction n with
  | zero => rw [List.replicate_zero, nested?]
  | succ n ih => rw [List.replicate_succ, nested?, ih]

theorem Event.frameChange_of_aside {e : Event} (h : e.aside = true) (k : SubsystemId) (i : InstanceId) :
    e.frameChange k i = .none := by
  cases e with
  | notice n => rfl
  | lookedUp l j name id => rfl
  | resumed token result => rfl
  | stringRemoved l id => rfl
  | taskRemoved task => rfl
  | mark n => rfl
  | _ => cases h

theorem frameChanges_append (k : SubsystemId) (i : InstanceId) (es es' : List Event) :
    frameChanges k i (es ++ es') = frameChanges k i es ++ frameChanges k i es' :=
  List.map_append

/-- A later part of the journal goes on from the calls that are open after the earlier one. -/
theorem nested?_frameChanges_append {k : SubsystemId} {i : InstanceId} {es : List Event} {n m : Nat}
    (h : FrameChange.nested? n (frameChanges k i es) = some m) (es' : List Event) :
    FrameChange.nested? n (frameChanges k i (es ++ es')) = FrameChange.nested? m (frameChanges k i es') := by
  rw [frameChanges_append, FrameChange.nested?_append, h]
  rfl

theorem dropped_mem_frameChanges {k : SubsystemId} {i : InstanceId} {es : List Event} :
    .dropped ∈ frameChanges k i es ↔ Unloaded k i es := by
  unfold frameChanges
  rw [List.mem_map]
  constructor
  · rintro ⟨e, he, hd⟩
    cases e with
    | unloaded l j kept =>
      rw [Event.frameChange] at hd
      split at hd
      · rename_i hlj
        obtain ⟨rfl, rfl⟩ := hlj
        exact ⟨kept, he⟩
      · cases hd
    | _ => simp only [Event.frameChange] at hd; first | cases hd | (split at hd <;> cases hd)
  · rintro ⟨kept, he⟩
    exact ⟨_, he, if_pos ⟨rfl, rfl⟩⟩

/-- An instance that was not involved has no frames opened, written into or dropped. -/
theorem frameChange_of_not_involved {k : SubsystemId} {i : InstanceId} {es : List Event} (h : ¬ Involved k i es) :
    ∀ c ∈ frameChanges k i es, c = .closed ∨ c = .none := by
  intro c hc
  obtain ⟨e, he, rfl⟩ := List.mem_map.1 hc
  cases e with
  | entered l j =>
    rw [Event.frameChange]
    split
    · rename_i hlj
      obtain ⟨rfl, rfl⟩ := hlj
      exact absurd (.inl he) h
    · exact .inr rfl
  | left l j =>
    rw [Event.frameChange]
    split
    · exact .inl rfl
    · exact .inr rfl
  | awaitRequested l j task result s =>
    rw [Event.frameChange]
    split
    · rename_i hlj
      obtain ⟨rfl, rfl⟩ := hlj
      exact absurd (.inr (.inl ⟨_, _, _, he⟩)) h
    · exact .inr rfl
  | detachRequested l j marker result s =>
    rw [Event.frameChange]
    split
    · rename_i hlj
      obtain ⟨rfl, rfl⟩ := hlj
      exact absurd (.inr (.inr (.inl ⟨_, _, _, he⟩))) h
    · exact .inr rfl
  | unloaded l j kept =>
    rw [Event.frameChange]
    split
    · rename_i hlj
      obtain ⟨rfl, rfl⟩ := hlj
      exact absurd (.inr (.inr (.inr ⟨_, he⟩))) h
    · exact .inr rfl
  | _ => exact .inr rfl

end Interpose

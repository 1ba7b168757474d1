import Interpose.Proofs.Stocks

/-!
# The count of calls

A hook layer counts the execute calls that it gave a frame and that are not over. The journal tells of each of them when
it begins and when it is over, so it tells the count (`depthAfter`). Whatever a run does, no more calls end in it than
began in it, at any moment, and when it is over as many calls are under way as before (`Run.Counts`). In particular the
count is positive from the opening of a frame until it is closed.

Main statements: `Machine.counts_enter` for calls, and `Machine.inFlight_framed`.
-/

namespace Interpose

open World

variable {σ α β : Type} {k : SubsystemId}

/-! ## Counting by the journal -/

/-- The count of calls of a layer after an entry of the journal. -/
def Event.countCalls (k : SubsystemId) (depth : Nat) : Event → Nat
  | .entered l _ => if l = k then depth + 1 else depth
  | .left l _ => if l = k then depth - 1 else depth
  | _ => depth

/-- The count of calls of a layer after entries of the journal. -/
def depthAfter (k : SubsystemId) (depth : Nat) (es : List Event) : Nat :=
  es.foldl (Event.countCalls k) depth

/-- At least one call of a layer is under way, before the entries, after each of them and in between. -/
def InFlight (k : SubsystemId) (depth : Nat) (es : List Event) : Prop :=
  ∀ n ≤ es.length, 0 < depthAfter k depth (es.take n)

instance (k : SubsystemId) (depth : Nat) (es : List Event) : Decidable (InFlight k depth es) :=
  inferInstanceAs (Decidable (∀ n ≤ es.length, 0 < depthAfter k depth (es.take n)))

theorem depthAfter_append (depth : Nat) (es es' : List Event) :
    depthAfter k depth (es ++ es') = depthAfter k (depthAfter k depth es) es' :=
  List.foldl_append

theorem inFlight_append {depth : Nat} {es es' : List Event} :
    InFlight k depth (es ++ es') ↔ InFlight k depth es ∧ InFlight k (depthAfter k depth es) es' := by
  constructor
  · refine fun h => ⟨fun n hn => ?_, fun n hn => ?_⟩
    · have := h n (by simp; omega)
      rwa [List.take_append_of_le_length hn] at this
    · have := h (es.length + n) (by simp; omega)
      rwa [List.take_length_add_append, depthAfter_append] at this
  · rintro ⟨h, h'⟩ n hn
    rcases Nat.le_total n es.length with hle | hge
    · rw [List.take_append_of_le_length hle]
      exact h n hle
    · obtain ⟨m, rfl⟩ := Nat.exists_eq_add_of_le hge
      rw [List.take_length_add_append, depthAfter_append]
      exact h' m (by simpa using hn)

theorem InFlight.last {depth : Nat} {es : List Event} (h : InFlight k depth es) : 0 < depthAfter k depth es := by
  have := h es.length (Nat.le_refl _)
  rwa [List.take_length] at this

/-- An entry that has no part in counting. -/
def Event.Uncounted (k : SubsystemId) (e : Event) : Prop :=
  ∀ depth, e.countCalls k depth = depth

theorem depthAfter_uncounted {es : List Event} (h : ∀ e ∈ es, e.Uncounted k) (depth : Nat) :
    depthAfter k depth es = depth := by
  induction es generalizing depth with
  | nil => rfl
  | cons e es ih =>
    show depthAfter k (e.countCalls k depth) es = depth
    rw [h e List.mem_cons_self, ih fun e' he' => h e' (List.mem_cons_of_mem _ he')]

theorem Event.uncounted_of_aside {e : Event} (h : e.aside = true) : e.Uncounted k := by
  intro depth
  cases e <;> first | rfl | cases h

theorem Event.uncounted_of_not_ofStocks {e : Event} (h : e.ofStocks = false) : e.Uncounted k := by
  intro depth
  cases e <;> first | rfl | cases h

/-- That there is no frame left to close is not counted. -/
theorem uncounted_report (i : InstanceId) (fs : List Frame) :
    ∀ e ∈ (if fs = [] then [.notice (.popWithoutFrame i)] else [] : List Event), e.Uncounted k := by
  intro e he
  split at he
  · rw [List.mem_singleton.1 he]
    exact fun _ => rfl
  · cases he

/-! ## The last call that is counted -/

/-- Whether an entry tells that the last call that was counted is over. -/
def Event.isLast (k : SubsystemId) (depth : Nat) : Event → Bool
  | .left l _ => l = k && depth = 1
  | _ => false

/-- Whether no entry tells that the last call that was counted is over. There may be times when no call is counted. -/
def neverLast (k : SubsystemId) : Nat → List Event → Bool
  | _, [] => true
  | depth, e :: es => !e.isLast k depth && neverLast k (e.countCalls k depth) es

theorem neverLast_append (depth : Nat) (es es' : List Event) :
    neverLast k depth (es ++ es') = (neverLast k depth es && neverLast k (depthAfter k depth es) es') := by
  induction es generalizing depth with
  | nil => rfl
  | cons e es ih =>
    rw [List.cons_append, neverLast, neverLast, ih, Bool.and_assoc]
    rfl

/-- While calls are under way all the time, none that ends is the last one. -/
theorem neverLast_of_inFlight {depth : Nat} {es : List Event} (h : InFlight k depth es) :
    neverLast k depth es = true := by
  induction es generalizing depth with
  | nil => rfl
  | cons e es ih =>
    obtain ⟨hfirst, hrest⟩ := inFlight_append.1 (show InFlight k depth ([e] ++ es) from h)
    have hcount : 0 < e.countCalls k depth := hfirst.last
    have hlast : e.isLast k depth = false := by
      cases e with
      | left l i =>
        rw [Event.countCalls] at hcount
        rw [Event.isLast, Bool.and_eq_false_iff, decide_eq_false_iff_not, decide_eq_false_iff_not]
        by_cases hl : l = k
        · rw [if_pos hl] at hcount
          exact .inr (by omega)
        · exact .inl hl
      | _ => rfl
    rw [neverLast, hlast]
    exact ih hrest

/-- Where no call ends, none is the last one that ends. -/
theorem neverLast_of_not_left {es : List Event} (h : ∀ i, .left k i ∉ es) (depth : Nat) :
    neverLast k depth es = true := by
  induction es generalizing depth with
  | nil => rfl
  | cons e es ih =>
    have hlast : e.isLast k depth = false := by
      cases e with
      | left l i =>
        have hl : l ≠ k := by
          rintro rfl
          exact h i List.mem_cons_self
        simp [Event.isLast, hl]
      | _ => rfl
    rw [neverLast, hlast]
    exact ih (fun i hi => h i (List.mem_cons_of_mem e hi)) _

/-! ## Calls that began and calls that are over -/

/-- At no point have more calls ended than began. -/
def Covered (k : SubsystemId) (es : List Event) : Prop :=
  ∀ depth n, depth ≤ depthAfter k depth (es.take n)

/-- As many calls ended as began, and at no point more. -/
structure Even (k : SubsystemId) (es : List Event) : Prop where
  covered : Covered k es
  level : ∀ depth, depthAfter k depth es = depth

theorem covered_append {es es' : List Event} (h : Covered k es) (h' : Covered k es') : Covered k (es ++ es') := by
  intro depth n
  rw [List.take_append, depthAfter_append]
  exact Nat.le_trans (h depth n) (h' _ _)

theorem Even.append {es es' : List Event} (h : Even k es) (h' : Even k es') : Even k (es ++ es') where
  covered := covered_append h.covered h'.covered
  level depth := by rw [depthAfter_append, h.level, h'.level]

theorem even_of_uncounted {es : List Event} (h : ∀ e ∈ es, e.Uncounted k) : Even k es where
  covered depth _ := Nat.le_of_eq (depthAfter_uncounted (fun e he => h e (List.mem_of_mem_take he)) depth).symm
  level := depthAfter_uncounted h

theorem covered_entered (l : SubsystemId) (i : InstanceId) : Covered k [.entered l i] := by
  rintro depth (_ | n)
  · exact Nat.le_refl depth
  · rw [List.take_of_length_le (by simp)]
    show depth ≤ if l = k then depth + 1 else depth
    split <;> omega

/-- A call that is over, and what happened in it. -/
theorem even_call {l : SubsystemId} {i : InstanceId} {es es' : List Event} (h : Even k es)
    (hes' : ∀ e ∈ es', e.Uncounted k) : Even k (.entered l i :: es ++ (es' ++ [.left l i])) := by
  have hopen : ∀ depth, depthAfter k depth [.entered l i] = if l = k then depth + 1 else depth := fun _ => rfl
  have hclose : ∀ depth, depthAfter k depth [.left l i] = if l = k then depth - 1 else depth := fun _ => rfl
  have hlevel : ∀ depth, depthAfter k depth (.entered l i :: es ++ (es' ++ [.left l i])) = depth := by
    intro depth
    rw [show Event.entered l i :: es ++ (es' ++ [.left l i]) = [.entered l i] ++ (es ++ (es' ++ [.left l i])) from rfl,
      depthAfter_append, depthAfter_append, depthAfter_append, h.level, depthAfter_uncounted hes', hopen, hclose]
    split <;> omega
  refine ⟨fun depth n => ?_, hlevel⟩
  -- before the last entry the call covers itself; with it, the count is what it was
  have hcovered : Covered k ([.entered l i] ++ (es ++ es')) :=
    covered_append (covered_entered l i) (covered_append h.covered (even_of_uncounted hes').covered)
  have hsplit : Event.entered l i :: es ++ (es' ++ [.left l i]) = ([.entered l i] ++ (es ++ es')) ++ [.left l i] := by
    simp
  rcases Nat.lt_or_ge n ([Event.entered l i] ++ (es ++ es')).length.succ with hlt | hge
  · rw [hsplit, List.take_append_of_le_length (Nat.lt_succ_iff.1 hlt)]
    exact hcovered depth n
  · refine Nat.le_of_eq ?_
    rw [List.take_of_length_le (by rw [hsplit, List.length_append]; exact hge), hlevel]

theorem InFlight.of_covered {depth : Nat} {es : List Event} (h : Covered k es) (hdepth : 0 < depth) :
    InFlight k depth es :=
  fun n _ => Nat.lt_of_lt_of_le hdepth (h depth n)

/-! ## Operations -/

namespace World

/-- Calls began, and some of them may be over. -/
def Underway (k : SubsystemId) (w w' : World σ) : Prop :=
  ∃ es, w'.events = w.events ++ es ∧ Covered k es

/-- Whatever calls began are over, and as many are counted as before. -/
def Settles (k : SubsystemId) (w w' : World σ) : Prop :=
  ∃ es, w'.events = w.events ++ es ∧ Even k es ∧ w'.execDepth k = w.execDepth k

theorem Settles.underway {w w' : World σ} (h : Settles k w w') : Underway k w w' := by
  obtain ⟨es, hes, heven, -⟩ := h
  exact ⟨es, hes, heven.covered⟩

theorem Underway.after {u v w : World σ} {es : List Event} (hes : v.events = u.events ++ es) (hcovered : Covered k es)
    (h : Underway k v w) : Underway k u w := by
  obtain ⟨es', hes', hcovered'⟩ := h
  exact ⟨es ++ es', by rw [hes', hes, List.append_assoc], covered_append hcovered hcovered'⟩

theorem Settles.trans_underway {u v w : World σ} (h : Settles k u v) (h' : Underway k v w) : Underway k u w := by
  obtain ⟨es, hes, heven, -⟩ := h
  exact .after hes heven.covered h'

theorem Settles.of_uncounted {w w' : World σ} (es : List Event) (hj : w'.events = w.events ++ es)
    (hes : ∀ e ∈ es, e.Uncounted k) (hd : w'.execDepth k = w.execDepth k) : Settles k w w' :=
  ⟨es, hj, even_of_uncounted hes, hd⟩

theorem Settles.of_events {w w' : World σ} (hj : w'.events = w.events) (hd : w'.execDepth k = w.execDepth k) :
    Settles k w w' :=
  .of_uncounted [] (by simp [hj]) (by simp) hd

theorem Settles.record (w : World σ) {e : Event} (he : e.Uncounted k) : Settles k w (w.record e) :=
  .of_uncounted [e] (by simp) (by simpa using he) rfl

theorem Settles.trans {u v w : World σ} (h : Settles k u v) (h' : Settles k v w) : Settles k u w := by
  obtain ⟨es, hes, heven, hdepth⟩ := h
  obtain ⟨es', hes', heven', hdepth'⟩ := h'
  exact ⟨es ++ es', by rw [hes', hes, List.append_assoc], heven.append heven', hdepth'.trans hdepth⟩

end World

namespace Act

theorem track_settles : Track (Settles k : World σ → World σ → Prop) :=
  ⟨fun _ => .of_events rfl rfl, .trans⟩

/-- Working on a pool counts nothing. -/
theorem settles_onPool (l : SubsystemId) (f : Pool → α × Pool) : (onPool l f : Act σ α).Keeps (Settles k) :=
  .onSubsystem fun w s hs => by
    refine .of_events rfl ?_
    rw [execDepth_setSubsystem hs]
    split
    · rename_i hk
      rw [hk, execDepth_of_subsystem? hs]
    · rfl

theorem settles_removeString (l : SubsystemId) (id : StringId) :
    (removeString l id : Act σ (Except PoolError CellString)).Keeps (Settles k) := by
  refine .bind track_settles (settles_onPool l _) fun r => ?_
  cases r with
  | ok s =>
    refine .bind track_settles (.record fun w => .record w ?_) fun _ => .pure track_settles _
    exact Event.uncounted_of_aside rfl
  | error e => exact .pure track_settles _

theorem steady_settles (k : SubsystemId) : Steady (Settles k : World σ → World σ → Prop) := by
  refine .of_stocks track_settles (fun {w w'} h => ?_) (fun {w l s q} hs _ => ?_) settles_removeString ?_
    fun w e he => .record w (Event.uncounted_of_not_ofStocks he)
  · refine .of_events h.events ?_
    rw [execDepth_eq, execDepth_eq, h.layers]
  · exact settles_onPool l (fun _ => ((), q)) (congrArg (Option.map _) hs)
  · refine .of_parts track_settles (fun _ _ => .of_events rfl rfl) (fun _ _ => .of_events rfl rfl) fun w e he => ?_
    exact .record w (Event.uncounted_of_aside he)

/-- Whatever the host asks for settles. -/
theorem settles_perform (ids : CallbackIds σ) (resume : Resume σ) (o : Operation) :
    (o.perform ids resume).Keeps (Settles k) := by
  cases o with
  | newSubsystem config collaborators =>
    intro w l w' h
    obtain ⟨-, -, -, -, hjournal⟩ := stock?_newSubsystem h
    exact .of_events (congrArg Array.toList hjournal) (still_newSubsystem config collaborators h).execDepth
  | _ => exact (steady_settles k).perform ids resume trivial fun l _ => settles_onPool l _

end Act

/-! ## Runs -/

/-- Whatever the fuel, as many calls are counted at the end of a run as at its beginning, and no fewer in between. -/
def Run.Counts (k : SubsystemId) (r : Run σ α) : Prop :=
  ∀ d w, r.Ensures d w (fun _ => Underway k w) fun _ => Settles k w

namespace Run.Counts

theorem pure (a : α) : Counts k (pure a : Run σ α) :=
  fun _ w => .pure (Act.track_settles.refl w)

theorem bind {r : Run σ α} {next : α → Run σ β} (h : r.Counts k) (hn : ∀ a, (next a).Counts k) :
    Counts k (r >>= next) := by
  refine fun d w => .bind ((h d w).mono_post fun a v hv => ?_)
  exact (hn a d v).mono (fun _ _ hu => hv.trans_underway hu) fun _ _ hu => hv.trans hu

theorem act {x : Act σ α} (h : x.Keeps (Settles k)) : (Run.act x).Counts k :=
  fun _ w => .act (fun _ _ hx => h hx) fun _ => (Act.track_settles.refl w).underway

theorem world : (Run.world : Run σ (World σ)).Counts k :=
  fun _ w => .world (Act.track_settles.refl w)

theorem under {activity : Activity} {r : Run σ α} (h : r.Counts k) : (Run.under activity r).Counts k :=
  fun _ w => .under (h activity w)

theorem stop : (Run.stop : Run σ α).Counts k :=
  fun _ w => .stop (Act.track_settles.refl w).underway

/-- A call is counted from the opening of its frame until it is closed. -/
theorem between {r : Run σ α} (h : r.Counts k) (l : SubsystemId) (i : InstanceId) :
    Counts k (do
      Run.act (Machine.openFrame l i)
      let a ← r
      Run.act (Machine.closeFrame l i)
      Pure.pure a) := by
  intro d w
  refine .bind (.act (fun u w₀ hopen => ?_) fun _ => (Act.track_settles.refl w).underway)
  obtain ⟨htells, hdepth⟩ := Machine.tells_openFrame (k := k) hopen
  refine .bind ((h d w₀).mono (fun _ _ hu => ?_) fun a w₁ h₁ => ?_)
  · exact .after htells.journal (covered_entered l i) hu
  refine .bind (.act (fun u w₂ hclose => .pure ?_) fun _ => .after htells.journal (covered_entered l i) h₁.underway)
  obtain ⟨htells', hdepth'⟩ := Machine.tells_closeFrame (k := k) hclose
  obtain ⟨es, hes, heven, hdepth₁⟩ := h₁
  refine ⟨_, ?_, even_call (l := l) (i := i) heven (uncounted_report i (w₁.frames l i)), ?_⟩
  · rw [htells'.journal, hes, htells.journal, List.append_assoc, List.append_assoc]
    rfl
  · rw [hdepth', hdepth₁, hdepth]
    split <;> rfl

end Run.Counts

namespace Machine

theorem composes_counts : Composes (Settles k) (fun _ r => Run.Counts (σ := σ) k r) where
  pure := .pure
  bind := .bind
  act := .act
  tick _ w := .tick (Act.track_settles.refl w).underway (Act.track_settles.refl w)
  world := .world
  stop := .stop
  under := .under

/-- Counting calls is a discipline for the whole machine, whatever the host does. -/
theorem regimeOfCounts (host : Host σ) : Regime host (Settles k) fun _ r => Run.Counts k r :=
  have S := Act.steady_settles (σ := σ) k
  composes_counts.regime S.toAloof (fun o _ => Act.settles_perform _ _ o) host.uses_operations_true
    S.handsOver S.requestAwait S.requestDetach fun l i h => h.between l i

theorem counts_enter (host : Host σ) (depth : Nat) (c : Call) : (enter host depth c).Counts k :=
  (regimeOfCounts host).enter depth c

/-- The handler of a callback leaves as many calls counted as there were. -/
theorem execDepth_invoke (host : Host σ) (depth : Nat) {i : InstanceId} {id : Nat} {slot : Option Cell} {d : Activity}
    {w w' : World σ} {fuel left : Nat} {handled : Handled}
    (hr : invoke host (enter host depth) k i id slot d w fuel = .done handled w' left) :
    w'.execDepth k = w.execDepth k := by
  have D := (regimeOfCounts (k := k) host).discipline (counts_enter host depth)
  obtain ⟨-, -, -, hsame⟩ := (D.invoke k i id slot d w).of_done hr
  exact hsame

/-- So does every intercepted call as a whole. -/
theorem execDepth_intercepted (host : Host σ) (depth : Nat) {i : InstanceId} {slot : Option Cell} {index : Cell} {d : Activity}
    {w w' : World σ} {fuel left : Nat} {r : ExecReply}
    (hr : intercepted host (enter host depth) k i slot index d w fuel = .done r w' left) :
    w'.execDepth k = w.execDepth k := by
  have hcounts := (regimeOfCounts (k := k) host).intercepted (counts_enter host depth) k i slot index
  obtain ⟨-, -, -, hsame⟩ := (hcounts d w).of_done hr
  exact hsame

/-- While an execute call has its frame, it is counted, at every moment. -/
theorem inFlight_framed (host : Host σ) (depth : Nat) {i : InstanceId} (slot : Option Cell) (index : Cell) (d : Activity)
    {w w₀ : World σ} (hopen : openFrame k i w = some ((), w₀)) (fuel : Nat) :
    ∃ es, ((passOn (enter host depth) k i slot index >>= settle host (enter host depth) k i) d w₀ fuel).world.events =
      w₀.events ++ es ∧ InFlight k (w₀.execDepth k) es := by
  have hcalls : ∀ c, (enter host depth c).Counts k := counts_enter host depth
  have G := regimeOfCounts (k := k) host
  have hinner := G.inside hcalls k i slot index
  have hdepth : 0 < w₀.execDepth k := by
    rw [(tells_openFrame (k := k) hopen).2, if_pos rfl]
    omega
  cases hr : (passOn (enter host depth) k i slot index >>= settle host (enter host depth) k i) d w₀ fuel with
  | done r w₁ left =>
    obtain ⟨es, hes, hcovered⟩ := ((hinner d w₀).of_done hr).underway
    exact ⟨es, hes, .of_covered hcovered hdepth⟩
  | cut d' w₁ =>
    obtain ⟨es, hes, hcovered⟩ := (hinner d w₀).of_cut hr
    exact ⟨es, hes, .of_covered hcovered hdepth⟩

end Machine

end Interpose

import Mathlib.Data.List.Nodup
import Interpose.Proofs.CallbackRouting

/-!
# Registering natives

Natives are registered one by one, in lists and in groups, under names that may come any number of times. A name that is new
gets the next index. Under a name that was registered before, the native is exchanged and the index stays, since a script is
compiled to indices and does not know names any more. Here natives are registered with an instance in any order, and
anything may happen to the instance meanwhile that leaves its natives alone.

A native is called through the callback of the instance. While an execute call is intercepted that is a callback of a layer,
which hands the call on to the callback that the layer kept, and so on until the machine's own callback is reached. Each of
them hands on the index, so what runs is the native that was registered last, whatever the way to it.

Main statement: `Instance.natives_in_place`.
-/

namespace Interpose

open World

/-- A whole number of entries is the cell that stands for their end. -/
theorem Cell.toNat?_eq_some {c : Cell} {n : Nat} : c.toNat? = some n ↔ Cell.ofNat? n = some c := by
  rw [Cell.ofNat?, Cell.ofInt?_eq_some, Cell.toNat?]
  split
  · rw [Option.some.injEq]
    omega
  · simp only [reduceCtorEq, false_iff]
    omega

/-! ## Ways to register -/

/-- A group of natives that are registered together, if it is enabled. -/
structure NativeGroup where
  enabled : Bool
  exports : List (String × Native)

/-- Registers a group, and answers how many natives were registered. -/
def NativeGroup.register (g : NativeGroup) (a : Instance) : Nat × Instance :=
  if g.enabled then (g.exports.length, a.registerNatives g.exports) else (0, a)

/-- A built-in module is a group that is enabled. -/
def NativeModule.group (k : SubsystemId) (module : NativeModule) : NativeGroup where
  enabled := true
  exports := module.natives k

/-- A way to register natives with an instance. -/
inductive Registration
  | native (name : String) (body : Native)
  /-- One after another. -/
  | natives (list : List (String × Native))
  | group (g : NativeGroup)

namespace Registration

/-- Registers natives with an instance. -/
def perform (a : Instance) : Registration → Instance
  | native name body => a.registerNatives [(name, body)]
  | natives list => a.registerNatives list
  | group g => (g.register a).2

/-- The natives that are registered, in their order. -/
def entries : Registration → List (String × Native)
  | native name body => [(name, body)]
  | natives list => list
  | group g => if g.enabled then g.exports else []

theorem perform_eq (a : Instance) (r : Registration) : r.perform a = a.registerNatives r.entries := by
  cases r with
  | native name body => rfl
  | natives list => rfl
  | group g =>
    show (g.register a).2 = a.registerNatives (if g.enabled then g.exports else [])
    unfold NativeGroup.register
    cases g.enabled <;> rfl

end Registration

/-- An instance after natives were registered with it, and after other things happened to it that leave its natives alone.
The list tells what was registered, in order. -/
inductive Equipped (a : Instance) : List (String × Native) → Instance → Prop
  | nothing : Equipped a [] a
  | register {history : List (String × Native)} {b : Instance} (before : Equipped a history b) (r : Registration) :
      Equipped a (history ++ r.entries) (r.perform b)
  | meanwhile {history : List (String × Native)} {b c : Instance} (before : Equipped a history b)
      (natives : c.natives = b.natives) : Equipped a history c

/-- Host code registers one native, or a built-in module. -/
example {σ : Type} (ids : CallbackIds σ) (resume : Resume σ) (i : InstanceId) (name : String) (code : Code) :
    (Operation.addNative i name code).perform ids resume =
      Act.onInstance i fun a => ((), (Registration.native name (.host code)).perform a) := rfl

example {σ : Type} (ids : CallbackIds σ) (resume : Resume σ) (k : SubsystemId) (i : InstanceId) (module : NativeModule) :
    (Operation.registerModule k i module).perform ids resume = Act.onInstance i (module.group k).register := rfl

/-! ## Names and their indices -/

namespace Instance

variable {a b : Instance} {natives : List (String × Native)} {name : String} {body : Native} {index : Cell}

/-- The names of the natives by position. -/
def names (a : Instance) : List String :=
  a.natives.map Prod.fst

/-- The name of the native with an index. -/
def nameOf? (a : Instance) (index : Cell) : Option String :=
  index.toNat?.bind fun n => a.names[n]?

/-- The native that was registered last under a name. -/
def latest? (history : List (String × Native)) (name : String) : Option Native :=
  history.reverse.lookup name

/-- A name that is new is the last one, and any other stays where it is. -/
theorem map_fst_addNative (natives : List (String × Native)) (name : String) (body : Native) :
    (addNative natives name body).map Prod.fst =
      if name ∈ natives.map Prod.fst then natives.map Prod.fst else natives.map Prod.fst ++ [name] := by
  induction natives with
  | nil => rfl
  | cons entry rest ih =>
    obtain ⟨first, n⟩ := entry
    rw [addNative]
    by_cases hfirst : first = name
    · rw [if_pos hfirst, List.map_cons, List.map_cons, if_pos (hfirst ▸ List.mem_cons_self)]
    · have hmem : name ∈ first :: rest.map Prod.fst ↔ name ∈ rest.map Prod.fst := by
        rw [List.mem_cons, or_iff_right (Ne.symm hfirst)]
      rw [if_neg hfirst, List.map_cons, List.map_cons, ih]
      dsimp only
      simp only [hmem]
      split <;> rfl

theorem lookup_cons_eq (entry : String × Native) (rest : List (String × Native)) (name : String) :
    (entry :: rest).lookup name = if name = entry.1 then some entry.2 else rest.lookup name := by
  rw [List.lookup_cons]
  by_cases h : name = entry.1
  · rw [if_pos h, beq_iff_eq.2 h]
  · rw [if_neg h, beq_eq_false_iff_ne.2 h]

/-- The native under a name is exchanged, and those under other names stay. -/
theorem lookup_addNative (natives : List (String × Native)) (name : String) (body : Native) (other : String) :
    (addNative natives name body).lookup other = if other = name then some body else natives.lookup other := by
  induction natives with
  | nil => rw [addNative, lookup_cons_eq]
  | cons entry rest ih =>
    obtain ⟨first, n⟩ := entry
    rw [addNative]
    by_cases hfirst : first = name
    · rw [if_pos hfirst, lookup_cons_eq, lookup_cons_eq, hfirst]
      dsimp only
      split <;> rfl
    · rw [if_neg hfirst, lookup_cons_eq, lookup_cons_eq, ih]
      by_cases hother : other = first
      · rw [if_pos hother, if_pos hother, if_neg (hother ▸ hfirst)]
      · rw [if_neg hother, if_neg hother]

/-! ### One registration after another -/

theorem natives_registerNatives_append (a : Instance) (history later : List (String × Native)) :
    (a.registerNatives (history ++ later)).natives = ((a.registerNatives history).registerNatives later).natives :=
  List.foldl_append

theorem natives_registerNatives_concat (a : Instance) (history : List (String × Native)) (entry : String × Native) :
    (a.registerNatives (history ++ [entry])).natives = addNative (a.registerNatives history).natives entry.1 entry.2 :=
  natives_registerNatives_append a history [entry]

theorem names_registerNatives_concat (a : Instance) (history : List (String × Native)) (entry : String × Native) :
    (a.registerNatives (history ++ [entry])).names =
      if entry.1 ∈ (a.registerNatives history).names then (a.registerNatives history).names
      else (a.registerNatives history).names ++ [entry.1] := by
  rw [names, natives_registerNatives_concat, map_fst_addNative, ← names]

/-- Names come in the order in which they were registered first. -/
theorem names_registerNatives (ha : a.natives = []) (history : List (String × Native)) :
    (a.registerNatives history).names = (history.map Prod.fst).eraseDups := by
  induction history using List.reverseRecOn with
  | nil => exact congrArg (List.map Prod.fst) ha
  | append_singleton history entry ih =>
    rw [names_registerNatives_concat, ih, List.map_append, List.eraseDups_append]
    simp only [List.mem_eraseDups]
    -- the last registration brings its name only if no earlier one did
    by_cases hname : entry.1 ∈ history.map Prod.fst
    · have hnothing : [entry.1].removeAll (history.map Prod.fst) = [] := by simp [List.removeAll, hname]
      rw [if_pos hname, List.map_singleton, hnothing, List.eraseDups_nil, List.append_nil]
    · have hnew : [entry.1].removeAll (history.map Prod.fst) = [entry.1] := by simp [List.removeAll, hname]
      rw [if_neg hname, List.map_singleton, hnew]
      rfl

/-- Under a name stands the native that was registered last. -/
theorem lookup_registerNatives (ha : a.natives = []) (history : List (String × Native)) (name : String) :
    (a.registerNatives history).natives.lookup name = latest? history name := by
  induction history using List.reverseRecOn with
  | nil =>
    rw [registerNatives, List.foldl_nil, ha]
    rfl
  | append_singleton history entry ih =>
    rw [natives_registerNatives_concat, lookup_addNative, ih, latest?, latest?, List.reverse_concat, lookup_cons_eq]

/-- No two natives share a name. -/
theorem nodup_registerNatives (ha : a.names.Nodup) (history : List (String × Native)) :
    (a.registerNatives history).names.Nodup := by
  induction history using List.reverseRecOn with
  | nil => exact ha
  | append_singleton history entry ih =>
    rw [names_registerNatives_concat]
    split
    · exact ih
    · rename_i hnew
      exact List.nodup_append_comm.1 (List.nodup_cons.2 ⟨hnew, ih⟩)

/-- Names stay where they are. -/
theorem names_isPrefix (a : Instance) (later : List (String × Native)) : a.names <+: (a.registerNatives later).names := by
  induction later using List.reverseRecOn with
  | nil => exact List.prefix_refl _
  | append_singleton later entry ih =>
    refine ih.trans ?_
    rw [names_registerNatives_concat]
    split
    · exact List.prefix_refl _
    · exact List.prefix_append _ _

/-! ### What an index stands for -/

theorem findNative?_eq (a : Instance) (name : String) :
    a.findNative? name = (a.names.idxOf? name).bind Cell.ofNat? := by
  rw [findNative?, names, List.idxOf?, List.findIdx?_map]
  rfl

/-- An index is found for a name exactly if it is the index of a native with that name. -/
theorem findNative?_eq_some (ha : a.names.Nodup) : a.findNative? name = some index ↔ a.nameOf? index = some name := by
  rw [findNative?_eq, nameOf?, Option.bind_eq_some_iff, Option.bind_eq_some_iff]
  refine exists_congr fun n => ?_
  rw [Cell.toNat?_eq_some, List.idxOf?_eq_some_iff, List.getElem?_eq_some_iff, and_comm]
  refine and_congr_right fun _ => exists_congr fun hn => ⟨fun h => h.1, fun hname => ⟨hname, fun j hj hother => ?_⟩⟩
  -- two natives with the name would be one
  have hsame : j = n := ha.getElem_inj_iff.1 (hother.trans hname.symm)
  omega

/-- There is none for a name exactly if no native has it, or the native lies behind all indices. -/
theorem findNative?_eq_none : a.findNative? name = none ↔ name ∉ a.names ∨ 2147483647 < a.names.idxOf name := by
  rw [findNative?_eq]
  cases hfound : a.names.idxOf? name with
  | none =>
    have hname := List.idxOf?_eq_none_iff.1 hfound
    exact iff_of_true rfl (.inl hname)
  | some n =>
    have hposition : a.names.idxOf name = n := by rw [List.idxOf_eq_getD_idxOf?, hfound]; rfl
    have hname : name ∈ a.names := by
      by_contra hnot
      rw [List.idxOf?_eq_none_iff.2 hnot] at hfound
      cases hfound
    rw [Option.bind_some, Cell.ofNat?, Cell.ofInt?_eq_none, hposition, or_iff_right (not_not_intro hname)]
    omega

theorem nameOf?_of_isPrefix (h : a.names <+: b.names) (hname : a.nameOf? index = some name) : b.nameOf? index = some name := by
  obtain ⟨n, hn, hposition⟩ := Option.bind_eq_some_iff.1 hname
  refine Option.bind_eq_some_iff.2 ⟨n, hn, ?_⟩
  obtain ⟨more, hmore⟩ := h
  rw [← hmore, List.getElem?_append_left (List.getElem?_eq_some_iff.1 hposition).1, hposition]

/-- What stands at a position is found under its name. -/
theorem lookup_of_getElem? (h : (natives.map Prod.fst).Nodup) {n : Nat} (hn : natives[n]? = some (name, body)) :
    natives.lookup name = some body := by
  induction natives generalizing n with
  | nil => cases hn
  | cons entry rest ih =>
    obtain ⟨hfirst, hrest⟩ := List.nodup_cons.1 h
    rw [lookup_cons_eq]
    cases n with
    | zero =>
      cases hn
      exact if_pos rfl
    | succ n =>
      have hn : rest[n]? = some (name, body) := hn
      have hmem : name ∈ rest.map Prod.fst := List.mem_map_of_mem (List.mem_of_getElem? hn)
      rw [if_neg fun e : name = entry.1 => hfirst (e ▸ hmem), ih hrest hn]

/-- The native with an index is the one under its name. -/
theorem native?_of_nameOf? (ha : a.names.Nodup) (hname : a.nameOf? index = some name) :
    ∃ body, a.native? index = some body ∧ a.natives.lookup name = some body := by
  obtain ⟨n, hn, hposition⟩ := Option.bind_eq_some_iff.1 hname
  rw [names, List.getElem?_map] at hposition
  obtain ⟨⟨_, body⟩, hentry, rfl⟩ := Option.map_eq_some_iff.1 hposition
  refine ⟨body, ?_, lookup_of_getElem? ha hentry⟩
  rw [native?, hn, Option.bind_some, hentry]
  rfl

theorem nameOf?_of_native? (hbody : a.native? index = some body) : ∃ name, a.nameOf? index = some name := by
  obtain ⟨n, hn, hposition⟩ := Option.bind_eq_some_iff.1 hbody
  obtain ⟨entry, hentry, -⟩ := Option.map_eq_some_iff.1 hposition
  refine ⟨entry.1, Option.bind_eq_some_iff.2 ⟨n, hn, ?_⟩⟩
  rw [names, List.getElem?_map, hentry]
  rfl

end Instance

namespace Equipped

variable {a b c : Instance} {history later : List (String × Native)}

/-- Only what was registered matters for the natives, not what happened in between. -/
theorem natives_eq (h : Equipped a history b) : b.natives = (a.registerNatives history).natives := by
  induction h with
  | nothing => rfl
  | register _ r ih =>
    rw [r.perform_eq, Instance.natives_registerNatives_append]
    exact congrArg (List.foldl _ · _) ih
  | meanwhile _ hnatives ih => exact hnatives.trans ih

theorem names_eq (h : Equipped a history b) : b.names = (a.registerNatives history).names :=
  congrArg (List.map Prod.fst) h.natives_eq

theorem trans (h : Equipped a history b) (h' : Equipped b later c) : Equipped a (history ++ later) c := by
  induction h' with
  | nothing =>
    rw [List.append_nil]
    exact h
  | register _ r ih =>
    rw [← List.append_assoc]
    exact ih.register r
  | meanwhile _ hnatives ih => exact ih.meanwhile hnatives

end Equipped

/-! ## Calling natives -/

section

variable {σ : Type} {w v : World σ} {i : InstanceId} {k : SubsystemId} {a : Instance} {c : Callback}
  {layers : List SubsystemId}

/-- Native calls of an instance through a callback get to the machine's own callback, by way of layers: each of them is
there, and keeps the callback that comes next. -/
inductive World.Leads (w : World σ) (i : InstanceId) : Callback → List SubsystemId → Prop
  | standard : Leads w i .standard []
  | intercept {k : SubsystemId} {c : Callback} {layers : List SubsystemId} (alive : w.isAlive k = true)
      (kept : w.saved? k i = some c) (once : k ∉ layers) (beyond : Leads w i c layers) :
      Leads w i (.intercept k) (k :: layers)

/-- Only the layers on the way matter. -/
theorem World.Leads.of_layers (h : w.Leads i c layers) (hsame : ∀ k ∈ layers, v.subsystem? k = w.subsystem? k) :
    v.Leads i c layers := by
  induction h with
  | standard => exact .standard
  | @intercept k c layers alive kept once _ ih =>
    obtain ⟨hfirst, hrest⟩ := List.forall_mem_cons.1 hsame
    refine .intercept ?_ ?_ once (ih hrest)
    · unfold World.isAlive
      rw [hfirst]
      exact alive
    · unfold World.saved?
      rw [hfirst]
      exact kept

namespace Machine

/-- What a layer does about a native call before it hands it on: it stays as long as the call takes, puts its hook back, and
gives the instance the callback that it kept. -/
def returnCallback (k : SubsystemId) (i : InstanceId) : Act σ Unit := do
  Act.onSubsystem k fun s => ((), { s with holds := s.holds + 1 })
  let kept ← Act.takeCallback k i
  let callback ← Act.ofOption kept
  Act.reattachExec k
  Act.onInstance i fun a => ((), { a with callback })

/-- What layers do about a native call before the machine gets it. -/
def returnCallbacks (i : InstanceId) : List SubsystemId → Act σ Unit
  | [] => pure ()
  | k :: layers => do
    returnCallback k i
    returnCallbacks i layers

/-- What is left to do of a native call that went through layers: the layer that was the last one is let go first. -/
def letGo {α : Type} : List SubsystemId → α → Run σ α
  | [], answer => pure answer
  | k :: layers, answer => do
    let answer ← letGo layers answer
    Run.act (Act.onSubsystem k fun s => ((), { s with holds := s.holds - 1 }))
    pure answer

/-- Returning a callback is the affair of one layer. -/
theorem keeps_returnCallback (k : SubsystemId) (i : InstanceId) : (returnCallback k i : Act σ Unit).Keeps fun w v =>
    ∀ l, l ≠ k → v.subsystem? l = w.subsystem? l := by
  have track : Act.Track fun w v : World σ => ∀ l, l ≠ k → v.subsystem? l = w.subsystem? l :=
    ⟨fun _ _ _ => rfl, fun h h' l hl => (h' l hl).trans (h l hl)⟩
  have hhook : (Act.reattachExec k : Act σ Unit).Keeps fun w v => ∀ l, l ≠ k → v.subsystem? l = w.subsystem? l := by
    intro w u v h
    obtain ⟨s, hs, eq⟩ := Option.map_eq_some_iff.1 h
    cases eq
    exact fun l hl => (subsystem?_setSubsystem hs _ l).trans (if_neg hl)
  refine .bind track (.onSubsystem fun w s hs l hl => (subsystem?_setSubsystem hs _ l).trans (if_neg hl)) fun _ => ?_
  refine .bind track (.onSubsystem fun w s hs l hl => (subsystem?_setSubsystem hs _ l).trans (if_neg hl)) fun kept => ?_
  refine .bind track (.ofOption track kept) fun callback => ?_
  exact .bind track hhook fun _ => .onInstance fun _ _ _ _ _ => rfl

/-- A layer hands a native call on to the callback that it kept, with the index that the call has. -/
theorem returnCallback_spec (ha : w.instance? i = some a) (hkept : w.saved? k i = some c) :
    ∃ v, returnCallback k i w = some ((), v) ∧ v.instance? i = some { a with callback := c } ∧
      ∀ calls index params d fuel, forwardNative calls k i index params d w fuel =
        (calls (.dispatch c i index params) >>= letGo [k]) d v fuel := by
  obtain ⟨s, hs, hcallback⟩ := Option.bind_eq_some_iff.1 hkept
  -- the layer does the same in the call and on its own, so the worlds on the way are named once for both
  let s₁ : Subsystem := { s with holds := s.holds + 1 }
  let s₂ : Subsystem := { s₁ with callbacks := s.callbacks.erase i }
  let w₁ := w.setSubsystem k s₁
  let w₂ := w₁.setSubsystem k s₂
  have hhold : Act.onSubsystem k (fun s => ((), { s with holds := s.holds + 1 })) w = some ((), w₁) :=
    congrArg (Option.map _) hs
  have hs₁ : w₁.subsystem? k = some s₁ := (subsystem?_setSubsystem hs s₁ k).trans (if_pos rfl)
  have htake : Act.takeCallback k i w₁ = some (some c, w₂) := by
    rw [← hcallback]
    exact congrArg (Option.map _) hs₁
  have hs₂ : w₂.subsystem? k = some s₂ := (subsystem?_setSubsystem hs₁ s₂ k).trans (if_pos rfl)
  obtain ⟨w₃, hreattach, hw₃⟩ : ∃ w₃, Act.reattachExec k w₂ = some ((), w₃) ∧ w₃ = w₂.remount k .exec s₂ _ :=
    ⟨_, onMount_eq_remount hs₂ _, rfl⟩
  have ha₃ : w₃.instance? i = some a := hw₃ ▸ ha
  have hgive : Act.onInstance i (fun a => ((), { a with callback := c })) w₃ =
      some ((), w₃.setInstance i { a with callback := c }) := congrArg (Option.map _) ha₃
  refine ⟨_, ?_, (instance?_setInstance ha₃ _ i).trans (if_pos rfl), fun calls index params d fuel => ?_⟩
  · unfold returnCallback
    have hthere : Act.ofOption (some c) w₂ = some (c, w₂) := rfl
    rw [Act.bind_of_some hhold, Act.bind_of_some htake, Act.bind_of_some hthere]
    exact (Act.bind_of_some hreattach).trans hgive
  · unfold forwardNative holding
    simp only [bind_assoc]
    rw [Run.bind_of_done (Run.act_of_some hhold d fuel), Run.bind_of_done (Run.act_of_some htake d fuel)]
    simp only [bind_assoc]
    rw [Run.bind_of_done (Run.act_of_some hreattach d fuel), Run.bind_of_done (Run.act_of_some hgive d fuel)]
    simp only [letGo, pure_bind]

/-- A layer is let go once those behind it are. -/
theorem letGo_cons {α : Type} (k : SubsystemId) (layers : List SubsystemId) (answer : α) :
    (letGo (k :: layers) answer : Run σ α) = letGo layers answer >>= letGo [k] :=
  bind_congr fun answer => by simp only [letGo, pure_bind]

/-- However many layers hand a native call on, what runs is the native with the index of the call. -/
theorem enter_of_leads {index : Cell} {body : Native} (h : w.Leads i c layers) (ha : w.instance? i = some a)
    (hcallback : a.callback = c) (hbody : a.native? index = some body) :
    ∃ v, returnCallbacks i layers w = some ((), v) ∧ v.instance? i = some { a with callback := .standard } ∧
      ∀ host depth params d fuel, enter host (depth + layers.length + 1) (.dispatch c i index params) d w fuel =
        (runNative host (enter host depth) i body params >>= letGo layers) .machine v fuel := by
  induction layers generalizing w a c with
  | nil =>
    cases h
    have hsame : { a with callback := .standard } = a := by rw [← hcallback]
    have hget : Act.getInstance i w = some (a, w) := congrArg (Option.map _) ha
    refine ⟨w, rfl, hsame ▸ ha, fun host depth params d fuel => ?_⟩
    show plainDispatch host (enter host depth) i index params .machine w fuel = _
    unfold plainDispatch
    rw [Run.bind_of_done (Run.act_of_some hget .machine fuel), hbody]
    show _ = (runNative host (enter host depth) i body params >>= pure) .machine w fuel
    rw [bind_pure]
  | cons k layers ih =>
    obtain _ | ⟨halive, hkept, honce, hbeyond⟩ := h
    obtain ⟨v₁, hback, ha₁, hforward⟩ := returnCallback_spec ha hkept
    -- the layers that come next are other layers, so the way on is what it was
    have hlayers : ∀ l ∈ layers, v₁.subsystem? l = w.subsystem? l := fun l hl =>
      keeps_returnCallback k i hback l fun e => honce (e ▸ hl)
    obtain ⟨v, hbacks, hv, hrun⟩ := ih (hbeyond.of_layers hlayers) ha₁ rfl hbody
    refine ⟨v, (Act.bind_of_some hback).trans hbacks, hv, fun host depth params d fuel => ?_⟩
    calc enter host (depth + (layers.length + 1) + 1) (.dispatch (.intercept k) i index params) d w fuel
        = forwardNative (enter host (depth + layers.length + 1)) k i index params .machine w fuel :=
          enter_of_intercept halive (depth + layers.length + 1) i index params d fuel
      _ = (enter host (depth + layers.length + 1) (.dispatch _ i index params) >>= letGo [k]) .machine v₁ fuel :=
          hforward _ index params .machine fuel
      _ = ((runNative host (enter host depth) i body params >>= letGo layers) >>= letGo [k]) .machine v fuel :=
          Run.bind_congr (hrun host depth params .machine fuel) _
      _ = (runNative host (enter host depth) i body params >>= letGo (k :: layers)) .machine v fuel := by
          rw [bind_assoc, funext (letGo_cons k layers)]

theorem run_callIndex (ha : w.instance? i = some a) (host : Host σ) (calls : Calls σ) (index : Cell)
    (params : List Cell) (d : Activity) (fuel : Nat) : (Program.callIndex i index params).run host calls d w (fuel + 1) =
      calls (.dispatch a.callback i index params) d w fuel := by
  have htick : Run.tick d w (fuel + 1) = .done () w fuel := rfl
  have hget : Act.getInstance i w = some (a, w) := congrArg (Option.map _) ha
  show (Run.tick >>= fun _ => Run.act (Act.getInstance i) >>= fun a => _ >>= pure) d w (fuel + 1) = _
  rw [Run.bind_of_done htick, Run.bind_of_done (Run.act_of_some hget d fuel), bind_pure]

/-- A native is called by name in two steps. -/
theorem run_callNamed (ha : w.instance? i = some a) (host : Host σ) (calls : Calls σ) (name : String)
    (params : List Cell) (d : Activity) (fuel : Nat) : (Program.callNamed i name params).run host calls d w (fuel + 1) =
      (match a.findNative? name with
        | some index => Program.callIndex i index params
        | none => .done (.error .notFound)).run host calls d w fuel := by
  have htick : Run.tick d w (fuel + 1) = .done () w fuel := rfl
  have hfind : (Operation.findNative i name).perform host.callbackIds host.resume w = some (a.findNative? name, w) :=
    Act.bind_of_some (show Act.getInstance i w = some (a, w) from congrArg (Option.map _) ha)
  show (Run.tick >>= fun _ => Run.act ((Operation.findNative i name).perform host.callbackIds host.resume) >>= _)
    d w (fuel + 1) = _
  rw [Run.bind_of_done htick, Run.bind_of_done (Run.act_of_some hfind d fuel)]
  cases a.findNative? name <;> rfl

end Machine

end

/-! ## What registering comes to -/

open Machine

section

variable {σ : Type}

/-- Whether a program calls a native of an instance, after a number of steps: through the callback that the instance has,
with the index. Where layers hand the call on to the machine's own callback, it is the native that runs. -/
structure Program.CallsNative (p : Program σ (Except Status Cell)) (steps : Nat) (i : InstanceId) (a : Instance) (index : Cell)
    (body : Native) (params : List Cell) : Prop where
  through : ∀ {w : World σ}, w.instance? i = some a → ∀ host calls d fuel,
    p.run host calls d w (fuel + steps) = calls (.dispatch a.callback i index params) d w fuel
  native : ∀ {w : World σ} {layers : List SubsystemId}, w.instance? i = some a → w.Leads i a.callback layers →
    ∃ v, returnCallbacks i layers w = some ((), v) ∧ v.instance? i = some { a with callback := .standard } ∧
      ∀ host depth d fuel, p.run host (enter host (depth + layers.length + 1)) d w (fuel + steps) =
        (runNative host (enter host depth) i body params >>= letGo layers) .machine v fuel

namespace Instance

/-- Whether an index stands for a name: the one is found for the other, and a call by either comes to the native that was
registered last under the name. -/
structure StandsFor (σ : Type) (history : List (String × Native)) (a : Instance) (index : Cell) (name : String) : Prop where
  named : a.nameOf? index = some name
  found : a.findNative? name = some index
  last : ∃ body, latest? history name = some body ∧ a.native? index = some body ∧ ∀ i params,
    (Program.callIndex i index params : Program σ _).CallsNative 1 i a index body params ∧
      (Program.callNamed i name params : Program σ _).CallsNative 2 i a index body params

/-- What is known of the natives of an instance once `history` was registered with it. -/
structure NativeLaw (σ : Type) (history : List (String × Native)) (a : Instance) : Prop where
  names : a.names = (history.map Prod.fst).eraseDups
  distinct : a.names.Nodup
  found : ∀ {name index}, a.findNative? name = some index → StandsFor σ history a index name
  named : ∀ {name index}, a.nameOf? index = some name → StandsFor σ history a index name
  native : ∀ {index body}, a.native? index = some body → ∃ name, StandsFor σ history a index name
  /-- There is no index for a name that was not registered, or that has more names before it than there are indices. -/
  missing : ∀ {name}, a.findNative? name = none ↔
    name ∉ history.map Prod.fst ∨ 2147483647 < (history.map Prod.fst).eraseDups.idxOf name
  refused : ∀ {name}, a.findNative? name = none → ∀ {w : World σ} {i}, w.instance? i = some a →
    ∀ host calls params d fuel, (Program.callNamed i name params).run host calls d w (fuel + 1) =
      .done (.error .notFound) w fuel
  /-- Whatever is registered later, an index keeps its name. -/
  lasts : ∀ {name index}, StandsFor σ history a index name → ∀ {later b}, Equipped a later b →
    StandsFor σ (history ++ later) b index name

variable {a b : Instance} {history : List (String × Native)} {name : String} {index : Cell} {body : Native}

theorem callsNative_callIndex (hbody : a.native? index = some body) (i : InstanceId) (params : List Cell) :
    (Program.callIndex i index params : Program σ _).CallsNative 1 i a index body params where
  through ha host calls d fuel := run_callIndex ha host calls index params d fuel
  native ha hleads := by
    obtain ⟨v, hback, hv, hrun⟩ := enter_of_leads hleads ha rfl hbody
    refine ⟨v, hback, hv, fun host depth d fuel => ?_⟩
    rw [run_callIndex ha, hrun]

theorem callsNative_callNamed (hfound : a.findNative? name = some index)
    (hbody : a.native? index = some body) (i : InstanceId) (params : List Cell) :
    (Program.callNamed i name params : Program σ _).CallsNative 2 i a index body params := by
  have hrun : ∀ {w : World σ}, w.instance? i = some a → ∀ host calls d fuel,
      (Program.callNamed i name params).run host calls d w (fuel + 2) =
        (Program.callIndex i index params).run host calls d w (fuel + 1) := fun ha host calls d fuel => by
    rw [run_callNamed ha, hfound]
  have hindex := callsNative_callIndex (σ := σ) hbody i params
  refine ⟨fun ha host calls d fuel => ?_, fun ha hleads => ?_⟩
  · rw [hrun ha, hindex.through ha]
  · obtain ⟨v, hback, hv, hnative⟩ := hindex.native ha hleads
    exact ⟨v, hback, hv, fun host depth d fuel => (hrun ha host _ d fuel).trans (hnative host depth d fuel)⟩

theorem nodup_of_equipped (ha : a.natives = []) (h : Equipped a history b) : b.names.Nodup := by
  have hnone : a.names.Nodup := by
    rw [names, ha]
    exact List.nodup_nil
  rw [h.names_eq]
  exact nodup_registerNatives hnone history

theorem standsFor_of_named (ha : a.natives = []) (h : Equipped a history b) (hname : b.nameOf? index = some name) :
    StandsFor σ history b index name := by
  have hdistinct := nodup_of_equipped ha h
  have hfound := (findNative?_eq_some hdistinct).2 hname
  obtain ⟨body, hbody, hlookup⟩ := native?_of_nameOf? hdistinct hname
  rw [h.natives_eq, lookup_registerNatives ha] at hlookup
  exact ⟨hname, hfound, body, hlookup, hbody, fun i params =>
    ⟨callsNative_callIndex hbody i params, callsNative_callNamed hfound hbody i params⟩⟩

/-- **Natives in their places.** Natives are registered with an instance that has none, in whatever ways and order, under
names that may come any number of times. Then no two natives share a name; an index is found for the names that were
registered, as long as there are indices, and stands for that name alone; what runs under it is what was registered last;
and an index that a name has once it has for good. -/
theorem natives_in_place (ha : a.natives = []) (h : Equipped a history b) : NativeLaw σ history b where
  names := h.names_eq.trans (names_registerNatives ha history)
  distinct := nodup_of_equipped ha h
  found hfound := standsFor_of_named ha h ((findNative?_eq_some (nodup_of_equipped ha h)).1 hfound)
  named hname := standsFor_of_named ha h hname
  native hbody := by
    obtain ⟨name, hname⟩ := nameOf?_of_native? hbody
    exact ⟨name, standsFor_of_named ha h hname⟩
  missing {name} := by
    have hnames := h.names_eq.trans (names_registerNatives ha history)
    rw [findNative?_eq_none, hnames, List.mem_eraseDups]
  refused hnone _ _ hb host calls params d fuel := by
    rw [run_callNamed hb, hnone]
    rfl
  lasts hstands _ _ hlater := by
    refine standsFor_of_named ha (h.trans hlater) (nameOf?_of_isPrefix ?_ hstands.named)
    rw [hlater.names_eq]
    exact names_isPrefix _ _

/-- An instance with a native of a layer, whose execute call this layer intercepts, when the host exchanges the native. -/
def exchanging : Instance :=
  { ((NativeModule.thread.group ⟨0⟩).register (.new 0)).2.registerNatives [("go", .host ⟨0⟩)] with
    callback := .intercept ⟨0⟩ }

/-- The layer keeps the callback that the instance had. -/
def exchangingWorld (a : Instance) : World Unit :=
  { World.single #[a] .drop () .standard ⟨.unsupported, .unsupported, .host⟩ with
    subsystems := #[{ Subsystem.new ⟨0⟩ (.const .plain) .standard ⟨.unsupported, .unsupported, .host⟩ with
      callbacks := Keyed.empty.insert ⟨0⟩ .standard }] }

theorem natives_in_place_exchanged :
    let history := [("thread_detach", .detach ⟨0⟩), ("go", .host ⟨0⟩), ("thread_detach", .host ⟨1⟩)]
    let b := exchanging.registerNatives [("thread_detach", .host ⟨1⟩)]
    (Instance.new 0).natives = [] ∧ Equipped (.new 0) history b ∧ NativeLaw Unit history b ∧
      exchanging.findNative? "thread_detach" = some 0 ∧ b.findNative? "thread_detach" = some 0 ∧
      ∀ host : Host Unit, ∃ w, (Program.callNamed ⟨0⟩ "thread_detach" []).run host (enter host 2) .outside
        (exchangingWorld b) 2 = .cut (.native ⟨0⟩ (.host ⟨1⟩)) w := by
  intro history b
  have hbefore : Equipped (.new 0) [("thread_detach", .detach ⟨0⟩), ("go", .host ⟨0⟩)] exchanging :=
    .meanwhile (.register (.register .nothing (.group (NativeModule.thread.group ⟨0⟩))) (.natives [("go", .host ⟨0⟩)])) rfl
  -- a group that is not enabled comes in between
  have hafter : Equipped (.new 0) history b :=
    .register (.register hbefore (.group ⟨false, [("other", .host ⟨2⟩)]⟩)) (.native "thread_detach" (.host ⟨1⟩))
  have hlaw : NativeLaw Unit history b := natives_in_place rfl hafter
  have hfound : b.findNative? "thread_detach" = some 0 := by decide
  refine ⟨rfl, hafter, hlaw, by decide, hfound, fun host => ?_⟩
  obtain ⟨body, hlast, -, hcalls⟩ := (hlaw.found hfound).last
  have hleads : (exchangingWorld b).Leads ⟨0⟩ b.callback [⟨0⟩] := .intercept rfl rfl List.not_mem_nil .standard
  obtain ⟨w, -, -, hrun⟩ := (hcalls ⟨0⟩ []).2.native rfl hleads
  cases hlast
  exact ⟨w, hrun host 0 .outside 0⟩

end Instance

end

end Interpose

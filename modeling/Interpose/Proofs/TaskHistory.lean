import Mathlib.Data.List.Perm.Basic
import Interpose.Proofs.TaskEntries

/-!
# The history of tasks

What was done with tasks is a list of effects: a task was made, somebody came to wait for it, it was given its result, it
was dropped. Uses that were refused have no effect. What a task is follows from what happened to it since it was made
(`since`, `taskAfter`), and nothing in that looks at a table.

Whoever came to wait for a task still waits, or was handed the result, or was dropped with the task. This is read off what
happened afterwards (`fate`), the first effect that settles it counting; so every registration has one fate, and two
registrations of one token have two.

Main statements: `Agrees.step`, by which the tasks that agree with a history still do after one more effect; and
`Agrees.settled`, that what was handed on is what the registrations are due, each once.
-/

namespace Interpose

namespace Tasks

/-- What can happen to a task. -/
inductive Effect
  /-- It is made. -/
  | made (task : TaskId)
  /-- Somebody comes to wait for it. -/
  | joined (task : TaskId) (token : Token)
  /-- It is given its result. -/
  | completed (task : TaskId) (value : Cell)
  /-- It is dropped with those who wait for it. -/
  | dropped (task : TaskId)
deriving DecidableEq

namespace Effect

/-- The task that something happens to. -/
def task : Effect → TaskId
  | made task => task
  | joined task _ => task
  | completed task _ => task
  | dropped task => task

/-- Who comes to wait. -/
def token? : Effect → Option Token
  | joined _ token => some token
  | _ => none

/-- The result that is given. -/
def value? : Effect → Option Cell
  | completed _ value => some value
  | _ => none

/-- What happened to a task since it was made, after one more effect on it. -/
def extend (past : Option (List Effect)) : Effect → Option (List Effect)
  | made _ => some []
  | dropped _ => none
  | e => past.map (· ++ [e])

end Effect

/-- What happened to a task since it was made. None if there is no such task. -/
def since (task : TaskId) (effects : List Effect) : Option (List Effect) :=
  effects.foldl (fun past e => if e.task = task then e.extend past else past) none

/-- A task to which certain things happened since it was made: the first result that was given stays, and those who came
wait until then. -/
def entryAfter (past : List Effect) : Task where
  result := past.findSome? Effect.value?
  waiters := if (past.findSome? Effect.value?).isSome then [] else past.filterMap Effect.token?

/-- A task after a history, if there is one. -/
def taskAfter (task : TaskId) (effects : List Effect) : Option Task :=
  (since task effects).map entryAfter

/-- What each effect of a history adds, in view of those before it. -/
def along {β : Type} (adds : List Effect → Effect → List β) (before : List Effect) : List Effect → List β
  | [] => []
  | e :: rest => adds before e ++ along adds (before ++ [e]) rest

theorem along_concat {β : Type} (adds : List Effect → Effect → List β) (before effects : List Effect) (e : Effect) :
    along adds before (effects ++ [e]) = along adds before effects ++ adds (before ++ effects) e := by
  induction effects generalizing before with
  | nil => simp [along]
  | cons d rest ih => simp [along, ih]

/-- Who is handed what by an effect: when a task is given its result, those who wait for it. -/
def Effect.hands (entry : Option Task) : Effect → List (Token × Cell)
  | .completed _ value => ((entry.map Task.waiters).getD []).map fun token => (token, value)
  | _ => []

/-- What was handed on in a history. -/
def handed : List Effect → List (Token × Cell) :=
  along (fun before e => e.hands (taskAfter e.task before)) []

theorem handed_concat (effects : List Effect) (e : Effect) :
    handed (effects ++ [e]) = handed effects ++ e.hands (taskAfter e.task effects) :=
  along_concat _ [] effects e

/-! ## What becomes of a registration -/

/-- What becomes of one who came to wait. -/
inductive Fate
  | waiting
  | dropped
  | handed (value : Cell)
deriving DecidableEq

/-- What an effect makes of those who wait for a task. -/
def Effect.settles? (task : TaskId) : Effect → Option Fate
  | .completed target value => if target = task then some (.handed value) else none
  | .dropped target => if target = task then some .dropped else none
  | _ => none

/-- Nobody who waits is settled by waiting on. -/
theorem Effect.settles?_ne (task : TaskId) (e : Effect) : e.settles? task ≠ some .waiting := by
  unfold settles?
  split <;> simp

/-- What becomes of one who waits for a task when certain things happen. -/
def fate (task : TaskId) (effects : List Effect) : Fate :=
  (effects.findSome? (Effect.settles? task)).getD .waiting

/-- One who came to wait for a task, and what became of it. -/
structure Registration where
  task : TaskId
  token : Token
  fate : Fate
deriving DecidableEq

/-- All who came to wait in a history, in the order in which they came. -/
def registrations : List Effect → List Registration
  | [] => []
  | .joined task token :: rest => ⟨task, token, fate task rest⟩ :: registrations rest
  | _ :: rest => registrations rest

namespace Registration

/-- The token if it still waits for a task. -/
def waits? (task : TaskId) (r : Registration) : Option Token :=
  if r.task = task ∧ r.fate = .waiting then some r.token else none

/-- The token with the result that was handed to it. -/
def due? (r : Registration) : Option (Token × Cell) :=
  match r.fate with
  | .handed value => some (r.token, value)
  | _ => none

/-- What one more effect makes of a registration. -/
def later (e : Effect) (r : Registration) : Registration :=
  { r with fate := if r.fate = .waiting then (e.settles? r.task).getD .waiting else r.fate }

theorem waits?_later (e : Effect) (r : Registration) (task : TaskId) :
    (r.later e).waits? task = if (e.settles? task).isSome then none else r.waits? task := by
  by_cases htask : r.task = task
  · subst htask
    by_cases hfate : r.fate = .waiting
    · cases hsettles : e.settles? r.task with
      | none => simp [later, waits?, hfate, hsettles]
      | some f =>
        have hf : f ≠ .waiting := fun h => e.settles?_ne r.task (h ▸ hsettles)
        simp [later, waits?, hfate, hsettles, hf]
    · simp [later, waits?, hfate]
  · simp [later, waits?, htask]

/-- Only those who wait for a task are handed its result when it is given. -/
theorem due?_later (e : Effect) (r : Registration) :
    (r.later e).due? = r.due?.or (e.value?.bind fun value => (r.waits? e.task).map fun token => (token, value)) := by
  cases hfate : r.fate with
  | dropped => simp [later, due?, waits?, hfate]
  | handed value => simp [later, due?, hfate]
  | waiting =>
    cases e with
    | made task => simp [later, due?, hfate, Effect.settles?, Effect.value?]
    | joined task token => simp [later, due?, hfate, Effect.settles?, Effect.value?]
    | completed task value =>
      by_cases htask : task = r.task
      · simp [later, due?, waits?, hfate, Effect.settles?, Effect.value?, Effect.task, htask]
      · simp [later, due?, waits?, hfate, Effect.settles?, Effect.value?, Effect.task, htask, Ne.symm htask]
    | dropped task =>
      by_cases htask : task = r.task <;> simp [later, due?, hfate, Effect.settles?, Effect.value?, htask]

end Registration

theorem fate_concat (task : TaskId) (effects : List Effect) (e : Effect) :
    fate task (effects ++ [e]) =
      if fate task effects = .waiting then (e.settles? task).getD .waiting else fate task effects := by
  unfold fate
  rw [List.findSome?_append]
  cases hsettled : effects.findSome? (Effect.settles? task) with
  | none => simp
  | some f =>
    obtain ⟨d, -, hd⟩ := List.exists_of_findSome?_eq_some hsettled
    have hf : f ≠ .waiting := fun h => d.settles?_ne task (h ▸ hd)
    simp [hf]

/-- One who comes to wait. -/
def Effect.registration? : Effect → Option Registration
  | joined task token => some ⟨task, token, .waiting⟩
  | _ => none

theorem registrations_concat (effects : List Effect) (e : Effect) :
    registrations (effects ++ [e]) = (registrations effects).map (.later e) ++ e.registration?.toList := by
  induction effects with
  | nil => cases e <;> rfl
  | cons d rest ih =>
    cases d with
    | joined task token =>
      simp only [List.cons_append, registrations, List.map_cons, ih, fate_concat]
      rfl
    | _ => exact ih

/-! ## Tasks that agree with a history -/

/-- When an effect is possible. -/
def Effect.Allowed (entry : Option Task) : Effect → Prop
  | .made _ => entry = none
  | .dropped _ => entry.isSome
  | _ => ∃ x, entry = some x ∧ x.result = none

/-- What an effect makes of the task. -/
def Effect.change (entry : Option Task) : Effect → Option Task
  | .made _ => some .fresh
  | .joined _ token => entry.map fun x => { x with waiters := x.waiters ++ [token] }
  | .completed _ value => some { result := some value, waiters := [] }
  | .dropped _ => none

/-- An effect leads from tasks to others. -/
structure Effect.Leads (e : Effect) (t t' : Tasks) : Prop where
  allowed : e.Allowed (t.entry? e.task)
  entries : ∀ task, t'.entry? task = if task = e.task then e.change (t.entry? e.task) else t.entry? task

theorem since_concat (task : TaskId) (effects : List Effect) (e : Effect) :
    since task (effects ++ [e]) = if e.task = task then e.extend (since task effects) else since task effects := by
  unfold since
  rw [List.foldl_concat]

theorem taskAfter_concat {effects : List Effect} {e : Effect} (h : e.Allowed (taskAfter e.task effects))
    (task : TaskId) :
    taskAfter task (effects ++ [e]) =
      if task = e.task then e.change (taskAfter e.task effects) else taskAfter task effects := by
  unfold taskAfter at h ⊢
  rw [since_concat]
  by_cases htask : e.task = task
  · subst htask
    rw [if_pos rfl, if_pos rfl]
    cases e with
    | made task => rfl
    | dropped task => rfl
    | joined task token =>
      obtain ⟨x, hx, hpending⟩ := h
      obtain ⟨past, hpast, rfl⟩ := Option.map_eq_some_iff.1 hx
      have hnone : past.findSome? Effect.value? = none := hpending
      simp [Effect.extend, Effect.change, hpast, entryAfter, hnone, Effect.value?, Effect.token?]
    | completed task value =>
      obtain ⟨x, hx, hpending⟩ := h
      obtain ⟨past, hpast, rfl⟩ := Option.map_eq_some_iff.1 hx
      have hnone : past.findSome? Effect.value? = none := hpending
      simp [Effect.extend, Effect.change, hpast, entryAfter, hnone, Effect.value?]
  · rw [if_neg htask, if_neg fun h => htask h.symm]

/-- The tasks are what a history says. -/
structure Agrees (t : Tasks) (effects : List Effect) : Prop where
  entries : ∀ task, t.entry? task = taskAfter task effects
  /-- No task was given a second result. -/
  once : ∀ task past, since task effects = some past → past.filterMap Effect.value? = (past.findSome? Effect.value?).toList
  /-- Those who are remembered are the registrations that are not settled. -/
  waiting : ∀ task, (registrations effects).filterMap (Registration.waits? task) =
    ((taskAfter task effects).map Task.waiters).getD []
  /-- What was handed on is what the registrations are due. -/
  settled : (handed effects).Perm ((registrations effects).filterMap Registration.due?)

theorem agrees_empty : Agrees .empty [] where
  entries _ := rfl
  once _ _ h := by cases h
  waiting _ := rfl
  settled := .refl _

/-- What is found by two ways of looking that never find anything in the same place. -/
theorem filterMap_perm_append {α β : Type} {f g h : α → Option β} (hf : ∀ a, f a = (g a).or (h a))
    (hg : ∀ a, (g a).isSome → h a = none) (l : List α) : (l.filterMap f).Perm (l.filterMap g ++ l.filterMap h) := by
  induction l with
  | nil => exact .refl _
  | cons a rest ih =>
    cases hga : g a with
    | some b =>
      have hha : h a = none := hg a (by rw [hga]; rfl)
      simpa [hf, hga, hha] using ih
    | none =>
      cases hha : h a with
      | none => simpa [hf, hga, hha] using ih
      | some b =>
        simp only [List.filterMap_cons, hf, hga, hha, Option.none_or]
        exact (List.Perm.cons b (by simpa only [hf] using ih)).trans List.perm_middle.symm

namespace Agrees

variable {t t' : Tasks} {effects : List Effect} {e : Effect}

theorem allowed (h : Agrees t effects) (hl : e.Leads t t') : e.Allowed (taskAfter e.task effects) :=
  h.entries e.task ▸ hl.allowed

theorem once_step (h : Agrees t effects) (hl : e.Leads t t') {task : TaskId} {past : List Effect}
    (hpast : since task (effects ++ [e]) = some past) :
    past.filterMap Effect.value? = (past.findSome? Effect.value?).toList := by
  rw [since_concat] at hpast
  by_cases htask : e.task = task
  · subst htask
    rw [if_pos rfl] at hpast
    cases e with
    | made task =>
      cases hpast
      rfl
    | dropped task => cases hpast
    | joined task token =>
      obtain ⟨before, hbefore, rfl⟩ := Option.map_eq_some_iff.1 hpast
      simp [h.once _ before hbefore, Effect.value?]
    | completed task value =>
      obtain ⟨before, hbefore, rfl⟩ := Option.map_eq_some_iff.1 hpast
      -- a task that has a result is not given another
      obtain ⟨x, hx, hpending⟩ := h.allowed hl
      obtain ⟨before', hbefore', rfl⟩ := Option.map_eq_some_iff.1 hx
      obtain rfl : before = before' := Option.some.inj (hbefore.symm.trans hbefore')
      have hnone : before.findSome? Effect.value? = none := hpending
      have hempty := h.once _ before hbefore
      rw [hnone] at hempty
      simp [hempty, hnone, Effect.value?]
  · rw [if_neg htask] at hpast
    exact h.once task past hpast

theorem waiting_step (h : Agrees t effects) (hl : e.Leads t t') (task : TaskId) :
    (registrations (effects ++ [e])).filterMap (Registration.waits? task) =
      ((taskAfter task (effects ++ [e])).map Task.waiters).getD [] := by
  have hlater : ((registrations effects).map (.later e)).filterMap (Registration.waits? task) =
      if (e.settles? task).isSome then [] else ((taskAfter task effects).map Task.waiters).getD [] := by
    rw [List.filterMap_map]
    split
    · rename_i hsettles
      simp [Registration.waits?_later, hsettles]
    · rename_i hsettles
      rw [← h.waiting]
      simp [Registration.waits?_later, hsettles]
  rw [registrations_concat, List.filterMap_append, hlater, taskAfter_concat (h.allowed hl)]
  have hallowed := h.allowed hl
  by_cases htask : task = e.task
  · subst htask
    rw [if_pos rfl]
    cases e with
    | made task =>
      have hnone : taskAfter task effects = none := hallowed
      simp [Effect.task, Effect.settles?, Effect.registration?, Effect.change, hnone, Task.fresh]
    | joined task token =>
      obtain ⟨x, hx, -⟩ := hallowed
      have hx : taskAfter task effects = some x := hx
      simp [Effect.task, Effect.settles?, Effect.registration?, Registration.waits?, Effect.change, hx]
    | completed task value => simp [Effect.task, Effect.settles?, Effect.registration?, Effect.change]
    | dropped task => simp [Effect.task, Effect.settles?, Effect.registration?, Effect.change]
  · rw [if_neg htask]
    have hother : e.task ≠ task := Ne.symm htask
    cases e <;> simp_all [Effect.task, Effect.settles?, Effect.registration?, Registration.waits?]

theorem settled_step (h : Agrees t effects) (e : Effect) :
    (handed (effects ++ [e])).Perm ((registrations (effects ++ [e])).filterMap Registration.due?) := by
  -- whoever has just come is due nothing
  have hnew : e.registration?.toList.filterMap Registration.due? = [] := by cases e <;> rfl
  -- those who waited are due what the effect hands on
  have hhands : e.hands (taskAfter e.task effects) = (registrations effects).filterMap fun r =>
      e.value?.bind fun value => (r.waits? e.task).map fun token => (token, value) := by
    cases e with
    | completed task value =>
      have hwaiting := h.waiting task
      show List.map _ ((taskAfter task effects).map Task.waiters |>.getD []) = _
      rw [← hwaiting, List.map_filterMap]
      rfl
    | _ => simp [Effect.hands, Effect.value?]
  rw [handed_concat, registrations_concat, List.filterMap_append, hnew, List.append_nil, List.filterMap_map, hhands]
  refine (h.settled.append_right _).trans (filterMap_perm_append ?_ ?_ _).symm
  · exact fun r => Registration.due?_later e r
  · intro r hdue
    -- one who has been handed a result does not wait
    have hfate : r.fate ≠ .waiting := by
      intro hwaiting
      simp [Registration.due?, hwaiting] at hdue
    simp [Registration.waits?, hfate]

/-- The step lemma. -/
theorem step (h : Agrees t effects) (hl : e.Leads t t') : Agrees t' (effects ++ [e]) where
  entries task := by rw [hl.entries, h.entries, h.entries, taskAfter_concat (h.allowed hl)]
  once _ _ := h.once_step hl
  waiting := h.waiting_step hl
  settled := h.settled_step e

end Agrees

end Tasks

end Interpose

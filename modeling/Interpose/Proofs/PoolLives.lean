import Mathlib.Data.List.Infix
import Interpose.Proofs.PoolOperations

/-!
# The lives of pooled strings

What a string is, how often it is referred to and whether it is still there follow from what happened since it was
added. A `Life` is a string that was added, with the steps since; nothing in it looks at the places of a pool. The lives
that have not ended are computed from a history alone (`lives`).

Main statements: `lives_concat`, the lives after one more step; `Life.map_entry_next`, by which a step of a pool does to
the entry of a string what it does to the life of it.
-/

namespace Interpose

namespace Pool

/-! ## Histories -/

/-- An operation and what was answered. -/
structure Step where
  action : Action
  reply : action.Reply

/-- The step that an operation is for a pool. -/
def step (p : Pool) (a : Action) : Step :=
  ⟨a, (p.perform a).1⟩

/-- The pool after operations in a row. -/
def after (p : Pool) (actions : List Action) : Pool :=
  actions.foldl (fun p a => (p.perform a).2) p

/-- The steps that operations in a row are. -/
def history (p : Pool) : List Action → List Step
  | [] => []
  | a :: actions => p.step a :: history (p.perform a).2 actions

namespace Step

/-- Whether a manual reference to a string was added. -/
def acquires (id : StringId) : Step → Bool
  | ⟨.acquire target, .ok _⟩ => target = id
  | _ => false

/-- Whether a manual reference to a string was taken away. -/
def releases (id : StringId) : Step → Bool
  | ⟨.release target, .ok _⟩ => target = id
  | _ => false

/-- Whether the strings were collected. -/
def collects : Step → Bool
  | ⟨.collect, _⟩ => true
  | _ => false

/-- What a step makes of the string with a number. -/
def edited (id : StringId) (s : CellString) : Step → CellString
  | ⟨.edit target change, some _⟩ => if target = id then (change.apply s).2 else s
  | _ => s

end Step

/-- A string that was added to a pool, and what happened since. -/
structure Life where
  id : StringId
  /-- The string as it was added. -/
  first : CellString
  pinned : Bool
  since : List Step

namespace Life

/-- The string after the edits of it. -/
def string (o : Life) : CellString :=
  o.since.foldl (Step.edited o.id) o.first

/-- How often a reference was added. -/
def acquired (o : Life) : Nat :=
  o.since.countP (Step.acquires o.id)

/-- How often a reference was taken away. -/
def released (o : Life) : Nat :=
  o.since.countP (Step.releases o.id)

/-- Whether there was a collection. -/
def collected (o : Life) : Bool :=
  o.since.any Step.collects

/-- The life with further steps. -/
def through (o : Life) (steps : List Step) : Life :=
  { o with since := o.since ++ steps }

/-- Whether a step ends the life: the string is removed; or it is not pinned, there was a collection, and the last
reference is taken away; or it is not pinned, there is no reference, and the strings are collected. -/
def endsWith (o : Life) : Step → Bool
  | ⟨.remove target, .ok _⟩ => target = o.id
  | ⟨.release target, .ok 0⟩ => target = o.id && !o.pinned && o.collected
  | ⟨.collect, _⟩ => !o.pinned && o.acquired == o.released
  | _ => false

/-- Whether the life goes on through further steps. -/
def survives (o : Life) : List Step → Bool
  | [] => true
  | s :: steps => !o.endsWith s && (o.through [s]).survives steps

/-- The entry that belongs to the life. -/
def entry (o : Life) : Entry where
  string := o.string
  refs := o.acquired - o.released
  implicit := !o.pinned && !o.collected
  pinned := o.pinned

/-- The life after one more step, unless the step ends it. -/
def next (s : Step) (o : Life) : Option Life :=
  if o.endsWith s then none else some (o.through [s])

end Life

/-- The life that begins with a step. -/
def Step.begins? : Step → Option Life
  | ⟨.add s, id⟩ => some ⟨id, s, false, []⟩
  | ⟨.addPinned s, id⟩ => some ⟨id, s, true, []⟩
  | _ => none

/-- The lives that a step leaves of those before it: those that it does not end, and the one that begins with it. -/
def Step.leaves (s : Step) (ls : List Life) : List Life :=
  ls.filterMap (Life.next s) ++ s.begins?.toList

/-- The lives that began in a history and have not ended in it. -/
def lives : List Step → List Life
  | [] => []
  | s :: steps =>
    match s.begins? with
    | some o => if o.survives steps then o.through steps :: lives steps else lives steps
    | none => lives steps

theorem since_of_begins {s : Step} {o : Life} (h : s.begins? = some o) : o.since = [] := by
  unfold Step.begins? at h
  split at h
  · rw [← Option.some.inj h]
  · rw [← Option.some.inj h]
  · cases h

/-! ## One step longer -/

theorem after_append (p : Pool) (first second : List Action) :
    p.after (first ++ second) = (p.after first).after second :=
  List.foldl_append

theorem after_concat (p : Pool) (actions : List Action) (a : Action) :
    p.after (actions ++ [a]) = ((p.after actions).perform a).2 :=
  p.after_append actions [a]

theorem history_append (p : Pool) (first second : List Action) :
    p.history (first ++ second) = p.history first ++ (p.after first).history second := by
  induction first generalizing p with
  | nil => rfl
  | cons a first ih =>
    rw [List.cons_append, history, history, ih, List.cons_append]
    rfl

namespace Life

theorem through_through (o : Life) (first second : List Step) :
    (o.through first).through second = o.through (first ++ second) := by
  simp [through]

theorem through_nil (o : Life) : o.through [] = o := by
  simp [through]

theorem survives_append (o : Life) (first second : List Step) :
    o.survives (first ++ second) = (o.survives first && (o.through first).survives second) := by
  -- the rest is asked of the life with the first step, so the life varies
  induction first generalizing o with
  | nil => rw [List.nil_append, through_nil, survives, Bool.true_and]
  | cons s first ih =>
    rw [List.cons_append, survives, survives, ih, through_through, List.singleton_append, Bool.and_assoc]

theorem survives_concat (o : Life) (steps : List Step) (s : Step) :
    o.survives (steps ++ [s]) = (o.survives steps && !(o.through steps).endsWith s) := by
  rw [survives_append, survives, survives, Bool.and_true]

theorem string_through (o : Life) (s : Step) : (o.through [s]).string = s.edited o.id o.string := by
  simp [through, string]

theorem acquired_through (o : Life) (s : Step) :
    (o.through [s]).acquired = o.acquired + if s.acquires o.id then 1 else 0 := by
  simp [through, acquired, List.countP_append, List.countP_cons]

theorem released_through (o : Life) (s : Step) :
    (o.through [s]).released = o.released + if s.releases o.id then 1 else 0 := by
  simp [through, released, List.countP_append, List.countP_cons]

theorem collected_through (o : Life) (s : Step) : (o.through [s]).collected = (o.collected || s.collects) := by
  simp [through, collected]

end Life

/-- The lives after one more step. -/
theorem lives_concat (steps : List Step) (s : Step) : lives (steps ++ [s]) = s.leaves (lives steps) := by
  rw [Step.leaves]
  -- the first step of all either begins no life, or one that goes through the last step or not
  induction steps with
  | nil =>
    simp only [List.nil_append, lives, List.filterMap_nil]
    cases s.begins? with
    | none => rfl
    | some o => simp [Life.survives, Life.through_nil]
  | cons t steps ih =>
    rw [List.cons_append, lives, lives]
    cases t.begins? with
    | none => exact ih
    | some o =>
      dsimp only
      rw [Life.survives_concat, ih]
      cases o.survives steps with
      | false => rfl
      | true =>
        rw [Bool.true_and, if_pos rfl, List.filterMap_cons, Life.next, Life.through_through]
        cases (o.through steps).endsWith s <;> rfl

theorem Life.next_eq_some {s : Step} {o o' : Life} : o.next s = some o' ↔ o.endsWith s = false ∧ o' = o.through [s] := by
  unfold next
  cases o.endsWith s with
  | false => simpa using eq_comm
  | true => simp

theorem Step.mem_leaves {s : Step} {ls : List Life} {o' : Life} :
    o' ∈ s.leaves ls ↔ (∃ o ∈ ls, o.endsWith s = false ∧ o' = o.through [s]) ∨ s.begins? = some o' := by
  rw [leaves, List.mem_append, List.mem_filterMap, Option.mem_toList]
  simp only [Life.next_eq_some]

/-! ## A life and its entry -/

variable {p : Pool} {o : Life} {ls : List Life} {id target : StringId} {e : Entry}

theorem step_eq {a : Action} {reply : a.Reply} {q : Pool} (h : p.perform a = (reply, q)) : p.step a = ⟨a, reply⟩ := by
  rw [step, h]

namespace Step

/-! An operation on another string does nothing to this one, whatever it answers. -/

theorem edited_of_ne (h : target ≠ id) {change : CellString.Edit} (reply : Option Bool) (s : CellString) :
    edited id s ⟨.edit target change, reply⟩ = s := by
  cases reply <;> simp [edited, h]

theorem acquires_of_ne (h : target ≠ id) (reply : Except PoolError Nat) :
    acquires id ⟨.acquire target, reply⟩ = false := by
  cases reply <;> simp [acquires, h]

theorem releases_of_ne (h : target ≠ id) (reply : Except PoolError Nat) :
    releases id ⟨.release target, reply⟩ = false := by
  cases reply <;> simp [releases, h]

end Step

namespace Life

theorem endsWith_remove_of_ne (h : target ≠ o.id) (reply : Except PoolError CellString) :
    o.endsWith ⟨.remove target, reply⟩ = false := by
  cases reply <;> simp [endsWith, h]

theorem endsWith_release_of_ne (h : target ≠ o.id) (reply : Except PoolError Nat) :
    o.endsWith ⟨.release target, reply⟩ = false := by
  unfold endsWith
  split <;> simp_all

/-- Nothing but its own implicit reference, or a pin, keeps the string of a life whose last reference goes. -/
theorem endsWith_release (o : Life) (refs : Nat) :
    o.endsWith ⟨.release o.id, .ok refs⟩ = { o.entry with refs : Entry }.isUnreferenced := by
  cases refs with
  | zero =>
    simp only [endsWith, Entry.isUnreferenced, entry, decide_true]
    cases o.pinned <;> cases o.collected <;> rfl
  | succ refs => simp [endsWith, Entry.isUnreferenced]

theorem endsWith_collect (hle : o.released ≤ o.acquired) (reply : Nat) :
    o.endsWith ⟨.collect, reply⟩ = o.entry.dropImplicit.isUnreferenced := by
  -- no more references are taken away than there are, so equal counts mean that none is left
  have hrefs : (o.acquired == o.released) = (o.acquired - o.released == 0) := by
    rw [Bool.eq_iff_iff, beq_iff_eq, beq_iff_eq]
    omega
  simp only [endsWith, Entry.isUnreferenced, Entry.dropImplicit, entry, hrefs, Bool.not_false, Bool.and_true]
  exact Bool.and_comm _ _

theorem entry_through (o : Life) (s : Step) :
    (o.through [s]).entry =
      { string := s.edited o.id o.string
        refs := (o.acquired + if s.acquires o.id then 1 else 0) - (o.released + if s.releases o.id then 1 else 0)
        implicit := !o.pinned && !(o.collected || s.collects)
        pinned := o.pinned } := by
  simp only [entry, string_through, acquired_through, released_through, collected_through]
  rfl

/-- The life goes on through a step that has nothing to do with its string. -/
structure Idle (o : Life) (s : Step) : Prop where
  ends : o.endsWith s = false
  edited : s.edited o.id o.string = o.string
  acquires : s.acquires o.id = false
  releases : s.releases o.id = false
  collects : s.collects = false

theorem map_entry_next_of_goes {s : Step} (h : o.endsWith s = false) :
    (o.next s).map entry = some (o.through [s]).entry := by
  rw [next, h]
  rfl

theorem Idle.map_entry_next {s : Step} (h : o.Idle s) : (o.next s).map entry = some o.entry := by
  rw [map_entry_next_of_goes h.ends, entry_through, h.edited, h.acquires, h.releases, h.collects, Bool.or_false]
  rfl

theorem idle_of_target_ne {a : Action} (ha : a.target? = some target) (hne : target ≠ o.id) (p : Pool) :
    o.Idle (p.step a) := by
  cases a with
  | edit other change =>
    cases ha
    exact ⟨rfl, Step.edited_of_ne hne _ _, rfl, rfl, rfl⟩
  | remove other =>
    cases ha
    exact ⟨endsWith_remove_of_ne hne _, rfl, rfl, rfl, rfl⟩
  | acquire other =>
    cases ha
    exact ⟨rfl, rfl, Step.acquires_of_ne hne _, rfl, rfl⟩
  | release other =>
    cases ha
    exact ⟨endsWith_release_of_ne hne _, rfl, rfl, Step.releases_of_ne hne _, rfl⟩
  | _ => cases ha

/-! An operation on the string of a life. -/

theorem map_entry_next_edit (he : p.entry? o.id = some o.entry) (change : CellString.Edit) :
    (o.next (p.step (.edit o.id change))).map entry = o.entry.after o.id (.edit o.id change) := by
  rw [step_eq (perform_edit he change), Entry.after, if_pos rfl, map_entry_next_of_goes rfl, entry_through]
  simp [entry, Step.edited, Step.acquires, Step.releases, Step.collects]

theorem map_entry_next_remove (he : p.entry? o.id = some o.entry) :
    (o.next (p.step (.remove o.id))).map entry = o.entry.after o.id (.remove o.id) := by
  have hends : o.endsWith ⟨.remove o.id, .ok o.entry.string⟩ = true := by simp [endsWith]
  rw [step_eq (perform_remove he), Entry.after, if_pos rfl, next, if_pos hends]
  rfl

theorem map_entry_next_acquire (he : p.entry? o.id = some o.entry) (hle : o.released ≤ o.acquired) :
    (o.next (p.step (.acquire o.id))).map entry = o.entry.after o.id (.acquire o.id) := by
  have hperform := perform_acquire he
  rw [Entry.after]
  by_cases hmore : o.entry.refs < mostRefs
  · rw [if_pos hmore] at hperform
    rw [if_pos ⟨rfl, hmore⟩, step_eq hperform, map_entry_next_of_goes rfl, entry_through]
    have hcount : o.acquired + 1 - o.released = o.acquired - o.released + 1 := by omega
    simp [entry, Step.edited, Step.acquires, Step.releases, Step.collects, hcount]
  · -- a reference that is refused is not counted
    rw [if_neg hmore] at hperform
    rw [if_neg (fun h => hmore h.2), step_eq hperform]
    exact Idle.map_entry_next ⟨rfl, rfl, rfl, rfl, rfl⟩

theorem map_entry_next_release (he : p.entry? o.id = some o.entry) :
    (o.next (p.step (.release o.id))).map entry = o.entry.after o.id (.release o.id) := by
  rw [Entry.after, if_pos rfl]
  cases hrefs : o.entry.refs with
  | zero =>
    rw [step_eq (perform_release_zero he hrefs)]
    exact Idle.map_entry_next ⟨rfl, rfl, rfl, rfl, rfl⟩
  | succ refs =>
    rw [step_eq (perform_release_succ he hrefs), next, endsWith_release]
    dsimp only
    split
    · rfl
    · -- one reference more was taken away, so one is left less
      have hcounted : o.acquired - o.released = refs + 1 := hrefs
      have hcount : o.acquired - (o.released + 1) = refs := by omega
      rw [Option.map_some, entry_through]
      simp [entry, Step.edited, Step.acquires, Step.releases, Step.collects, hcount]

theorem map_entry_next_collect (p : Pool) (hle : o.released ≤ o.acquired) :
    (o.next (p.step .collect)).map entry = o.entry.after o.id .collect := by
  have hends : o.endsWith (p.step .collect) = o.entry.dropImplicit.isUnreferenced := endsWith_collect hle _
  rw [Entry.after, next, hends]
  split
  · rfl
  · rw [Option.map_some, entry_through]
    simp [entry, Entry.dropImplicit, step, Step.edited, Step.acquires, Step.releases, Step.collects]

/-- A step does to the entry of a string what its life says. -/
theorem map_entry_next (a : Action) (he : p.entry? o.id = some o.entry) (hle : o.released ≤ o.acquired) :
    (o.next (p.step a)).map entry = o.entry.after o.id a := by
  by_cases hother : ∃ target, a.target? = some target ∧ target ≠ o.id
  · obtain ⟨target, ha, hne⟩ := hother
    rw [Entry.after_of_target_ne ha hne]
    exact (idle_of_target_ne ha hne p).map_entry_next
  · -- what is left are operations on this string, and those that are on no string
    have hown : ∀ target, a.target? = some target → target = o.id := fun target ha =>
      Classical.byContradiction fun hne => hother ⟨target, ha, hne⟩
    cases a with
    | edit target change =>
      obtain rfl := hown target rfl
      exact map_entry_next_edit he change
    | remove target =>
      obtain rfl := hown target rfl
      exact map_entry_next_remove he
    | acquire target =>
      obtain rfl := hown target rfl
      exact map_entry_next_acquire he hle
    | release target =>
      obtain rfl := hown target rfl
      exact map_entry_next_release he
    | collect => exact map_entry_next_collect p hle
    | _ => exact Idle.map_entry_next ⟨rfl, rfl, rfl, rfl, rfl⟩

end Life

/-- A reference is taken away only where there is one. -/
theorem refs_pos_of_releases {a : Action} (he : p.entry? id = some e) (h : (p.step a).releases id = true) :
    0 < e.refs := by
  cases a with
  | release target =>
    by_cases hid : target = id
    · subst hid
      by_contra hzero
      rw [step_eq (perform_release_zero he (by omega))] at h
      cases h
    · have hother : (p.step (.release target)).releases id = false := Step.releases_of_ne hid _
      rw [hother] at h
      cases h
  | _ => cases h

theorem Life.released_le_through (a : Action) (he : p.entry? o.id = some o.entry) (hle : o.released ≤ o.acquired) :
    (o.through [p.step a]).released ≤ (o.through [p.step a]).acquired := by
  rw [released_through, acquired_through]
  by_cases hreleases : (p.step a).releases o.id = true
  · have hrefs : 0 < o.acquired - o.released := refs_pos_of_releases he hreleases
    rw [if_pos hreleases]
    omega
  · rw [if_neg hreleases]
    omega

end Pool

end Interpose

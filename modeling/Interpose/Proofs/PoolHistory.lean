import Interpose.Proofs.PoolLives

/-!
# The history of a pool

A pool keeps its strings in places that are used again and again, counts references up and down, and forgets what it did.
After every operation it nevertheless has exactly the strings whose lives, by the history of the operations, have not
ended, and of each of them the entry that its life gives it. This is carried through any number of operations by one
invariant, `Agrees`; it needs that there are never more strings than numbers (`Fits`).

Main statement: `lifetimes`, what holds of the strings of a pool after any operations.
-/

namespace Interpose

namespace Pool

variable {p : Pool} {o : Life} {ls : List Life} {id : StringId} {e : Entry}

/-! ## The pool and the lives -/

/-- A pool has exactly the strings whose lives are listed, with the entries that belong to these lives. -/
structure Agrees (p : Pool) (ls : List Life) : Prop where
  wellFormed : WellFormed p
  nodup : (ls.map Life.id).Nodup
  entry : ∀ o ∈ ls, p.entry? o.id = some o.entry
  released : ∀ o ∈ ls, o.released ≤ o.acquired
  listed : ∀ id, p.contains id = true → ∃ o ∈ ls, o.id = id

theorem agrees_empty : Agrees empty [] := by
  refine ⟨wellFormed_empty, List.nodup_nil, by simp, by simp, fun id hc => ?_⟩
  obtain ⟨e, he⟩ := contains_iff.1 hc
  obtain ⟨slot, -, ho⟩ := entry?_eq_some.1 he
  have hsize : slot < 0 := lt_size_of_occupant ho
  omega

namespace Agrees

theorem contains_iff (h : Agrees p ls) : p.contains id = true ↔ ∃ o ∈ ls, o.id = id := by
  refine ⟨h.listed id, ?_⟩
  rintro ⟨o, ho, rfl⟩
  exact Pool.contains_iff.2 ⟨_, h.entry o ho⟩

theorem length (h : Agrees p ls) : ls.length = p.live := by
  -- the numbers of the lives and those of the strings are the same, and neither list repeats one
  have hperm : (ls.map Life.id).Perm p.ids := by
    refine (List.perm_ext_iff_of_nodup h.nodup h.wellFormed.nodup_ids).2 fun id => ?_
    rw [h.wellFormed.mem_ids, h.contains_iff, List.mem_map]
  have hlength := hperm.length_eq
  rwa [List.length_map, h.wellFormed.length_ids] at hlength

end Agrees

theorem map_id_next (s : Step) (ls : List Life) :
    ((ls.filterMap (Life.next s)).map Life.id).Sublist (ls.map Life.id) := by
  induction ls with
  | nil => exact List.Sublist.slnil
  | cons o ls ih =>
    rw [List.filterMap_cons]
    cases hnext : o.next s with
    | none => exact ih.cons o.id
    | some o' =>
      -- a life keeps its number
      obtain ⟨-, rfl⟩ := Life.next_eq_some.1 hnext
      exact ih.cons_cons o.id

/-- Adding a string begins a life with the entry that is added. -/
theorem begins?_of_adds {a : Action} (h : a.adds? = some e) (p : Pool) :
    ∃ o, (p.step a).begins? = some o ∧ o.id = (p.insert e).1 ∧ o.entry = e := by
  cases a <;> cases h <;> exact ⟨_, rfl, rfl, rfl⟩

theorem begins?_of_not_adds {a : Action} (h : a.adds? = none) (p : Pool) : (p.step a).begins? = none := by
  cases a <;> cases h <;> rfl

/-- Adding a string ends no life. -/
theorem length_leaves_of_adds {a : Action} (h : a.adds? = some e) (p : Pool) (ls : List Life) :
    ((p.step a).leaves ls).length = ls.length + 1 := by
  have hnext : Life.next (p.step a) = fun o => some (o.through [p.step a]) := by
    cases a <;> cases h <;> rfl
  obtain ⟨o, hbegins, -⟩ := begins?_of_adds h p
  rw [Step.leaves, hnext, hbegins, List.length_append, List.filterMap_eq_map', List.length_map]
  rfl

namespace Agrees

/-- Where there are numbers for the lives, there are numbers for the strings. -/
theorem room (h : Agrees p ls) {a : Action} (hroom : ((p.step a).leaves ls).length ≤ mostStrings) :
    (p.perform a).2.live ≤ mostStrings := by
  cases hadds : a.adds? with
  | none =>
    have hafter := h.wellFormed.perform_of_not_adds hadds
    have htotal := hafter.total
    have hsize := hafter.room
    omega
  | some e =>
    rw [length_leaves_of_adds hadds, h.length] at hroom
    rw [perform_adds hadds, live_insert]
    exact hroom

/-- A life begins with a number that no string has, and with the entry that belongs to it. -/
theorem begun (h : Agrees p ls) {a : Action} (hlive : (p.perform a).2.live ≤ mostStrings)
    (hbegins : (p.step a).begins? = some o) :
    p.contains o.id = false ∧ o.id.isNull = false ∧ Pool.entry? (p.perform a).2 o.id = some o.entry := by
  cases hadds : a.adds? with
  | none =>
    rw [begins?_of_not_adds hadds] at hbegins
    cases hbegins
  | some e =>
    have hnew := lt_of_adds hadds hlive
    obtain ⟨o', hbegins', hid, hentry⟩ := begins?_of_adds hadds p
    obtain rfl : o' = o := Option.some.inj (hbegins'.symm.trans hbegins)
    rw [contains_eq_false, hid, perform_adds hadds, h.wellFormed.entry?_insert hnew, if_pos rfl, hentry]
    exact ⟨h.wellFormed.entry?_insert_fst hnew e, h.wellFormed.isNull_insert_fst hnew e, rfl⟩

theorem entry?_perform (h : Agrees p ls) {a : Action} (hlive : (p.perform a).2.live ≤ mostStrings) (ho : o ∈ ls) :
    Pool.entry? (p.perform a).2 o.id = (o.next (p.step a)).map Life.entry := by
  rw [h.wellFormed.entry?_perform hlive (h.entry o ho), Life.map_entry_next a (h.entry o ho) (h.released o ho)]

/-- The string of a life is still there exactly if the step did not end the life. -/
theorem contains_perform (h : Agrees p ls) {a : Action} (hlive : (p.perform a).2.live ≤ mostStrings) (ho : o ∈ ls) :
    (p.perform a).2.contains o.id = true ↔ o.endsWith (p.step a) = false := by
  rw [contains, h.entry?_perform hlive ho, Life.next]
  split
  · rename_i hends
    simp [hends]
  · rename_i hends
    simp [hends]

/-- No two lives have one number after a step, since a number that some life has is not given to a new one. -/
theorem nodup_leaves (h : Agrees p ls) {a : Action} (hlive : (p.perform a).2.live ≤ mostStrings) :
    (((p.step a).leaves ls).map Life.id).Nodup := by
  rw [Step.leaves, List.map_append]
  refine ((map_id_next _ ls).nodup h.nodup).append ?_ ?_
  · cases (p.step a).begins? <;> simp
  · intro id hold hnew
    obtain ⟨o, ho, rfl⟩ := List.mem_map.1 hnew
    obtain ⟨o', ho', hid⟩ := List.mem_map.1 ((map_id_next _ ls).subset hold)
    have hfresh := (h.begun hlive (Option.mem_toList.1 ho)).1
    rw [← hid, contains_eq_false, h.entry o' ho'] at hfresh
    cases hfresh

/-- The pool and the lives stay in agreement through a step. -/
theorem perform (h : Agrees p ls) (a : Action) (hroom : ((p.step a).leaves ls).length ≤ mostStrings) :
    Agrees (p.perform a).2 ((p.step a).leaves ls) := by
  have hlive := h.room hroom
  refine ⟨h.wellFormed.perform hlive, h.nodup_leaves hlive, fun o ho => ?_, fun o ho => ?_, fun id hc => ?_⟩
  · rcases Step.mem_leaves.1 ho with ⟨o', ho', hgoes, rfl⟩ | hbegins
    · have hsame := h.entry?_perform hlive ho'
      rw [Life.next_eq_some.2 ⟨hgoes, rfl⟩, Option.map_some] at hsame
      exact hsame
    · exact (h.begun hlive hbegins).2.2
  · rcases Step.mem_leaves.1 ho with ⟨o', ho', -, rfl⟩ | hbegins
    · exact Life.released_le_through a (h.entry o' ho') (h.released o' ho')
    · -- no reference is taken away in a life that just began
      simp [Life.released, since_of_begins hbegins]
  · rcases h.wellFormed.contains_of_contains_perform hlive hc with hold | ⟨e, hadds, rfl⟩
    · obtain ⟨o, ho, rfl⟩ := h.listed id hold
      exact ⟨_, Step.mem_leaves.2 (.inl ⟨o, ho, (h.contains_perform hlive ho).1 hc, rfl⟩), rfl⟩
    · obtain ⟨o, hbegins, hid, -⟩ := begins?_of_adds hadds p
      exact ⟨o, Step.mem_leaves.2 (.inr hbegins), hid⟩

end Agrees

/-! ## Every history -/

/-- At no moment are there more strings than numbers. -/
def Fits (actions : List Action) : Prop :=
  ∀ earlier, earlier <+: actions → (lives (empty.history earlier)).length ≤ mostStrings

theorem Fits.of_prefix {earlier actions : List Action} (h : Fits actions) (hearlier : earlier <+: actions) :
    Fits earlier :=
  fun start hstart => h start (hstart.trans hearlier)

theorem length_history (p : Pool) (actions : List Action) : (p.history actions).length = actions.length := by
  induction actions generalizing p with
  | nil => rfl
  | cons a actions ih => rw [history, List.length_cons, List.length_cons, ih]

theorem length_lives_le (steps : List Step) : (lives steps).length ≤ steps.length := by
  induction steps with
  | nil => exact Nat.le_refl 0
  | cons s steps ih =>
    rw [lives, List.length_cons]
    split
    · split
      · rw [List.length_cons]
        omega
      · omega
    · omega

/-- So few operations cannot run out of numbers. -/
theorem fits_of_length {actions : List Action} (h : actions.length ≤ mostStrings) : Fits actions := by
  intro earlier hearlier
  have hlives := length_lives_le (empty.history earlier)
  have hlength := hearlier.length_le
  rw [length_history] at hlives
  omega

theorem lives_history_concat (p : Pool) (actions : List Action) (a : Action) :
    lives (p.history (actions ++ [a])) = ((p.after actions).step a).leaves (lives (p.history actions)) := by
  rw [history_append, ← lives_concat]
  rfl

/-- Whatever is done, the pool has exactly the strings whose lives have not ended. -/
theorem Fits.agrees {actions : List Action} (h : Fits actions) :
    Agrees (empty.after actions) (lives (empty.history actions)) := by
  -- from the pool before the last operation to the one after it
  induction actions using List.reverseRecOn with
  | nil => exact agrees_empty
  | append_singleton actions a ih =>
    have hearlier := ih (h.of_prefix (List.prefix_append actions [a]))
    have hroom := h _ List.prefix_rfl
    rw [lives_history_concat] at hroom ⊢
    rw [after_concat]
    exact hearlier.perform a hroom

/-- A history that is cut in two is the history of operations that are cut in two. -/
theorem history_eq_append {actions : List Action} {first second : List Step}
    (h : p.history actions = first ++ second) :
    ∃ earlier later, actions = earlier ++ later ∧ p.history earlier = first := by
  induction first generalizing p actions with
  | nil => exact ⟨[], actions, rfl, rfl⟩
  | cons s first ih =>
    cases actions with
    | nil => cases h
    | cons a actions =>
      rw [history, List.cons_append] at h
      obtain ⟨hs, hrest⟩ := List.cons.inj h
      obtain ⟨earlier, later, rfl, hfirst⟩ := ih hrest
      exact ⟨a :: earlier, later, rfl, by rw [history, hs, hfirst]⟩

/-- A life that began and went on through everything since is one of those that have not ended. -/
theorem mem_lives {before later : List Step} {s : Step} (hbegins : s.begins? = some o)
    (hsurvives : o.survives later = true) : o.through later ∈ lives (before ++ s :: later) := by
  induction before with
  | nil =>
    rw [List.nil_append, lives, hbegins]
    dsimp only
    rw [if_pos hsurvives]
    exact List.mem_cons_self
  | cons t before ih =>
    rw [List.cons_append, lives]
    split
    · split
      · exact List.mem_cons_of_mem _ ih
      · exact ih
    · exact ih

/-- A number that no life has is no life's number until it is given to one. -/
theorem not_mem_lives_append {steps later : List Step} (h : ∀ o ∈ lives steps, o.id ≠ id)
    (hlater : ∀ s ∈ later, ∀ o, s.begins? = some o → o.id ≠ id) : ∀ o ∈ lives (steps ++ later), o.id ≠ id := by
  -- each further step leaves lives that were there, and begins lives with other numbers
  induction later using List.reverseRecOn with
  | nil => simpa using h
  | append_singleton later s ih =>
    have hearlier := ih fun t ht => hlater t (List.mem_append_left _ ht)
    rw [← List.append_assoc, lives_concat]
    intro o ho
    rcases Step.mem_leaves.1 ho with ⟨o', ho', -, rfl⟩ | hbegins
    · exact hearlier o' ho'
    · exact hlater s (by simp) o hbegins

/-- After the step that ends a life no life has its number. -/
theorem not_mem_lives_of_ends {steps : List Step} {s : Step} (hnodup : ((lives steps).map Life.id).Nodup)
    (ho : o ∈ lives steps) (hends : o.endsWith s = true) (hbegins : s.begins? = none) :
    ∀ o' ∈ lives (steps ++ [s]), o'.id ≠ o.id := by
  intro o' ho' hid
  rw [lives_concat] at ho'
  rcases Step.mem_leaves.1 ho' with ⟨o₁, ho₁, hgoes, rfl⟩ | hnew
  · obtain rfl : o₁ = o := List.inj_on_of_nodup_map hnodup ho₁ ho hid
    rw [hends] at hgoes
    cases hgoes
  · rw [hbegins] at hnew
    cases hnew

/-- A step that ends a life begins none. -/
theorem begins?_of_endsWith {s : Step} (h : o.endsWith s = true) : s.begins? = none := by
  unfold Step.begins?
  split
  · cases h
  · cases h
  · rfl

/-- Collecting ends exactly the lives that it counts. -/
theorem Agrees.fst_collect (h : Agrees p ls) :
    p.collect.1 = (ls.filter fun o => o.endsWith (p.step .collect)).length := by
  have hmem : ∀ id, id ∈ p.withoutImplicit.unreferenced ↔
      id ∈ (ls.filter fun o => o.endsWith (p.step .collect)).map Life.id := by
    intro id
    rw [mem_unreferenced h.wellFormed.withoutImplicit.room, entry?_withoutImplicit, List.mem_map]
    constructor
    · rintro ⟨e, he, hu⟩
      obtain ⟨e', he', rfl⟩ := Option.map_eq_some_iff.1 he
      obtain ⟨o, ho, rfl⟩ := h.listed id (Pool.contains_iff.2 ⟨e', he'⟩)
      obtain rfl : o.entry = e' := Option.some.inj ((h.entry o ho).symm.trans he')
      have hends : o.endsWith (p.step .collect) = true := (Life.endsWith_collect (h.released o ho) _).trans hu
      exact ⟨o, List.mem_filter.2 ⟨ho, hends⟩, rfl⟩
    · rintro ⟨o, ho, rfl⟩
      obtain ⟨ho, hends⟩ := List.mem_filter.1 ho
      have hu := (Life.endsWith_collect (h.released o ho) _).symm.trans hends
      exact ⟨o.entry.dropImplicit, by rw [h.entry o ho, Option.map_some], hu⟩
  -- neither list repeats a number, so they are of one length
  have hperm := (List.perm_ext_iff_of_nodup h.wellFormed.withoutImplicit.nodup_unreferenced
    ((List.filter_sublist.map Life.id).nodup h.nodup)).2 hmem
  rw [collect_eq, hperm.length_eq, List.length_map]

/-- What is known of the strings of a pool after operations, by their history. -/
structure LifetimeLaw (actions : List Action) : Prop where
  /-- A string that is added gets a number that is free, and not that of the null string. -/
  fresh : ∀ earlier a o, earlier ++ [a] <+: actions → ((empty.after earlier).step a).begins? = some o →
    (empty.after earlier).contains o.id = false ∧ o.id.isNull = false
  /-- While its life goes on it is there, with the edits made of it and the references to it that are left. -/
  alive : ∀ before s later o, empty.history actions = before ++ s :: later → s.begins? = some o →
    o.survives later = true →
      (empty.after actions).get? o.id = some (o.through later).string ∧
        (empty.after actions).refCount? o.id = some ((o.through later).acquired - (o.through later).released) ∧
          (o.through later).released ≤ (o.through later).acquired
  /-- Once its life has ended it is not there, and nothing is done with its number until this is given away again. -/
  ended : ∀ before s lived e later o, empty.history actions = before ++ s :: lived ++ e :: later →
    s.begins? = some o → o.survives lived = true → (o.through lived).endsWith e = true →
      (∀ t ∈ later, ∀ o', t.begins? = some o' → o'.id ≠ o.id) →
        (empty.after actions).contains o.id = false ∧
          ((empty.after actions).perform (.remove o.id)).1 = .error (.invalidId o.id.raw) ∧
            ((empty.after actions).perform (.acquire o.id)).1 = .error (.invalidId o.id.raw) ∧
              ((empty.after actions).perform (.release o.id)).1 = .error (.invalidId o.id.raw)
  /-- No two strings have one number. -/
  distinct : ((lives (empty.history actions)).map Life.id).Nodup
  /-- The strings that are there are those whose lives have not ended. -/
  contains : ∀ id, (empty.after actions).contains id = true ↔ ∃ o ∈ lives (empty.history actions), o.id = id
  /-- They are counted. -/
  live : (empty.after actions).live = (lives (empty.history actions)).length
  /-- Collecting answers how many lives it ends. -/
  collect : ((empty.after actions).perform .collect).1 =
    ((lives (empty.history actions)).filter fun o => o.endsWith ((empty.after actions).step .collect)).length

/-- Whatever is done with a pool, as long as there are numbers for its strings. -/
theorem lifetimes (actions : List Action) (h : Fits actions) : LifetimeLaw actions := by
  have hagrees := h.agrees
  refine ⟨fun earlier a o hearlier hbegins => ?_, fun before s later o hsplit hbegins hsurvives => ?_,
    fun before s lived e later o hsplit hbegins hsurvives hends hlater => ?_, hagrees.nodup,
    fun id => hagrees.contains_iff, hagrees.length.symm, hagrees.fst_collect⟩
  · have hbefore := (h.of_prefix ((List.prefix_append earlier [a]).trans hearlier)).agrees
    have hroom := h _ hearlier
    rw [lives_history_concat] at hroom
    have hnew := hbefore.begun (hbefore.room hroom) hbegins
    exact ⟨hnew.1, hnew.2.1⟩
  · have ho : o.through later ∈ lives (empty.history actions) := hsplit ▸ mem_lives hbegins hsurvives
    have hentry : Pool.entry? (empty.after actions) o.id = some (o.through later).entry := hagrees.entry _ ho
    exact ⟨by rw [get?, hentry]; rfl, by rw [refCount?, hentry]; rfl, hagrees.released _ ho⟩
  · -- up to the step that ends it, the life is the only one with its number
    have hlives : ∀ o' ∈ lives (empty.history actions), o'.id ≠ o.id := by
      obtain ⟨start, rest, hstart, hhistory⟩ := history_eq_append hsplit
      have hnodup := (h.of_prefix (hstart ▸ List.prefix_append start rest)).agrees.nodup
      rw [hhistory] at hnodup
      have hgone := not_mem_lives_of_ends hnodup (mem_lives hbegins hsurvives) hends (begins?_of_endsWith hends)
      have hstill := not_mem_lives_append hgone hlater
      rwa [List.append_assoc, List.singleton_append, ← hsplit] at hstill
    have hnot : (empty.after actions).contains o.id = false := by
      rw [← Bool.not_eq_true, hagrees.contains_iff]
      rintro ⟨o', ho', hid⟩
      exact hlives o' ho' hid
    obtain ⟨-, hremove, hacquire, hrelease⟩ := perform_of_not_contains hnot
    rw [hremove, hacquire, hrelease]
    exact ⟨hnot, rfl, rfl, rfl⟩

/-- A string is acquired, outlives a collection, and ends with its last reference; its number is given away again. -/
def borrowing : List Action :=
  [.add (.ofCells [1, 2]), .acquire ⟨1⟩, .collect, .edit ⟨1⟩ (.push 1), .release ⟨1⟩, .addPinned (.ofCells [2])]

theorem lifetimes_borrowing :
    Fits borrowing ∧ (lives (empty.history borrowing)).map Life.string = [.ofCells [2]] ∧ LifetimeLaw borrowing :=
  have hfits : Fits borrowing := fits_of_length (by decide)
  ⟨hfits, by decide +kernel, lifetimes borrowing hfits⟩

end Pool

end Interpose

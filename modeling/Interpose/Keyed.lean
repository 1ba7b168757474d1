/-!
# Keyed collections

A finite number of values under distinct keys. Nothing here depends on an order of the entries, so an entry that is
written anew may move; what counts is `get?`, the value under a key, and `size`.

Main statements: `get?_insert`, `get?_erase` and `get?_refine` say what each operation does to `get?`.
-/

namespace Interpose

/-- Values under distinct keys. -/
structure Keyed (κ α : Type) where
  entries : List (κ × α)
  distinct : (entries.map Prod.fst).Nodup

namespace Keyed

variable {κ α : Type}

/-- The collection without entries. -/
def empty : Keyed κ α :=
  ⟨[], List.Pairwise.nil⟩

instance : Inhabited (Keyed κ α) := ⟨empty⟩

/-- The number of entries. -/
def size (m : Keyed κ α) : Nat :=
  m.entries.length

/-- Whether there are no entries. -/
def isEmpty (m : Keyed κ α) : Bool :=
  m.entries.isEmpty

/-- The keys, each once. -/
def keys (m : Keyed κ α) : List κ :=
  m.entries.map Prod.fst

variable [DecidableEq κ]

/-- The value under a key in a list of entries. -/
def find? (k : κ) : List (κ × α) → Option α
  | [] => none
  | (l, a) :: rest => if l = k then some a else find? k rest

/-- The value under a key. -/
def get? (m : Keyed κ α) (k : κ) : Option α :=
  find? k m.entries

/-- Whether there is a value under a key. -/
def contains (m : Keyed κ α) (k : κ) : Bool :=
  (m.get? k).isSome

/-- The entries under other keys. -/
def others (k : κ) (entries : List (κ × α)) : List (κ × α) :=
  entries.filter fun e => e.1 ≠ k

/-- Removes the value under a key, if there is one. -/
def erase (m : Keyed κ α) (k : κ) : Keyed κ α where
  entries := others k m.entries
  distinct := m.distinct.sublist (List.filter_sublist.map _)

/-- Puts a value under a key, in place of the one that is there. -/
def insert (m : Keyed κ α) (k : κ) (a : α) : Keyed κ α where
  entries := (k, a) :: others k m.entries
  distinct := by
    refine List.nodup_cons.2 ⟨fun h => ?_, (m.erase k).distinct⟩
    obtain ⟨e, he, hk⟩ := List.mem_map.1 h
    have := (List.mem_filter.1 he).2
    simp [hk] at this

/-- The entries with each value changed, or dropped where the change gives none. -/
def refineEntries (f : α → Option α) : List (κ × α) → List (κ × α)
  | [] => []
  | (k, a) :: rest =>
    match f a with
    | some b => (k, b) :: refineEntries f rest
    | none => refineEntries f rest

omit [DecidableEq κ] in
theorem keys_refineEntries (f : α → Option α) (entries : List (κ × α)) :
    ((refineEntries f entries).map Prod.fst).Sublist (entries.map Prod.fst) := by
  induction entries with
  | nil => exact List.Sublist.slnil
  | cons e rest ih =>
    obtain ⟨k, a⟩ := e
    unfold refineEntries
    split
    · exact ih.cons_cons k
    · exact ih.cons k

omit [DecidableEq κ] in
/-- Changes every value, and drops those for which the change gives none. -/
def refine (m : Keyed κ α) (f : α → Option α) : Keyed κ α where
  entries := refineEntries f m.entries
  distinct := m.distinct.sublist (keys_refineEntries f m.entries)

/-! ## What is under a key -/

theorem find?_eq_none {k : κ} {entries : List (κ × α)} : find? k entries = none ↔ k ∉ entries.map Prod.fst := by
  induction entries with
  | nil => simp [find?]
  | cons e rest ih =>
    obtain ⟨l, a⟩ := e
    unfold find?
    by_cases h : l = k
    · simp [h]
    · rw [if_neg h, ih]
      simp [Ne.symm h]

theorem find?_others (k l : κ) (entries : List (κ × α)) :
    find? l (others k entries) = if l = k then none else find? l entries := by
  induction entries with
  | nil => simp [others, find?]
  | cons e rest ih =>
    obtain ⟨j, a⟩ := e
    unfold others at ih ⊢
    by_cases hj : j = k
    · subst hj
      rw [List.filter_cons_of_neg (by simp), ih]
      by_cases hl : l = j
      · simp [hl]
      · rw [if_neg hl, if_neg hl, find?, if_neg (Ne.symm hl)]
    · rw [List.filter_cons_of_pos (by simpa using hj), find?, find?, ih]
      by_cases hl : l = k
      · subst hl
        simp [hj]
      · rw [if_neg hl, if_neg hl]

@[simp] theorem get?_empty (k : κ) : (empty : Keyed κ α).get? k = none := rfl

theorem get?_erase (m : Keyed κ α) (k l : κ) : (m.erase k).get? l = if l = k then none else m.get? l :=
  find?_others k l m.entries

theorem get?_insert (m : Keyed κ α) (k l : κ) (a : α) :
    (m.insert k a).get? l = if l = k then some a else m.get? l := by
  show find? l ((k, a) :: others k m.entries) = _
  rw [find?, find?_others]
  by_cases h : l = k
  · subst h
    simp
  · rw [if_neg (Ne.symm h), if_neg h, if_neg h]
    rfl

theorem get?_refine (m : Keyed κ α) (f : α → Option α) (k : κ) :
    (m.refine f).get? k = (m.get? k).bind f := by
  have key : ∀ entries : List (κ × α), (entries.map Prod.fst).Nodup →
      find? k (refineEntries f entries) = (find? k entries).bind f := by
    intro entries
    induction entries with
    | nil => intro _; rfl
    | cons e rest ih =>
      obtain ⟨l, a⟩ := e
      intro h
      obtain ⟨hl, hrest⟩ := List.nodup_cons.1 h
      unfold refineEntries
      rw [find?]
      by_cases hk : l = k
      · rw [if_pos hk, Option.bind_some]
        split
        · rename_i b hb
          rw [find?, if_pos hk, hb]
        · rename_i hb
          rw [hb, find?_eq_none]
          intro hm
          subst hk
          exact hl ((keys_refineEntries f rest).subset hm)
      · rw [if_neg hk, ← ih hrest]
        split
        · rw [find?, if_neg hk]
        · rfl
  exact key m.entries m.distinct

theorem contains_iff (m : Keyed κ α) (k : κ) : m.contains k = true ↔ k ∈ m.keys := by
  unfold contains get? keys
  rw [Option.isSome_iff_ne_none, ne_eq, find?_eq_none, Decidable.not_not]

end Keyed

end Interpose

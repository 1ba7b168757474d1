import Interpose.Proofs.PoolResolution
import Interpose.Proofs.QuietOperations

/-!
# Addresses from one operation to the next

Operations on a new pool lead to a pool after each of them (`upTo`). When an instance is given an address of a string, the
address stays bound for as long as the string lives and the instance forgets nothing; when the string is gone, nobody has
the address any more, and nobody comes by it again but by being given it. This is so however many strings there are: not
even a pool that has run out of numbers leads an instance to a string it was not given.

A pool in a run comes about by operations that nobody lists. It *follows* a list of operations if it has the strings and
the bindings that these lead to; the string that was resolved last and the buffer of the null string may differ, since no
answer depends on them.

Main statements: `isBound_of_given` and `not_isBound_of_gone`; and `Follows.leads`, that a pool that follows some
operations goes on to follow more of them.
-/

namespace Interpose

deriving instance DecidableEq for Keyed, Pool.Entry, Pool

namespace Pool

variable {p q : Pool} {actions : List Action} {i : InstanceId} {id : StringId} {part : Part} {address : Cell} {n m : Nat}

/-! ## One operation after another -/

/-- The pool after the first `n` operations. -/
def upTo (actions : List Action) (n : Nat) : Pool :=
  empty.after (actions.take n)

/-- There are no strings to begin with. -/
theorem contains_upTo_zero (actions : List Action) (id : StringId) : (upTo actions 0).contains id = false := by
  show empty.contains id = false
  rw [contains_eq_false, entry?_eq]
  cases id.slot? <;> rfl

theorem upTo_succ {a : Action} (h : actions[n]? = some a) : upTo actions (n + 1) = ((upTo actions n).perform a).2 := by
  unfold upTo
  rw [List.take_add_one, h, Option.toList_some, after_concat]

theorem upTo_of_le (h : actions.length ≤ n) : upTo actions n = empty.after actions := by
  unfold upTo
  rw [List.take_of_length_le h]

/-- After the last operation nothing happens. -/
theorem upTo_succ_of_none (h : actions[n]? = none) : upTo actions (n + 1) = upTo actions n := by
  have hlast : actions.length ≤ n := List.getElem?_eq_none_iff.1 h
  rw [upTo_of_le hlast, upTo_of_le (by omega)]

/-- Whether operation `n` gives an instance the address of a part of a string. -/
structure Gives (actions : List Action) (n : Nat) (i : InstanceId) (id : StringId) (part : Part) (address : Cell) :
    Prop where
  asked : actions[n]? = some (.bind i id part)
  answered : ((upTo actions n).perform (.bind i id part)).1 = .ok address

/-! ## Binding -/

/-- The address that is given of a string that is there. -/
theorem perform_bind_eq_ok (hc : p.contains id = true) :
    (p.perform (.bind i id part)).1 = .ok address ↔ Address.encode id part = some address := by
  cases hencode : Address.encode id part with
  | some other =>
    rw [perform_bind hc hencode]
    simp
  | none =>
    have hnull := not_isNull_of_contains hc
    obtain ⟨error, herror⟩ : ∃ error, p.perform (.bind i id part) = (.error error, p) :=
      perform_bind_refused hnull (by simp [hencode])
    rw [herror]
    simp

theorem Gives.decode? (h : Gives actions n i id part address) (hc : (upTo actions n).contains id = true) :
    Address.decode? address = some (id, part) :=
  Address.decode?_of_encode (one_le_of_contains hc) ((perform_bind_eq_ok hc).1 h.answered)

/-- Only a string that is there has addresses that are bound. -/
theorem contains_of_isBound (actions : List Action) (haddress : Address.decode? address = some (id, part))
    (hbound : (empty.after actions).isBound i address = true) : (empty.after actions).contains id = true := by
  -- the last operation bound the address, or it left the string of one that was bound
  induction actions using List.reverseRecOn with
  | nil =>
    have hnone : empty.isBound i address = false := rfl
    rw [show empty.after [] = empty from rfl, hnone] at hbound
    cases hbound
  | append_singleton actions a ih =>
    rw [after_concat] at hbound ⊢
    rcases (isBound_perform _ a haddress).1 hbound with hbinds | ⟨hbefore, -, hstill⟩
    · exact (contains_of_binds haddress hbinds).2
    · exact hstill (ih hbefore)

/-! ## From one operation to the next -/

/-- An address that an instance was given is bound for as long as the string lives and the instance forgets nothing. -/
theorem isBound_of_given (hgives : Gives actions n i id part address)
    (hlives : ∀ m, n ≤ m → (upTo actions m).contains id = true)
    (hkept : ∀ m, n < m → actions[m]? ≠ some (.forget i)) (hm : n < m) : (upTo actions m).isBound i address = true := by
  -- the address is bound right after operation `n`, and every later one leaves it
  have hdecode := hgives.decode? (hlives n (Nat.le_refl n))
  induction m with
  | zero => omega
  | succ m ih =>
    rcases Nat.lt_or_eq_of_le (Nat.le_of_lt_succ hm) with hlater | rfl
    · have hbound := ih hlater
      cases hnext : actions[m]? with
      | none => rw [upTo_succ_of_none hnext, hbound]
      | some a =>
        have hforgets : ((upTo actions m).step a).forgets i = false := by
          cases a with
          | forget j =>
            -- it is another instance that forgets
            have hj : j ≠ i := by
              rintro rfl
              exact hkept m hlater hnext
            simp [step, Step.forgets, hj]
          | _ => rfl
        have hstill := hlives (m + 1) (by omega)
        rw [upTo_succ hnext] at hstill ⊢
        exact (isBound_perform _ a hdecode).2 (.inr ⟨hbound, hforgets, fun _ => hstill⟩)
    · -- this is the operation that gives the address
      have hc := hlives n (Nat.le_refl n)
      rw [upTo_succ hgives.asked, isBound_bind]
      exact .inr ⟨rfl, hc, Address.encode_of_decode? hdecode⟩

/-- An operation that does not give an address to an instance does not bind it. -/
theorem not_isBound_perform {a : Action} (haddress : Address.decode? address = some (id, part))
    (hfree : p.isBound i address = false)
    (hnot : a = .bind i id part → (p.perform (.bind i id part)).1 ≠ .ok address) :
    (p.perform a).2.isBound i address = false := by
  rw [Bool.eq_false_iff]
  intro hbound
  rcases (isBound_perform p a haddress).1 hbound with hbinds | ⟨hold, -⟩
  · -- an operation that binds the address is one that gives it
    have hc := (contains_of_binds haddress hbinds).1
    cases a with
    | bind j target asked =>
      obtain ⟨rfl, htarget, hencode⟩ := (binds_step_bind haddress target asked).1 hbinds
      obtain ⟨rfl, rfl⟩ := (encode_eq_iff haddress htarget).1 hencode
      exact hnot rfl ((perform_bind_eq_ok hc).2 hencode)
    | _ => cases hbinds
  · rw [hfree] at hold
    cases hold

/-- An address that an instance has not bound stays so until it is given to it. -/
theorem not_isBound_of_not_given (haddress : Address.decode? address = some (id, part))
    (hfree : (upTo actions n).isBound i address = false)
    (hnever : ∀ m, n ≤ m → ¬ Gives actions m i id part address) (hm : n ≤ m) :
    (upTo actions m).isBound i address = false := by
  induction m with
  | zero =>
    obtain rfl : n = 0 := by omega
    exact hfree
  | succ m ih =>
    rcases Nat.lt_or_eq_of_le hm with hlater | rfl
    · have hbefore := ih (by omega)
      cases hnext : actions[m]? with
      | none => rw [upTo_succ_of_none hnext, hbefore]
      | some a =>
        rw [upTo_succ hnext]
        refine not_isBound_perform haddress hbefore fun hbinds hanswered => ?_
        exact hnever m (by omega) ⟨hnext.trans (congrArg some hbinds), hanswered⟩
    · exact hfree

/-- When a string is gone, nobody has an address of its number any more, until it is given to him. -/
theorem not_isBound_of_gone (haddress : Address.decode? address = some (id, part))
    (hgone : (upTo actions n).contains id = false) (hnever : ∀ m, n ≤ m → ¬ Gives actions m i id part address)
    (hm : n ≤ m) : (upTo actions m).isBound i address = false := by
  refine not_isBound_of_not_given haddress ?_ hnever hm
  rw [Bool.eq_false_iff]
  intro hbound
  have hc := contains_of_isBound (actions.take n) haddress hbound
  rw [show (empty.after (actions.take n)).contains id = false from hgone] at hc
  cases hc

/-- Whatever operations follow, an instance does not come by an address but by being given it. -/
theorem not_isBound_after (haddress : Address.decode? address = some (id, part)) (hfree : p.isBound i address = false)
    (hnever : ∀ first target asked rest, actions = first ++ .bind i target asked :: rest →
      ((p.after first).perform (.bind i target asked)).1 ≠ .ok address) : (p.after actions).isBound i address = false := by
  -- by the last operation
  induction actions using List.reverseRecOn with
  | nil => exact hfree
  | append_singleton actions a ih =>
    have hbefore : (p.after actions).isBound i address = false :=
      ih fun first target asked rest hsplit => hnever first target asked (rest ++ [a]) (by simp [hsplit])
    rw [after_concat]
    exact not_isBound_perform haddress hbefore fun hbinds => hnever actions id part [] (by rw [hbinds])

/-! ## Pools in a run -/

/-- A pool with the strings and the bindings that operations on another pool lead to. -/
def GoesOn (p : Pool) (actions : List Action) (q : Pool) : Prop :=
  ∀ i, AlikeFor i (p.after actions) q

namespace GoesOn

theorem refl (p : Pool) : p.GoesOn [] p :=
  fun _ => ⟨.refl p, fun _ => Iff.rfl⟩

theorem perform (h : p.GoesOn actions q) (a : Action) : p.GoesOn (actions ++ [a]) (q.perform a).2 := by
  intro i
  rw [after_concat]
  exact (h i).perform a

/-- What stands in the buffer of the null string does not matter. -/
theorem write (h : p.GoesOn actions q) (c : Cell) : p.GoesOn actions { q with nullCell := c } :=
  fun i => ⟨⟨(h i).alike.slots, (h i).alike.free, (h i).alike.live⟩, (h i).isBound⟩

/-- A pool to which some operations lead goes on to where more of them lead. -/
theorem leads {kind : Action → Prop} {r : Pool} (h : p.GoesOn actions q) (hr : q.Leads kind r) :
    ∃ later, p.GoesOn (actions ++ later) r := by
  induction hr with
  | refl => exact ⟨[], by simpa using h⟩
  | @perform _ _ a _ ih =>
    obtain ⟨later, hlater⟩ := ih
    exact ⟨later ++ [a], by simpa using hlater.perform a⟩
  | write _ c ih =>
    obtain ⟨later, hlater⟩ := ih
    exact ⟨later, hlater.write c⟩

/-- Once an instance forgot its addresses, an address leads it nowhere until it is given to it. -/
theorem resolve?_of_forgotten {before later : List Action} (h : p.GoesOn (before ++ .forget i :: later) q)
    (hnever : ∀ first target asked rest, later = first ++ .bind i target asked :: rest →
      ((p.after (before ++ .forget i :: first)).perform (.bind i target asked)).1 ≠ .ok address) :
    q.resolve? i address = none := by
  have hafter : ∀ rest, p.after (before ++ .forget i :: rest) = ((p.after before).perform (.forget i)).2.after rest := by
    intro rest
    simp [after]
  rw [(h i).resolve?_eq, hafter, resolve?]
  cases haddress : Address.decode? address with
  | none => rfl
  | some target =>
    have hforgot : ((p.after before).perform (.forget i)).2.isBound i address = false := by
      rw [Bool.eq_false_iff, ne_eq, isBound_forget]
      simp
    have hfree := not_isBound_after haddress hforgot fun first target asked rest hsplit => by
      rw [← hafter]
      exact hnever first target asked rest hsplit
    simp [hfree]

end GoesOn

/-- A pool with the strings and the bindings that operations on a new pool lead to. -/
def Follows (actions : List Action) (q : Pool) : Prop :=
  ∀ i, AlikeFor i (empty.after actions) q

theorem follows_empty : Follows [] empty :=
  GoesOn.refl empty

namespace Follows

/-- A pool that follows some operations goes on to follow more. -/
theorem leads {kind : Action → Prop} (h : Follows actions p) (hq : p.Leads kind q) : ∃ later, Follows (actions ++ later) q :=
  GoesOn.leads h hq

/-- An address that an instance was given leads it to the string, as long as this lives. -/
theorem resolve?_of_given (h : Follows actions q) (hgives : Gives actions n i id part address)
    (hlives : ∀ m, n ≤ m → (upTo actions m).contains id = true)
    (hkept : ∀ m, n < m → actions[m]? ≠ some (.forget i)) : q.resolve? i address = some (id, part) := by
  -- the last operation, or one after it
  have hlast : upTo actions (max (n + 1) actions.length) = empty.after actions := upTo_of_le (by omega)
  have hbound : (upTo actions (max (n + 1) actions.length)).isBound i address = true :=
    isBound_of_given hgives hlives hkept (by omega)
  have hc := hlives (max (n + 1) actions.length) (by omega)
  rw [hlast] at hbound hc
  rw [(h i).resolve?_eq, resolve?_eq_some]
  exact ⟨hgives.decode? (hlives n (Nat.le_refl n)), hbound, hc⟩

/-- An address of a string that is gone leads an instance nowhere, until it is given to it. -/
theorem resolve?_of_gone (h : Follows actions q) (haddress : Address.decode? address = some (id, part))
    (hgone : (upTo actions n).contains id = false) (hnever : ∀ m, n ≤ m → ¬ Gives actions m i id part address) :
    q.resolve? i address = none := by
  have hlast : upTo actions (max n actions.length) = empty.after actions := upTo_of_le (by omega)
  have hfree : (upTo actions (max n actions.length)).isBound i address = false :=
    not_isBound_of_gone haddress hgone hnever (by omega)
  rw [hlast] at hfree
  rw [(h i).resolve?_eq, resolve?, haddress]
  simp [hfree]

end Follows

end Pool

end Interpose

import Mathlib.Algebra.Order.Ring.Int
import Mathlib.Data.List.Induction
import Mathlib.Data.Option.Basic
import Mathlib.Logic.Function.Basic

/-!
# Values that expire

A store keeps one value for a key, with the time until which it is good.  To put a value drops what has expired first;
to check one drops it if it has expired.  Whatever was put and checked before, a value is found good exactly if it is
the last one that was put for its key and its time has not passed.
-/

namespace MidnightSun.Lib

variable {κ β : Type*}

structure Expiring (β : Type*) where
  value : β
  expiration : ℤ
  deriving DecidableEq

namespace Expiring

/-- An access to the store, at a time. -/
inductive Access (κ β : Type*) where
  | put (k : κ) (v : β) (now : ℤ)
  | check (k : κ) (v : β) (now : ℤ)

def Access.now : Access κ β → ℤ
  | .put _ _ now => now
  | .check _ _ now => now

inductive Checked | absent | expired | mismatch | valid
  deriving DecidableEq

def purge (m : κ → Option (Expiring β)) (now : ℤ) : κ → Option (Expiring β) := fun k =>
  (m k).filter fun e => !decide (e.expiration < now)

lemma purge_eq_some {m : κ → Option (Expiring β)} {k : κ} {e : Expiring β} {now : ℤ} :
    purge m now k = some e ↔ m k = some e ∧ now ≤ e.expiration := by
  simp [purge, Option.filter_eq_some_iff]

variable [DecidableEq κ]

def put (lifetime : ℤ) (m : κ → Option (Expiring β)) (k : κ) (v : β) (now : ℤ) : κ → Option (Expiring β) :=
  Function.update (purge m now) k (some { value := v, expiration := now + lifetime })

/-- The last value that was put for the key. -/
def last (lifetime : ℤ) (k : κ) (as : List (Access κ β)) : Option (Expiring β) :=
  as.foldl (fun e a => match a with
    | .put k' v now => if k' = k then some { value := v, expiration := now + lifetime } else e
    | .check _ _ _ => e) none

lemma last_put (lifetime : ℤ) (k : κ) (as : List (Access κ β)) (k' : κ) (v : β) (now : ℤ) :
    last lifetime k (as ++ [.put k' v now]) =
    if k' = k then some { value := v, expiration := now + lifetime } else last lifetime k as := by
  rw [last, List.foldl_append]
  rfl

lemma last_check (lifetime : ℤ) (k : κ) (as : List (Access κ β)) (k' : κ) (v : β) (now : ℤ) :
    last lifetime k (as ++ [.check k' v now]) = last lifetime k as := by
  rw [last, List.foldl_append]
  rfl

variable [DecidableEq β]

def check (m : κ → Option (Expiring β)) (k : κ) (v : β) (now : ℤ) : Checked × (κ → Option (Expiring β)) :=
  match m k with
  | none => (.absent, m)
  | some e =>
    if e.expiration < now then (.expired, Function.update m k none)
    else if e.value ≠ v then (.mismatch, m)
    else (.valid, m)

/-- The store after the accesses. -/
def after (lifetime : ℤ) (as : List (Access κ β)) : κ → Option (Expiring β) :=
  as.foldl (fun m a => match a with
    | .put k v now => put lifetime m k v now
    | .check k v now => (check m k v now).2) fun _ => none

variable {lifetime now : ℤ} {as : List (Access κ β)} {k k' : κ} {v v' : β} {e : Expiring β}
  {m : κ → Option (Expiring β)}

lemma after_put (as : List (Access κ β)) (k : κ) (v : β) (now : ℤ) :
    after lifetime (as ++ [.put k v now]) = put lifetime (after lifetime as) k v now := by
  rw [after, List.foldl_append]
  rfl

lemma after_check (as : List (Access κ β)) (k : κ) (v : β) (now : ℤ) :
    after lifetime (as ++ [.check k v now]) = (check (after lifetime as) k v now).2 := by
  rw [after, List.foldl_append]
  rfl

/-- A check keeps every entry but an expired one. -/
lemma check_eq_some : (check m k v now).2 k' = some e ↔ m k' = some e ∧ (k' = k → now ≤ e.expiration) := by
  unfold check
  by_cases hk : k' = k
  · subst hk
    cases hm : m k' with
    | none => simp [hm]
    | some e' =>
      by_cases hexpired : e'.expiration < now
      · simp only [hexpired, if_true, Function.update_self, Option.some.injEq, true_imp_iff]
        refine iff_of_false (Option.some_ne_none e).symm ?_
        rintro ⟨rfl, hle⟩
        omega
      · have hsame : (if e'.value ≠ v then (Checked.mismatch, m) else (.valid, m)).2 k' = some e' := by
          split_ifs <;> exact hm
        simp only [hexpired, if_false, hsame, Option.some.injEq, true_imp_iff]
        constructor
        · rintro rfl
          exact ⟨rfl, by omega⟩
        · exact And.left
  · cases hm : m k with
    | none => simp [hk]
    | some e' =>
      simp only
      split_ifs <;> simp [hk]

/-- The check says what it finds. -/
lemma check_eq_valid : (check m k v now).1 = .valid ↔ ∃ e, m k = some e ∧ now ≤ e.expiration ∧ e.value = v := by
  unfold check
  cases m k with
  | none => simp
  | some e =>
    simp only
    split_ifs with hexpired hne
    · simp only [Option.some.injEq, exists_eq_left', false_iff]
      omega
    · simp [hne]
    · simp only [Option.some.injEq, exists_eq_left', true_iff]
      exact ⟨by omega, not_not.mp hne⟩

/-- **What is in the store** was put last for its key. -/
theorem last_of_after (h : after lifetime as k = some e) : last lifetime k as = some e := by
  induction as using List.reverseRecOn generalizing k with
  | nil => cases h
  | append_singleton as a ih =>
    cases a with
    | put k' v now =>
      rw [after_put, put] at h
      rw [last_put]
      by_cases hk : k = k'
      · subst hk
        rw [Function.update_self] at h
        rwa [if_pos rfl]
      · rw [Function.update_of_ne hk] at h
        rw [if_neg fun heq => hk heq.symm]
        exact ih (purge_eq_some.mp h).1
    | check k' v now =>
      rw [after_check] at h
      rw [last_check]
      exact ih (check_eq_some.mp h).1

/-- What was put last for its key is in the store until its time has passed. -/
theorem after_of_last (h : last lifetime k as = some e) (hnow : ∀ a ∈ as, a.now ≤ e.expiration) :
    after lifetime as k = some e := by
  induction as using List.reverseRecOn with
  | nil => cases h
  | append_singleton as a ih =>
    have hlast := hnow a (by simp)
    have hbefore : ∀ b ∈ as, b.now ≤ e.expiration := fun b hb => hnow b (by simp [hb])
    cases a with
    | put k' v now =>
      rw [last_put] at h
      rw [after_put, put]
      by_cases hk : k = k'
      · subst hk
        rw [if_pos rfl] at h
        rwa [Function.update_self]
      · rw [if_neg fun heq => hk heq.symm] at h
        rw [Function.update_of_ne hk]
        exact purge_eq_some.mpr ⟨ih h hbefore, hlast⟩
    | check k' v now =>
      rw [last_check] at h
      rw [after_check]
      exact check_eq_some.mpr ⟨ih h hbefore, fun _ => hlast⟩

/-- **A value is found good** exactly if it is the last one that was put for the key and its time has not passed. -/
theorem check_after_iff (hnow : ∀ a ∈ as, a.now ≤ now) : (check (after lifetime as) k v now).1 = .valid ↔
    ∃ e, last lifetime k as = some e ∧ now ≤ e.expiration ∧ e.value = v := by
  rw [check_eq_valid]
  constructor
  · rintro ⟨e, he, hle, hv⟩
    exact ⟨e, last_of_after he, hle, hv⟩
  · rintro ⟨e, he, hle, hv⟩
    exact ⟨e, after_of_last he fun a ha => (hnow a ha).trans hle, hle, hv⟩

end Expiring

end MidnightSun.Lib

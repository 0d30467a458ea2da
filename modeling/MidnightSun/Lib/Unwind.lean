import Mathlib.Data.List.Nodup
import Mathlib.Data.List.Range

/-!
# Taking steps back

Steps `0`, …, `k - 1` have been done, and those that `has` says are taken back, the last one first.  Taking step `i`
back may fail (`ok i`): then it has been tried, and it is still the one to start with.
-/

namespace MidnightSun.Lib

variable {has ok : ℕ → Bool} {i k : ℕ}

/-- The steps that are still to be taken back, in their order. -/
def todo (has : ℕ → Bool) (k : ℕ) : List ℕ := ((List.range k).filter has).reverse

/-- The steps that are tried, and how many are left. -/
def unwind (has ok : ℕ → Bool) : ℕ → List ℕ × ℕ
  | 0 => ([], 0)
  | k + 1 =>
    if has k = false then unwind has ok k
    else if ok k then (k :: (unwind has ok k).1, (unwind has ok k).2)
    else ([k], k + 1)

@[simp] lemma todo_zero (has : ℕ → Bool) : todo has 0 = [] := rfl

lemma todo_succ (has : ℕ → Bool) (k : ℕ) : todo has (k + 1) = if has k then k :: todo has k else todo has k := by
  unfold todo
  rw [List.range_succ, List.filter_append, List.reverse_append]
  by_cases h : has k <;> simp [h]

lemma mem_todo : i ∈ todo has k ↔ i < k ∧ has i = true := by simp [todo]

lemma pairwise_todo (has : ℕ → Bool) (k : ℕ) : (todo has k).Pairwise (· > ·) :=
  List.pairwise_reverse.mpr (List.pairwise_lt_range.filter has)

lemma count_todo (h : i < k) (hi : has i = true) : (todo has k).count i = 1 :=
  List.count_eq_one_of_mem ((pairwise_todo has k).imp Nat.ne_of_gt) (mem_todo.mpr ⟨h, hi⟩)

/-- Where nothing fails, everything is taken back. -/
theorem unwind_of_ok (h : ∀ i ∈ todo has k, ok i = true) : unwind has ok k = (todo has k, 0) := by
  induction k with
  | zero => rfl
  | succ k ih =>
    rw [todo_succ] at h
    rw [unwind, todo_succ]
    by_cases hk : has k = true
    · rw [if_pos hk] at h
      rw [if_neg (by simp [hk]), if_pos (h k List.mem_cons_self), if_pos hk,
        ih fun i hi => h i (List.mem_cons_of_mem k hi)]
    · rw [if_neg hk] at h
      rw [if_pos (by simpa using hk), if_neg hk, ih h]

/-- Where one fails, it is the last that is tried, and the first that is left. -/
theorem unwind_of_not_ok (h : ¬∀ i ∈ todo has k, ok i = true) :
    ∃ tried i, unwind has ok k = (tried ++ [i], i + 1) ∧ has i = true := by
  induction k with
  | zero => exact absurd (fun i hi => absurd hi List.not_mem_nil) h
  | succ k ih =>
    rw [todo_succ] at h
    rw [unwind]
    by_cases hk : has k = true
    · rw [if_pos hk] at h
      rw [if_neg (by simp [hk])]
      by_cases hok : ok k = true
      · rw [List.forall_mem_cons, not_and] at h
        obtain ⟨tried, i, htried, hi⟩ := ih (h hok)
        rw [if_pos hok, htried]
        exact ⟨k :: tried, i, rfl, hi⟩
      · rw [if_neg hok]
        exact ⟨[], k, rfl, hk⟩
    · rw [if_neg hk] at h
      rw [if_pos (by simpa using hk)]
      exact ih h

end MidnightSun.Lib

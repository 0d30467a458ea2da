import Mathlib.Data.Nat.Init

/-!
# A first choice, and a fallback

Members of a sequence take values one after the other.  Member `i` takes `a i` unless an earlier member has that value,
and `b i` otherwise, without a second look.  `FallsBack` says who has to fall back, in terms of `a` and `b` alone;
`takes_injective_iff` says when all values are different.
-/

namespace MidnightSun.Lib

variable {α : Type*} {a b : ℕ → α} {i k : ℕ}

/-- Member `i` finds its first choice taken: by a member with the same first choice, or by one that fell back on it. -/
inductive FallsBack (a b : ℕ → α) : ℕ → Prop
  | first {k i : ℕ} : k < i → a k = a i → FallsBack a b i
  | fallback {k i : ℕ} : k < i → FallsBack a b k → b k = a i → FallsBack a b i

open Classical in
/-- The value of a member. -/
noncomputable def takes (a b : ℕ → α) (i : ℕ) : α := if FallsBack a b i then b i else a i

lemma takes_of_fallsBack (h : FallsBack a b i) : takes a b i = b i := if_pos h

lemma takes_of_not_fallsBack (h : ¬FallsBack a b i) : takes a b i = a i := if_neg h

theorem exists_takes_eq (a b : ℕ → α) (k : ℕ) : ∃ j ≤ k, takes a b j = a k := by
  by_cases h : FallsBack a b k
  · cases h with
    | @first j _ hlt heq =>
      obtain ⟨j', hle, htakes⟩ := exists_takes_eq a b j
      exact ⟨j', by omega, htakes.trans heq⟩
    | @fallback j _ hlt hj heq => exact ⟨j, by omega, (takes_of_fallsBack hj).trans heq⟩
  · exact ⟨k, Nat.le_refl k, takes_of_not_fallsBack h⟩
termination_by k

/-- A member falls back exactly if an earlier one has the value of its first choice. -/
theorem fallsBack_iff : FallsBack a b i ↔ ∃ k < i, takes a b k = a i := by
  constructor
  · intro h
    cases h with
    | @first k _ hlt heq =>
      obtain ⟨j, hle, htakes⟩ := exists_takes_eq a b k
      exact ⟨j, by omega, htakes.trans heq⟩
    | @fallback k _ hlt hk heq => exact ⟨k, hlt, (takes_of_fallsBack hk).trans heq⟩
  · rintro ⟨k, hlt, heq⟩
    by_cases hk : FallsBack a b k
    · exact .fallback hlt hk ((takes_of_fallsBack hk).symm.trans heq)
    · exact .first hlt ((takes_of_not_fallsBack hk).symm.trans heq)

/-- A value that is nobody's first choice before `i`, nor a fallback that was used, is free at `i`. -/
theorem forall_takes_ne_iff (x : α) :
    (∀ k < i, takes a b k ≠ x) ↔ ∀ k < i, a k ≠ x ∧ (FallsBack a b k → b k ≠ x) := by
  constructor
  · refine fun h k hk => ⟨fun heq => ?_, fun hback heq => h k hk ((takes_of_fallsBack hback).trans heq)⟩
    obtain ⟨j, hle, htakes⟩ := exists_takes_eq a b k
    exact h j (by omega) (htakes.trans heq)
  · intro h k hk heq
    by_cases hback : FallsBack a b k
    · exact (h k hk).2 hback ((takes_of_fallsBack hback).symm.trans heq)
    · exact (h k hk).1 ((takes_of_not_fallsBack hback).symm.trans heq)

theorem takes_injective_iff (n : ℕ) :
    (∀ i < n, ∀ k < i, takes a b k ≠ takes a b i) ↔
      ∀ i < n, FallsBack a b i → ∀ k < i, a k ≠ b i ∧ (FallsBack a b k → b k ≠ b i) := by
  refine forall₂_congr fun i _ => ?_
  by_cases h : FallsBack a b i
  · rw [takes_of_fallsBack h, forall_takes_ne_iff]
    exact ⟨fun hall _ => hall, fun hall => hall h⟩
  · rw [takes_of_not_fallsBack h]
    refine iff_of_true (fun k hk heq => h (fallsBack_iff.mpr ⟨k, hk, heq⟩)) fun hback => absurd hback h

end MidnightSun.Lib

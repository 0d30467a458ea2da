import Mathlib.Data.List.Basic

/-!
# Reading a list from its end

A position in a list is the number of elements up to it.  `prev` steps back from a position over what is not to be kept
and reads the element before that; there is none at the beginning.
-/

namespace MidnightSun.Lib

variable {α : Type*} (keep : α → Bool) (l : List α)

/-- The last element before `pos` that is kept, and the position in front of it. -/
def prev : ℕ → Option (α × ℕ)
  | 0 => none
  | pos + 1 =>
    match l[pos]? with
    | none => none
    | some x => if keep x then some (x, pos) else prev pos

variable {keep l} {pos : ℕ}

lemma prev_of_keep {x : α} (hx : l[pos]? = some x) (h : keep x = true) : prev keep l (pos + 1) = some (x, pos) := by
  rw [prev, hx]
  exact if_pos h

lemma prev_of_skip {x : α} (hx : l[pos]? = some x) (h : keep x = false) : prev keep l (pos + 1) = prev keep l pos := by
  rw [prev, hx]
  exact if_neg (by rw [h]; exact Bool.false_ne_true)

lemma filter_take_succ {x : α} (hx : l[pos]? = some x) :
    (l.take (pos + 1)).filter keep = (l.take pos).filter keep ++ if keep x then [x] else [] := by
  rw [List.take_succ_eq_append_getElem (List.getElem?_eq_some_iff.mp hx).1, List.filter_append,
    (List.getElem?_eq_some_iff.mp hx).2, List.filter_singleton]
  cases keep x <;> rfl

/-- **Within the list**, `prev` takes what is kept one by one, the last first. -/
theorem exists_prev_of_filter (hpos : pos ≤ l.length) {xs : List α} {x : α}
    (h : (l.take pos).filter keep = xs ++ [x]) :
    ∃ q, prev keep l pos = some (x, q) ∧ q ≤ l.length ∧ (l.take q).filter keep = xs := by
  induction pos with
  | zero => simp at h
  | succ pos ih =>
    have hlt : pos < l.length := hpos
    have hy : l[pos]? = some l[pos] := List.getElem?_eq_getElem hlt
    rw [filter_take_succ hy] at h
    cases hk : keep l[pos] with
    | true =>
      rw [hk, if_pos rfl] at h
      obtain ⟨hxs, hx⟩ := List.append_inj' h rfl
      obtain rfl := List.singleton_inj.mp hx
      exact ⟨pos, prev_of_keep hy hk, Nat.le_of_lt hlt, hxs⟩
    | false =>
      rw [hk, if_neg Bool.false_ne_true, List.append_nil] at h
      rw [prev_of_skip hy hk]
      exact ih (Nat.le_of_lt hlt) h

end MidnightSun.Lib

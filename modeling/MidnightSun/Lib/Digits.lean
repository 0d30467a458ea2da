import Mathlib.Tactic.Ring

/-!
# Digits

A reader multiplies by the base and adds the next digit.  What it adds up to is a sum of powers of the base.
-/

namespace MidnightSun.Lib

variable {R α : Type*} [CommSemiring R] (b : R) (f : α → R)

/-- The number that digits stand for to the base `b`, the first one counting most. -/
def digitsValue (s : List α) : R := s.foldl (fun n c => b * n + f c) 0

theorem foldl_digits (n : R) (s : List α) :
    s.foldl (fun n c => b * n + f c) n = n * b ^ s.length + digitsValue b f s := by
  induction s generalizing n with
  | nil => simp [digitsValue]
  | cons c s ih =>
    have hcons : digitsValue b f (c :: s) = (b * 0 + f c) * b ^ s.length + digitsValue b f s := ih _
    rw [List.foldl_cons, ih, hcons, List.length_cons, pow_succ]
    ring

theorem digitsValue_cons (c : α) (s : List α) :
    digitsValue b f (c :: s) = f c * b ^ s.length + digitsValue b f s := by
  rw [digitsValue, List.foldl_cons, foldl_digits, mul_zero, zero_add]

theorem digitsValue_append (s t : List α) :
    digitsValue b f (s ++ t) = digitsValue b f s * b ^ t.length + digitsValue b f t := by
  rw [digitsValue, List.foldl_append, foldl_digits]
  rfl

theorem digitsValue_concat (s : List α) (c : α) : digitsValue b f (s ++ [c]) = b * digitsValue b f s + f c := by
  rw [digitsValue, List.foldl_append]
  rfl

end MidnightSun.Lib

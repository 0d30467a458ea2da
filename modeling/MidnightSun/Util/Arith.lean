import Mathlib.Data.Int.Notation
import Mathlib.Order.Basic
import Mathlib.Tactic.NormNum

/-!
# Checked arithmetic

The computations of the source on `int` and `size_t`, in `ℤ` and `ℕ`.  A value out of the range of its type and a
division by zero are `none`: the computation has gone wrong there and is not followed further.
-/

namespace MidnightSun.Util

/-- The values of `int`. -/
def FitsInt (x : ℤ) : Prop := -2 ^ 31 ≤ x ∧ x < 2 ^ 31

instance (x : ℤ) : Decidable (FitsInt x) := by
  unfold FitsInt
  infer_instance

/-- The result of a computation on `int`. -/
def checkInt (x : ℤ) : Option ℤ := if FitsInt x then some x else none

/-- The conversion of an `int` to `size_t`, or a difference of sizes; a negative value would wrap around. -/
def toSize (x : ℤ) : Option ℕ := if 0 ≤ x then some x.toNat else none

/-- The conversion of an `int` to an unsigned type of `w` bits. -/
def toUint (w : ℕ) (x : ℤ) : Option ℕ := if 0 ≤ x ∧ x < 2 ^ w then some x.toNat else none

/-- A number that an `int64_t` holds. -/
def InInt64 (x : ℤ) : Prop := -2 ^ 63 ≤ x ∧ x < 2 ^ 63

instance : DecidablePred InInt64 := fun _ => inferInstanceAs (Decidable (_ ∧ _))

/-- A result of arithmetic on `int64_t`; `none` is an overflow. -/
def int64 (x : ℤ) : Option ℤ := if InInt64 x then some x else none

def divInt (x y : ℤ) : Option ℤ := if y = 0 then none else checkInt (x.tdiv y)

def divSize (x y : ℕ) : Option ℕ := if y = 0 then none else some (x / y)

def modSize (x y : ℕ) : Option ℕ := if y = 0 then none else some (x % y)

lemma checkInt_of_fits {x : ℤ} (h₁ : -2 ^ 31 ≤ x) (h₂ : x < 2 ^ 31) : checkInt x = some x := if_pos ⟨h₁, h₂⟩

lemma toSize_natCast (n : ℕ) : toSize n = some n := by
  rw [toSize, if_pos (Int.natCast_nonneg n), Int.toNat_natCast]

lemma divInt_of_pos {x y : ℤ} (hx : 0 ≤ x) (hx' : x < 2 ^ 31) (hy : 0 < y) : divInt x y = some (x / y) := by
  have h₁ : 0 ≤ x / y := Int.ediv_nonneg hx (by omega)
  have h₂ : x / y ≤ x := Int.ediv_le_self y hx
  rw [divInt, if_neg (by omega), Int.tdiv_eq_ediv_of_nonneg hx, checkInt_of_fits (by omega) (by omega)]

lemma divSize_of_pos {x y : ℕ} (hy : 0 < y) : divSize x y = some (x / y) := if_neg (by omega)

lemma modSize_of_pos {x y : ℕ} (hy : 0 < y) : modSize x y = some (x % y) := if_neg (by omega)

/-! ### When a computation goes through -/

section Bind

variable {α : Type*} {x y : ℤ} {f : ℤ → Option α}

end Bind

end MidnightSun.Util

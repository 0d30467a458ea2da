import Mathlib.Algebra.Order.Ring.Int
import MidnightSun.Util.FromView

/-!
# Decimal text

`std::to_string` of an `int`, and what `from_view` makes of it.
-/

namespace MidnightSun.Util

/-- The character of a digit. -/
def digit (d : ℕ) : UInt8 := (48 + d).toUInt8

/-- The digits of a number, the last one first. -/
def digits : ℕ → ℕ → Str
  | 0, _ => []
  | fuel + 1, n => digit (n % 10) :: if n / 10 = 0 then [] else digits fuel (n / 10)

/-- `std::to_string(n)`. -/
def decimal (n : ℤ) : Str := (if n < 0 then [45] else []) ++ (digits (n.natAbs + 1) n.natAbs).reverse

lemma digitOf_digit {d : ℕ} (h : d < 10) : digitOf (digit d) = BitVec.ofNat 64 d := by
  have hall : ∀ d < 10, digitOf (digit d) = BitVec.ofNat 64 d := by decide
  exact hall d h

lemma digit_ne_minus {d : ℕ} (h : d < 10) : digit d ≠ 45 := by
  have hall : ∀ d < 10, digit d ≠ 45 := by decide
  exact hall d h

lemma mem_digits {fuel n : ℕ} {c : UInt8} (h : c ∈ digits fuel n) : ∃ d < 10, c = digit d := by
  induction fuel generalizing n with
  | zero => cases h
  | succ fuel ih =>
    rcases List.mem_cons.mp h with rfl | h
    · exact ⟨n % 10, Nat.mod_lt n (by decide), rfl⟩
    · split_ifs at h
      · cases h
      · exact ih h

theorem mem_decimal {n : ℤ} {c : UInt8} (h : c ∈ decimal n) : c = 45 ∨ ∃ d < 10, c = digit d := by
  rcases List.mem_append.mp h with h | h
  · split_ifs at h
    · exact Or.inl (List.mem_singleton.mp h)
    · cases h
  · exact Or.inr (mem_digits (List.mem_reverse.mp h))

lemma not_mem_decimal {c : UInt8} (hminus : c ≠ 45) (hdigit : ∀ d < 10, c ≠ digit d) (n : ℤ) : c ∉ decimal n := by
  intro hmem
  rcases mem_decimal hmem with heq | ⟨d, hd, heq⟩
  · exact hminus heq
  · exact hdigit d hd heq

lemma fromCharsLoop_cons {l : Str} (h : l ≠ []) (res mul : BitVec 64) (c : UInt8) :
    fromCharsLoop res mul (c :: l) = fromCharsLoop (res + digitOf c * mul) (mul * 10) l := by
  cases l with
  | nil => exact absurd rfl h
  | cons c' l => rfl

lemma digits_ne_nil {fuel n : ℕ} (h : n < fuel) : digits fuel n ≠ [] := by
  cases fuel with
  | zero => omega
  | succ fuel => exact List.cons_ne_nil _ _

/-- The loop adds up the digits; a sign may follow the last one. -/
theorem fromCharsLoop_digits {fuel n : ℕ} (h : n < fuel) (res mul : BitVec 64) :
    fromCharsLoop res mul (digits fuel n) = res + BitVec.ofNat 64 n * mul ∧
      fromCharsLoop res mul (digits fuel n ++ [45]) = -(res + BitVec.ofNat 64 n * mul) := by
  induction fuel generalizing n res mul with
  | zero => omega
  | succ fuel ih =>
    have hlt : n % 10 < 10 := Nat.mod_lt n (by decide)
    unfold digits
    by_cases h0 : n / 10 = 0
    · have hn : n = n % 10 := by omega
      rw [if_pos h0, List.singleton_append, fromCharsLoop_cons (List.cons_ne_nil _ _), digitOf_digit hlt, ← hn]
      constructor
      · rw [hn]
        show (if digit (n % 10) = 45 then -res else res + digitOf (digit (n % 10)) * mul) = _
        rw [if_neg (digit_ne_minus hlt), digitOf_digit hlt]
      · rfl
    · have hn : BitVec.ofNat 64 n = BitVec.ofNat 64 (n % 10) + BitVec.ofNat 64 (n / 10) * 10 := by
        rw [show (10 : BitVec 64) = BitVec.ofNat 64 10 from rfl, ← BitVec.ofNat_mul, ← BitVec.ofNat_add]
        congr 1
        omega
      have hrest : n / 10 < fuel := by omega
      have hsum : res + BitVec.ofNat 64 (n % 10) * mul + BitVec.ofNat 64 (n / 10) * (mul * 10) =
          res + BitVec.ofNat 64 n * mul := by
        rw [hn, BitVec.add_mul, BitVec.add_assoc, BitVec.mul_assoc, BitVec.mul_comm 10 mul]
      obtain ⟨hplain, hsign⟩ := ih hrest (res + BitVec.ofNat 64 (n % 10) * mul) (mul * 10)
      rw [if_neg h0, List.cons_append, fromCharsLoop_cons (digits_ne_nil hrest),
        fromCharsLoop_cons (by simp [digits_ne_nil hrest]), digitOf_digit hlt, hplain, hsign, hsum]
      exact ⟨rfl, rfl⟩

/-- `from_view` reads a number back. -/
theorem fromView_decimal (n : ℤ) : fromView (decimal n) = BitVec.ofInt 64 n := by
  unfold fromView decimal
  obtain ⟨hplain, hsign⟩ := fromCharsLoop_digits (Nat.lt_succ_self n.natAbs) 0 1
  rw [List.reverse_append, List.reverse_reverse]
  have hone : (0 : BitVec 64) + BitVec.ofNat 64 n.natAbs * 1 = BitVec.ofNat 64 n.natAbs := by simp
  rw [hone] at hplain hsign
  by_cases hneg : n < 0
  · obtain ⟨k, hk⟩ : ∃ k : ℕ, n = -(k : ℤ) := ⟨n.natAbs, by omega⟩
    rw [if_pos hneg]
    refine hsign.trans ?_
    rw [hk, Int.natAbs_neg, Int.natAbs_natCast, BitVec.ofInt_neg, BitVec.ofInt_natCast]
  · obtain ⟨k, rfl⟩ := Int.eq_ofNat_of_zero_le (Int.not_lt.mp hneg)
    rw [if_neg hneg, List.reverse_nil, List.append_nil]
    exact hplain.trans (BitVec.ofInt_natCast ..).symm

theorem decimal_inj {m n : ℤ} (hm : -2 ^ 31 ≤ m ∧ m < 2 ^ 31) (hn : -2 ^ 31 ≤ n ∧ n < 2 ^ 31) :
    decimal m = decimal n ↔ m = n := by
  refine ⟨fun h => ?_, fun h => congrArg decimal h⟩
  have hread := congrArg (fun s => (fromView s).toInt) h
  simp only [fromView_decimal, BitVec.toInt_ofInt] at hread
  rwa [Int.bmod_eq_of_le (by omega) (by omega), Int.bmod_eq_of_le (by omega) (by omega)] at hread

end MidnightSun.Util

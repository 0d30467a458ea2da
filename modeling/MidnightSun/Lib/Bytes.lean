import Mathlib.Algebra.Order.Ring.Nat
import Mathlib.Data.List.Basic

/-!
# Little-endian bytes
-/

namespace MidnightSun.Lib

/-- The lowest `n` bytes of a number, the lowest first. -/
def leBytes : ℕ → ℕ → List UInt8
  | 0, _ => []
  | n + 1, x => UInt8.ofNat x :: leBytes n (x / 256)

@[simp] lemma length_leBytes (n x : ℕ) : (leBytes n x).length = n := by
  induction n generalizing x with
  | zero => rfl
  | succ n ih => rw [leBytes, List.length_cons, ih]

lemma uint8_ofNat_eq_iff {x y : ℕ} : UInt8.ofNat x = UInt8.ofNat y ↔ x % 256 = y % 256 := by
  rw [← UInt8.toNat_inj, UInt8.toNat_ofNat', UInt8.toNat_ofNat']

/-- The bytes determine the number up to a multiple of `256 ^ n`. -/
theorem leBytes_eq_iff {n x y : ℕ} : leBytes n x = leBytes n y ↔ x % 256 ^ n = y % 256 ^ n := by
  induction n generalizing x y with
  | zero => simp [leBytes, Nat.mod_one]
  | succ n ih =>
    have hx : x % 256 ^ (n + 1) = x % 256 + 256 * (x / 256 % 256 ^ n) := by rw [pow_succ', Nat.mod_mul]
    have hy : y % 256 ^ (n + 1) = y % 256 + 256 * (y / 256 % 256 ^ n) := by rw [pow_succ', Nat.mod_mul]
    rw [leBytes, leBytes, List.cons.injEq, uint8_ofNat_eq_iff, ih, hx, hy]
    have hx' := Nat.mod_lt x (show 0 < 256 by decide)
    have hy' := Nat.mod_lt y (show 0 < 256 by decide)
    constructor
    · rintro ⟨h₁, h₂⟩
      rw [h₁, h₂]
    · intro h
      omega

lemma leBytes_inj {n x y : ℕ} (hx : x < 256 ^ n) (hy : y < 256 ^ n) : leBytes n x = leBytes n y ↔ x = y := by
  rw [leBytes_eq_iff, Nat.mod_eq_of_lt hx, Nat.mod_eq_of_lt hy]

/-- The number of which these are the bytes, the lowest first. -/
def leValue (bytes : List UInt8) : ℕ := bytes.foldr (fun b n => n * 256 + b.toNat) 0

@[simp] lemma leValue_nil : leValue [] = 0 := rfl

@[simp] lemma leValue_cons (b : UInt8) (bytes : List UInt8) :
    leValue (b :: bytes) = leValue bytes * 256 + b.toNat := rfl

lemma leValue_lt (bytes : List UInt8) : leValue bytes < 256 ^ bytes.length := by
  induction bytes with
  | nil => decide
  | cons b bytes ih =>
    have hb := b.toNat_lt
    rw [leValue_cons, List.length_cons, Nat.pow_succ]
    omega

theorem leValue_leBytes (n x : ℕ) : leValue (leBytes n x) = x % 256 ^ n := by
  induction n generalizing x with
  | zero => rw [leBytes, leValue_nil, Nat.pow_zero, Nat.mod_one]
  | succ n ih =>
    have hb : (UInt8.ofNat x).toNat = x % 256 := UInt8.toNat_ofNat'
    rw [leBytes, leValue_cons, ih, hb, pow_succ', Nat.mod_mul]
    omega

/-- Bytes come back. -/
theorem leBytes_leValue (bytes : List UInt8) : leBytes bytes.length (leValue bytes) = bytes := by
  induction bytes with
  | nil => rfl
  | cons b bytes ih =>
    have hb := b.toNat_lt
    have hlow : UInt8.ofNat (leValue bytes * 256 + b.toNat) = b := by
      rw [← UInt8.toNat_inj, UInt8.toNat_ofNat']
      omega
    have hhigh : (leValue bytes * 256 + b.toNat) / 256 = leValue bytes := by omega
    rw [leValue_cons, List.length_cons, leBytes, hlow, hhigh, ih]

end MidnightSun.Lib

import Mathlib.Algebra.Order.Round
import Mathlib.Data.Rat.Floor
import Mathlib.Tactic.Linarith
import MidnightSun.Util.Arith

/-!
# Timing of the virtual display (src/platform/linux/headless.cpp)

The mode that `setup_vkms` sets.  The pixel clock is that of the visible pixels; the totals count the blanking too.
-/

namespace MidnightSun.Platf.Headless

open Util

/-- The timing in a `drmModeModeInfo`. -/
structure ModeInfo where
  clock : UInt32
  hdisplay : UInt16
  hsyncStart : UInt16
  hsyncEnd : UInt16
  htotal : UInt16
  vdisplay : UInt16
  vsyncStart : UInt16
  vsyncEnd : UInt16
  vtotal : UInt16
  vrefresh : UInt32
  deriving DecidableEq

/-- The conversion of an `int` to `__u16`. -/
def toU16 (x : Int32) : UInt16 := x.toUInt32.toUInt16

/-- The mode that `setup_vkms` sets; a product that does not fit into an `int` wraps around. -/
def modeInfo (w h refresh : Int32) : ModeInfo where
  clock := ((w * h * refresh) / 1000).toUInt32
  hdisplay := toU16 w
  hsyncStart := toU16 (w + 48)
  hsyncEnd := toU16 (w + 48 + 32)
  htotal := toU16 (w + 48 + 32 + 80)
  vdisplay := toU16 h
  vsyncStart := toU16 (h + 3)
  vsyncEnd := toU16 (h + 3 + 5)
  vtotal := toU16 (h + 3 + 5 + 24)
  vrefresh := refresh.toUInt32

/-- The values that are computed on the way. -/
def modeIntermediates (w h refresh : ℤ) : List ℤ :=
  [w * h, w * h * refresh, (w * h * refresh).tdiv 1000, w + 48, w + 48 + 32, w + 48 + 32 + 80, h + 3, h + 3 + 5,
    h + 3 + 5 + 24]

/-- The refresh rate that the clock and the totals make. -/
def ModeInfo.rate (m : ModeInfo) : ℚ := (m.clock.toNat * 1000 : ℚ) / (m.htotal.toNat * m.vtotal.toNat)

/-- What is asked of the mode for a request. -/
structure ModeFits (w h refresh : Int32) : Prop where
  hdisplay : (modeInfo w h refresh).hdisplay.toNat = w.toInt
  horizontal : (modeInfo w h refresh).hdisplay ≤ (modeInfo w h refresh).hsyncStart ∧
    (modeInfo w h refresh).hsyncStart ≤ (modeInfo w h refresh).hsyncEnd ∧
    (modeInfo w h refresh).hsyncEnd ≤ (modeInfo w h refresh).htotal
  vdisplay : (modeInfo w h refresh).vdisplay.toNat = h.toInt
  vertical : (modeInfo w h refresh).vdisplay ≤ (modeInfo w h refresh).vsyncStart ∧
    (modeInfo w h refresh).vsyncStart ≤ (modeInfo w h refresh).vsyncEnd ∧
    (modeInfo w h refresh).vsyncEnd ≤ (modeInfo w h refresh).vtotal
  rate : round (modeInfo w h refresh).rate = refresh.toInt
  fits : ∀ x ∈ modeIntermediates w.toInt h.toInt refresh.toInt, FitsInt x

/-- The request is one that a client can make. -/
structure Requested (w h refresh : Int32) : Prop where
  width : 1 ≤ w.toInt ∧ w.toInt ≤ 16384
  height : 1 ≤ h.toInt ∧ h.toInt ≤ 16384
  refresh : 1 ≤ refresh.toInt ∧ refresh.toInt ≤ 500

/-- The product fits into an `int`, and the blanking is short enough for the rate. -/
def ShortBlanking (w h refresh : ℤ) : Prop :=
  w * h * refresh < 2 ^ 31 ∧
    (2 * refresh - 1) * ((w + 160) * (h + 32) - w * h) + 2 * (w * h * refresh % 1000) ≤ w * h

/-! ### Machine integers -/

lemma toInt_add_of_fits {x y : Int32} (h : FitsInt (x.toInt + y.toInt)) : (x + y).toInt = x.toInt + y.toInt := by
  unfold FitsInt at h
  rw [Int32.toInt_add, Int.bmod_eq_of_le (by omega) (by omega)]

lemma toInt_mul_of_fits {x y : Int32} (h : FitsInt (x.toInt * y.toInt)) : (x * y).toInt = x.toInt * y.toInt := by
  unfold FitsInt at h
  rw [Int32.toInt_mul, Int.bmod_eq_of_le (by omega) (by omega)]

lemma toNat_toUInt32 {x : Int32} {n : ℕ} (hx : x.toInt = n) : x.toUInt32.toNat = n := by
  have hle : 0 ≤ x := Int32.le_iff_toInt_le.mpr (by rw [hx]; exact Int.natCast_nonneg n)
  rw [Int32.toNat_toUInt32_of_le hle]
  exact congrArg Int.toNat hx

lemma toNat_toU16 {x : Int32} {n : ℕ} (hx : x.toInt = n) (hn : n < 2 ^ 16) : (toU16 x).toNat = n := by
  rw [toU16, UInt32.toNat_toUInt16, toNat_toUInt32 hx, Nat.mod_eq_of_lt hn]

lemma toInt_add_of_eq {x y : Int32} {n k m : ℕ} (hx : x.toInt = n) (hy : y.toInt = k) (hm : n + k = m)
    (hle : m ≤ 2 ^ 15) : (x + y).toInt = m := by
  rw [toInt_add_of_fits (by unfold FitsInt; omega), hx, hy, ← hm, Nat.cast_add]

lemma toInt_mul_of_eq {x y : Int32} {n k : ℕ} (hx : x.toInt = n) (hy : y.toInt = k) (hlt : n * k < 2 ^ 31) :
    (x * y).toInt = (n * k : ℕ) := by
  have hprod : x.toInt * y.toInt = (n * k : ℕ) := by rw [hx, hy, Nat.cast_mul]
  rw [toInt_mul_of_fits (by unfold FitsInt; omega), hprod]

/-! ### Rounding -/

/-- When a quotient is rounded to `r`. -/
lemma round_div_eq_iff (a : ℕ) {b : ℕ} (hb : 0 < b) (r : ℤ) :
    round ((a : ℚ) / b) = r ↔ (2 * r - 1) * b ≤ 2 * a ∧ 2 * a < (2 * r + 1) * b := by
  have hpos : (0 : ℚ) < b := Nat.cast_pos.mpr hb
  have hlow : (r : ℚ) ≤ a / b + 1 / 2 ↔ (2 * r - 1) * b ≤ 2 * (a : ℤ) := by
    rw [← sub_le_iff_le_add, le_div_iff₀ hpos]
    constructor
    · intro h
      have h' : ((2 * r - 1) * b : ℚ) ≤ 2 * a := by linarith
      exact_mod_cast h'
    · intro h
      have h' : ((2 * r - 1) * b : ℚ) ≤ 2 * a := by exact_mod_cast h
      linarith
  have hhigh : (a / b + 1 / 2 : ℚ) < r + 1 ↔ 2 * (a : ℤ) < (2 * r + 1) * b := by
    rw [← lt_sub_iff_add_lt, div_lt_iff₀ hpos]
    constructor
    · intro h
      have h' : (2 * a : ℚ) < (2 * r + 1) * b := by linarith
      exact_mod_cast h'
    · intro h
      have h' : (2 * a : ℚ) < (2 * r + 1) * b := by exact_mod_cast h
      linarith
  rw [round_eq, Int.floor_eq_iff, hlow, hhigh]

/-! ### The mode of a request -/

variable {w h refresh : Int32} {W H R : ℕ}

variable (h refresh) in
lemma modeInfo_horizontal (hw : w.toInt = W) (hW : W ≤ 16384) :
    (modeInfo w h refresh).hdisplay.toNat = W ∧ (modeInfo w h refresh).hsyncStart.toNat = W + 48 ∧
      (modeInfo w h refresh).hsyncEnd.toNat = W + 80 ∧ (modeInfo w h refresh).htotal.toNat = W + 160 := by
  have hstart : (w + 48).toInt = (W + 48 : ℕ) := toInt_add_of_eq hw rfl rfl (by omega)
  have hend : (w + 48 + 32).toInt = (W + 80 : ℕ) := toInt_add_of_eq hstart rfl rfl (by omega)
  have htotal : (w + 48 + 32 + 80).toInt = (W + 160 : ℕ) := toInt_add_of_eq hend rfl rfl (by omega)
  exact ⟨toNat_toU16 hw (by omega), toNat_toU16 hstart (by omega), toNat_toU16 hend (by omega),
    toNat_toU16 htotal (by omega)⟩

variable (w refresh) in
lemma modeInfo_vertical (hh : h.toInt = H) (hH : H ≤ 16384) :
    (modeInfo w h refresh).vdisplay.toNat = H ∧ (modeInfo w h refresh).vsyncStart.toNat = H + 3 ∧
      (modeInfo w h refresh).vsyncEnd.toNat = H + 8 ∧ (modeInfo w h refresh).vtotal.toNat = H + 32 := by
  have hstart : (h + 3).toInt = (H + 3 : ℕ) := toInt_add_of_eq hh rfl rfl (by omega)
  have hend : (h + 3 + 5).toInt = (H + 8 : ℕ) := toInt_add_of_eq hstart rfl rfl (by omega)
  have htotal : (h + 3 + 5 + 24).toInt = (H + 32 : ℕ) := toInt_add_of_eq hend rfl rfl (by omega)
  exact ⟨toNat_toU16 hh (by omega), toNat_toU16 hstart (by omega), toNat_toU16 hend (by omega),
    toNat_toU16 htotal (by omega)⟩

lemma modeInfo_clock (hw : w.toInt = W) (hh : h.toInt = H) (hr : refresh.toInt = R) (hfits : W * H * R < 2 ^ 31)
    (hR : 0 < R) : (modeInfo w h refresh).clock.toNat = W * H * R / 1000 := by
  have hle : W * H ≤ W * H * R := Nat.le_mul_of_pos_right _ hR
  have hwh : (w * h).toInt = (W * H : ℕ) := toInt_mul_of_eq hw hh (by omega)
  have hall : (w * h * refresh).toInt = (W * H * R : ℕ) := toInt_mul_of_eq hwh hr hfits
  refine toNat_toUInt32 ?_
  rw [Int32.toInt_div, hall]
  have hthousand : (1000 : Int32).toInt = (1000 : ℕ) := rfl
  rw [hthousand, ← Int.ofNat_tdiv]
  exact Int.bmod_eq_of_le (by omega) (by omega)

/-- Rounded, the rate is the requested one exactly if the blanking is short enough. -/
lemma round_rate_iff (hw : w.toInt = W) (hh : h.toInt = H) (hr : refresh.toInt = R) (hW : W ≤ 16384)
    (hH : H ≤ 16384) (hR : 0 < R) (hfits : W * H * R < 2 ^ 31) :
    round (modeInfo w h refresh).rate = R ↔
      (2 * R - 1 : ℤ) * ((W + 160) * (H + 32) - W * H) + 2 * (W * H * R % 1000) ≤ W * H := by
  have hrate : (modeInfo w h refresh).rate = ((W * H * R / 1000 * 1000 : ℕ) : ℚ) / ((W + 160) * (H + 32) : ℕ) := by
    rw [ModeInfo.rate, modeInfo_clock hw hh hr hfits hR, (modeInfo_horizontal h refresh hw hW).2.2.2,
      (modeInfo_vertical w refresh hh hH).2.2.2]
    push_cast
    rfl
  rw [hrate, round_div_eq_iff _ (Nat.mul_pos (by omega) (by omega))]
  have htrunc : ((W * H * R / 1000 * 1000 : ℕ) : ℤ) = (W * H * R : ℤ) - (W * H * R : ℤ) % 1000 := by
    have hsplit : ((W * H * R / 1000 * 1000 : ℕ) : ℤ) + ((W * H * R % 1000 : ℕ) : ℤ) = ((W * H * R : ℕ) : ℤ) := by
      rw [← Nat.cast_add, Nat.div_add_mod']
    rw [Int.natCast_mod, Nat.cast_mul, Nat.cast_mul] at hsplit
    exact eq_sub_of_add_eq hsplit
  have hmod_nonneg : 0 ≤ (W * H * R : ℤ) % 1000 := Int.emod_nonneg _ (by decide)
  rw [htrunc]
  generalize (W * H * R : ℤ) % 1000 = rest at hmod_nonneg ⊢
  push_cast
  constructor
  · rintro ⟨hlow, -⟩
    linarith
  · intro hlow
    refine ⟨by linarith, ?_⟩
    nlinarith

/-- **The mode has the requested refresh rate exactly if the blanking is short enough** and the product fits. -/
theorem modeFits_iff (hrequested : Requested w h refresh) :
    ModeFits w h refresh ↔ ShortBlanking w.toInt h.toInt refresh.toInt := by
  obtain ⟨⟨hw1, hw2⟩, ⟨hh1, hh2⟩, ⟨hr1, hr2⟩⟩ := hrequested
  obtain ⟨W, hW⟩ := Int.eq_ofNat_of_zero_le (show 0 ≤ w.toInt by omega)
  obtain ⟨H, hH⟩ := Int.eq_ofNat_of_zero_le (show 0 ≤ h.toInt by omega)
  obtain ⟨R, hR⟩ := Int.eq_ofNat_of_zero_le (show 0 ≤ refresh.toInt by omega)
  have hcast : (W * H * R : ℤ) = (W * H * R : ℕ) := by push_cast; rfl
  constructor
  · intro hfits
    have hprod : FitsInt (w.toInt * h.toInt * refresh.toInt) := hfits.fits _ (by simp [modeIntermediates])
    rw [hW, hH, hR] at hprod ⊢
    have hlt : (W * H * R : ℤ) < 2 ^ 31 := hprod.2
    refine ⟨hlt, ?_⟩
    rw [hcast] at hlt
    exact (round_rate_iff hW hH hR (by omega) (by omega) (by omega) (by omega)).mp (hR ▸ hfits.rate)
  · rintro ⟨hlt, hshort⟩
    obtain ⟨hdisplay, hstart, hend, htotal⟩ := modeInfo_horizontal h refresh hW (by omega)
    obtain ⟨hvdisplay, hvstart, hvend, hvtotal⟩ := modeInfo_vertical w refresh hH (by omega)
    refine ⟨by rw [hdisplay, hW], ?_, by rw [hvdisplay, hH], ?_, ?_, ?_⟩
    · simp only [UInt16.le_iff_toNat_le, hdisplay, hstart, hend, htotal]
      omega
    · simp only [UInt16.le_iff_toNat_le, hvdisplay, hvstart, hvend, hvtotal]
      omega
    · rw [hW, hH, hR] at hlt hshort
      rw [hcast] at hlt
      rw [hR]
      exact (round_rate_iff hW hH hR (by omega) (by omega) (by omega) (by omega)).mpr hshort
    · rw [hW, hH, hR] at hlt ⊢
      have hle : (W * H : ℤ) ≤ W * H * R := le_mul_of_one_le_right (by positivity) (by omega)
      have hnonneg : (0 : ℤ) ≤ W * H := by positivity
      have hdiv : ((W * H * R : ℤ)).tdiv 1000 = W * H * R / 1000 := Int.tdiv_eq_ediv_of_nonneg (by positivity)
      unfold modeIntermediates FitsInt
      simp only [List.mem_cons, List.not_mem_nil, or_false, hdiv]
      rintro x (rfl | rfl | rfl | rfl | rfl | rfl | rfl | rfl | rfl) <;> omega

/-- A display that is refreshed once a second. -/
theorem modeFits_once_a_second : ModeFits 1000 1000 1 :=
  (modeFits_iff ⟨by decide, by decide, by decide⟩).mpr (by unfold ShortBlanking; decide)

/-- 1920x1080 at 60 Hz gets a mode of 54 Hz. -/
theorem full_hd_rate_is_54 : (¬∀ w h refresh, Requested w h refresh → ModeFits w h refresh) ∧
    round (modeInfo 1920 1080 60).rate = 54 := by
  have hrate : round (modeInfo 1920 1080 60).rate = 54 := by
    have hclock : (modeInfo 1920 1080 60).clock.toNat = 124416 := by decide
    have htotals : (modeInfo 1920 1080 60).htotal.toNat = 2080 ∧ (modeInfo 1920 1080 60).vtotal.toNat = 1112 := by
      decide
    have hquotient : (modeInfo 1920 1080 60).rate = (124416000 : ℕ) / (2312960 : ℕ) := by
      rw [ModeInfo.rate, hclock, htotals.1, htotals.2]
      norm_num
    rw [hquotient, round_div_eq_iff _ (by decide)]
    decide
  refine ⟨fun hholds => ?_, hrate⟩
  have hfits := (hholds 1920 1080 60 ⟨by decide, by decide, by decide⟩).rate
  rw [hrate] at hfits
  exact absurd hfits (by decide)

end MidnightSun.Platf.Headless

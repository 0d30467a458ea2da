import Mathlib.Data.List.Basic
import Mathlib.Data.Nat.Notation
import MidnightSun.Lib.Buffer

/-!
# Rasters

A raster is a list read row by row; `stride` is the distance of two rows.  `updateRows` changes the cells of a rectangle
one after the other, and fails at the first one that is not there; `copyRows` copies the rows of a rectangle of bytes,
one block each, and fails at the first block that is not within both lists.
-/

namespace MidnightSun.Lib.Raster

/-- A pixel of four bytes, as it lies in memory. -/
structure Pixel where
  b : UInt8
  g : UInt8
  r : UInt8
  a : UInt8
  deriving DecidableEq

variable {α : Type*}

/-! ### Changing the cells of a rectangle -/

/-- The cells from `base` on are changed in turn; `f k` makes the new value of the cell `k` from the old one. -/
def updateRange (f : ℕ → α → Option α) (base : ℕ) : ℕ → List α → Option (List α)
  | 0, data => some data
  | n + 1, data =>
    (updateRange f base n data).bind fun data =>
      (data[base + n]?).bind fun old => (f n old).map fun new => data.set (base + n) new

/-- The same for `h` rows of `w` cells each. -/
def updateRows (f : ℕ → ℕ → α → Option α) (base : ℕ → ℕ) (w : ℕ → Option ℕ) : ℕ → List α → Option (List α)
  | 0, data => some data
  | h + 1, data =>
    (updateRows f base w h data).bind fun data => (w h).bind fun n => updateRange (f h) (base h) n data

theorem updateRange_spec {f : ℕ → α → Option α} {g : ℕ → α → α} {base n : ℕ} {data : List α}
    (hf : ∀ k < n, ∀ old, f k old = some (g k old)) (hn : base + n ≤ data.length) :
    ∃ data', updateRange f base n data = some data' ∧ data'.length = data.length ∧
      ∀ i, data'[i]? = if base ≤ i ∧ i < base + n then (data[i]?).map (g (i - base)) else data[i]? := by
  induction n with
  | zero =>
    refine ⟨data, rfl, rfl, fun i => ?_⟩
    rw [if_neg (by omega)]
  | succ n ih =>
    obtain ⟨data', hdata', hlength, hget⟩ := ih (fun k hk => hf k (by omega)) (by omega)
    have hold : data'[base + n]? = some data[base + n] := by
      rw [hget, if_neg (by omega), List.getElem?_eq_getElem (by omega)]
    refine ⟨data'.set (base + n) (g n data[base + n]), ?_, by rw [List.length_set, hlength], fun i => ?_⟩
    · simp only [updateRange, hdata', Option.bind_some, hold, hf n (Nat.lt_succ_self n), Option.map_some]
    · rw [List.getElem?_set]
      by_cases hi : base + n = i
      · subst hi
        rw [if_pos rfl, if_pos (by omega), if_pos (by omega), List.getElem?_eq_getElem (by omega),
          Nat.add_sub_cancel_left]
        rfl
      · rw [if_neg hi, hget]
        by_cases hrange : base ≤ i ∧ i < base + n
        · rw [if_pos hrange, if_pos (by omega)]
        · rw [if_neg hrange, if_neg (by omega)]

theorem updateRows_nothing {f : ℕ → ℕ → α → Option α} {base : ℕ → ℕ} {w : ℕ → Option ℕ} {h : ℕ} {data : List α}
    (hw : ∀ r < h, w r = some 0) : updateRows f base w h data = some data := by
  induction h with
  | zero => rfl
  | succ h ih =>
    simp only [updateRows, ih fun r hr => hw r (by omega), Option.bind_some, hw h (Nat.lt_succ_self h), updateRange]

/-- A cell of a row is not one of another row. -/
theorem cell_eq_iff {stride r r' c c' : ℕ} (hc : c < stride) (hc' : c' < stride) :
    r * stride + c = r' * stride + c' ↔ r = r' ∧ c = c' := by
  constructor
  · intro h
    rcases Nat.lt_trichotomy r r' with hlt | rfl | hlt
    · have := Nat.mul_le_mul_right stride (show r + 1 ≤ r' from hlt)
      rw [Nat.add_mul] at this
      omega
    · omega
    · have := Nat.mul_le_mul_right stride (show r' + 1 ≤ r from hlt)
      rw [Nat.add_mul] at this
      omega
  · rintro ⟨rfl, rfl⟩
    rfl

/-- Every cell of the rectangle is changed, and no other. -/
theorem updateRows_spec {f : ℕ → ℕ → α → Option α} {g : ℕ → ℕ → α → α} {base : ℕ → ℕ} {w : ℕ → Option ℕ}
    {stride x y width h : ℕ} {data : List α} (hbase : ∀ r < h, base r = (y + r) * stride + x)
    (hw : ∀ r < h, w r = some width) (hf : ∀ r < h, ∀ k < width, ∀ old, f r k old = some (g r k old))
    (hx : x + width ≤ stride) (hdata : (y + h) * stride ≤ data.length) :
    ∃ data', updateRows f base w h data = some data' ∧ data'.length = data.length ∧
      ∀ r c, c < stride → data'[r * stride + c]? =
        if (y ≤ r ∧ r < y + h) ∧ x ≤ c ∧ c < x + width then (data[r * stride + c]?).map (g (r - y) (c - x))
        else data[r * stride + c]? := by
  induction h with
  | zero =>
    refine ⟨data, rfl, rfl, fun r c _ => ?_⟩
    rw [if_neg (by omega)]
  | succ h ih =>
    have hrow : (y + (h + 1)) * stride = (y + h) * stride + stride := by
      rw [← Nat.add_assoc, Nat.add_mul, Nat.one_mul]
    obtain ⟨data', hdata', hlength, hget⟩ := ih (fun r hr => hbase r (by omega)) (fun r hr => hw r (by omega))
      (fun r hr => hf r (by omega)) (by omega)
    have hfits : (y + h) * stride + x + width ≤ data'.length := by omega
    obtain ⟨data'', hdata'', hlength', hget'⟩ := updateRange_spec (hf h (Nat.lt_succ_self h)) hfits
    refine ⟨data'', ?_, hlength'.trans hlength, fun r c hc => ?_⟩
    · simp only [updateRows, hdata', Option.bind_some, hw h (Nat.lt_succ_self h), hbase h (Nat.lt_succ_self h), hdata'']
    · rw [hget']
      by_cases hr : r = y + h
      · subst hr
        by_cases hcol : x ≤ c ∧ c < x + width
        · rw [if_pos (by omega), if_pos (by omega), hget _ _ hc, if_neg (by omega), Nat.add_sub_cancel_left]
          congr 2
          omega
        · rw [if_neg (by omega), if_neg (by omega), hget _ _ hc, if_neg (by omega)]
      · have hout : ¬((y + h) * stride + x ≤ r * stride + c ∧ r * stride + c < (y + h) * stride + x + width) := by
          rintro ⟨hlow, hhigh⟩
          have hc' : r * stride + c - (y + h) * stride < stride := by omega
          have hcell : r * stride + c = (y + h) * stride + (r * stride + c - (y + h) * stride) := by omega
          exact hr ((cell_eq_iff hc hc').mp hcell).1
        rw [if_neg hout, hget _ _ hc]
        by_cases hin : (y ≤ r ∧ r < y + h) ∧ x ≤ c ∧ c < x + width
        · rw [if_pos hin, if_pos (by omega)]
        · rw [if_neg hin, if_neg (by omega)]

/-! ### Copying the rows of a rectangle -/

/-- `n` elements are copied, if both ranges are there. -/
def memcpy (dst : List α) (dstOffset : ℕ) (src : List α) (srcOffset n : ℕ) : Option (List α) :=
  if dstOffset + n ≤ dst.length ∧ srcOffset + n ≤ src.length then
    some (Buffer.write dst dstOffset (Buffer.read src srcOffset n))
  else none

/-- `h` rows of `w` elements are copied, one behind the other. -/
def copyRows (src : List α) (offset : ℕ → ℕ) (w : ℕ) : ℕ → List α → Option (List α)
  | 0, dst => some dst
  | h + 1, dst => (copyRows src offset w h dst).bind fun dst => memcpy dst (h * w) src (offset h) w

/-- The rows that begin at these offsets. -/
def rows (src : List α) (offset : ℕ → ℕ) (w : ℕ) : ℕ → List α
  | 0 => []
  | h + 1 => rows src offset w h ++ Buffer.read src (offset h) w

variable {src dst : List α} {offset : ℕ → ℕ} {w h : ℕ}

theorem length_read {o n : ℕ} (hn : o + n ≤ src.length) : (Buffer.read src o n).length = n := by
  unfold Buffer.read
  rw [List.length_take, List.length_drop]
  omega

theorem length_rows (hsrc : ∀ y < h, offset y + w ≤ src.length) : (rows src offset w h).length = h * w := by
  induction h with
  | zero => rw [rows, Nat.zero_mul]; rfl
  | succ h ih =>
    rw [rows, List.length_append, ih fun y hy => hsrc y (by omega), length_read (hsrc h (Nat.lt_succ_self h)),
      Nat.add_mul, Nat.one_mul]

theorem copyRows_eq (hdst : h * w ≤ dst.length) (hsrc : ∀ y < h, offset y + w ≤ src.length) :
    copyRows src offset w h dst = some (rows src offset w h ++ dst.drop (h * w)) := by
  induction h with
  | zero => rw [copyRows, rows, Nat.zero_mul]; rfl
  | succ h ih =>
    rw [Nat.add_mul, Nat.one_mul] at hdst
    have hprev : ∀ y < h, offset y + w ≤ src.length := fun y hy => hsrc y (by omega)
    have hrow := hsrc h (Nat.lt_succ_self h)
    have hlength := length_rows hprev
    rw [copyRows, ih (by omega) hprev, Option.bind_some]
    unfold memcpy
    rw [if_pos ⟨by rw [List.length_append, hlength, List.length_drop]; omega, hrow⟩]
    unfold Buffer.write
    rw [length_read hrow, List.take_left' hlength, List.drop_append, hlength,
      List.drop_eq_nil_of_le (by rw [hlength]; omega), List.nil_append, List.drop_drop, rows, Nat.add_mul, Nat.one_mul]
    congr 3
    omega

theorem rows_eq_read (src : List α) (o w h : ℕ) : rows src (fun y => o + y * w) w h = Buffer.read src o (h * w) := by
  induction h with
  | zero => rw [rows, Nat.zero_mul]; rfl
  | succ h ih => rw [rows, ih, Nat.add_mul, Nat.one_mul, Buffer.read_add]

theorem rows_congr {offset' : ℕ → ℕ} (hoffset : ∀ y < h, offset y = offset' y) :
    rows src offset w h = rows src offset' w h := by
  induction h with
  | zero => rfl
  | succ h ih => rw [rows, rows, ih fun y hy => hoffset y (by omega), hoffset h (Nat.lt_succ_self h)]

/-- A part of one row. -/
theorem read_rows {y c n : ℕ} (hsrc : ∀ y < h, offset y + w ≤ src.length) (hy : y < h) (hc : c + n ≤ w) :
    Buffer.read (rows src offset w h) (y * w + c) n = Buffer.read src (offset y + c) n := by
  induction h with
  | zero => omega
  | succ h ih =>
    have hprev : ∀ y < h, offset y + w ≤ src.length := fun y hy => hsrc y (by omega)
    have hlength := length_rows hprev
    have hrow := length_read (hsrc h (Nat.lt_succ_self h))
    rw [rows]
    by_cases hlast : y = h
    · subst hlast
      unfold Buffer.read
      rw [List.drop_append, hlength, List.drop_eq_nil_of_le (by omega), List.nil_append, Nat.add_sub_cancel_left,
        List.drop_take, List.drop_drop, List.take_take, Nat.min_eq_left (by omega)]
    · have hlt : y < h := by omega
      have hmul := Nat.mul_le_mul_right w (show y + 1 ≤ h from hlt)
      rw [Nat.add_mul, Nat.one_mul] at hmul
      rw [← ih hprev hlt]
      unfold Buffer.read
      rw [List.drop_append_of_le_length (by omega), List.take_append_of_le_length (by rw [List.length_drop]; omega)]

end MidnightSun.Lib.Raster

import MidnightSun.Stream.Packetize

/-!
# `concat_and_insert` on 64-bit sizes (src/stream.cpp)

`concatAndInsert` of the packetizer computes with unbounded sizes.  Here the sizes are the `uint64_t` of the source,
which wrap around, the counter of the loop is its `int`, and every copy has to stay inside its buffers.
-/

namespace MidnightSun.Stream

open Lib Util

/-- `std::copy` of `count` bytes of `src` from `pos` on to `off` of `dst`; `none` if it reads or writes outside. -/
def copyInto (src : Str) (pos count : ℕ) (dst : Str) (off : ℕ) : Option Str :=
  if pos + count ≤ src.length ∧ off + count ≤ dst.length then some (overwrite dst off ((src.drop pos).take count))
  else none

/-- `resize` of an empty vector of bytes; `none` is the `std::length_error` beyond `max_size`. -/
def resizeZero (size : UInt64) : Option Str :=
  if size.toNat < 2 ^ 63 then some (List.replicate size.toNat 0) else none

/-- Where an iteration stands: `next` in the buffer it points into, whose end is `end`, and the result. -/
structure InsertState where
  buffer : Str
  next : ℕ
  result : Str

/-- One iteration.  `slice_size` changes in the last one only, so that the change is not seen by another. -/
def insertSlice (insertSize sliceSize dataSize elements : UInt64) (data2 : Str) (x : ℕ) (s : InsertState) :
    Option InsertState := do
  let p := (UInt64.ofNat x * (insertSize + sliceSize)).toNat
  let sliceSize := if UInt64.ofNat x = elements - 1 then dataSize - UInt64.ofNat x * sliceSize else sliceSize
  if s.buffer.length < s.next + sliceSize.toNat then
    let copyLen := s.buffer.length - s.next
    let rest := (sliceSize - UInt64.ofNat copyLen).toNat
    let result ← copyInto s.buffer s.next copyLen s.result (p + insertSize.toNat)
    let result ← copyInto data2 0 rest result (p + copyLen + insertSize.toNat)
    some ⟨data2, rest, result⟩
  else
    let result ← copyInto s.buffer s.next sliceSize.toNat s.result (p + insertSize.toNat)
    some ⟨s.buffer, s.next + sliceSize.toNat, result⟩

/-- The iterations from `x` on, `left` of them; `x` is an `int`. -/
def insertLoop (insertSize sliceSize dataSize elements : UInt64) (data2 : Str) (left x : ℕ) (s : InsertState) :
    Option Str :=
  match left with
  | 0 => some s.result
  | left + 1 => do
    let s ← insertSlice insertSize sliceSize dataSize elements data2 x s
    let _ ← checkInt (x + 1)
    insertLoop insertSize sliceSize dataSize elements data2 left (x + 1) s

/-- `elements`. -/
def elementsOf (dataSize sliceSize : UInt64) : UInt64 :=
  dataSize / sliceSize + if dataSize % sliceSize ≠ 0 then 1 else 0

/-- `concat_and_insert`. -/
def concatAndInsert64 (insertSize sliceSize : UInt64) (data1 data2 : Str) : Option Str :=
  let dataSize := UInt64.ofNat data1.length + UInt64.ofNat data2.length
  if sliceSize = 0 then none
  else do
    let elements := elementsOf dataSize sliceSize
    let result ← resizeZero (elements * insertSize + dataSize)
    insertLoop insertSize sliceSize dataSize elements data2 elements.toNat 0 ⟨data1, 0, result⟩

/-- What the result of `concat_and_insert` should be: `q` bytes of the data behind every `ins` zero bytes. -/
structure Inserted (ins q : ℕ) (data1 data2 result : Str) : Prop where
  length : result.length = sliceCount q (data1 ++ data2).length * ins + (data1 ++ data2).length
  data : (slices (ins + q) result).flatMap (List.drop ins) = data1 ++ data2
  blank : ∀ s ∈ slices (ins + q) result, ∀ b ∈ s.take ins, b = 0

/-- The sizes `concat_and_insert` works for: the result is no larger than a vector can be, and the number of slices
is an `int`. -/
def SizesFit (ins q n : ℕ) : Prop := sliceCount q n * ins + n < 2 ^ 63 ∧ sliceCount q n < 2 ^ 31

instance (ins q n : ℕ) : Decidable (SizesFit ins q n) := inferInstanceAs (Decidable (_ ∧ _))

lemma overwrite_length {buf bs : Str} {off : ℕ} (h : off + bs.length ≤ buf.length) :
    (overwrite buf off bs).length = buf.length := by
  simp only [overwrite, List.length_append, List.length_take, List.length_drop]
  omega

lemma copyInto_of_le {src dst : Str} {pos count off : ℕ} (hsrc : pos + count ≤ src.length)
    (hdst : off + count ≤ dst.length) :
    copyInto src pos count dst off = some (overwrite dst off ((src.drop pos).take count)) :=
  if_pos ⟨hsrc, hdst⟩

lemma length_of_copyInto {src dst out : Str} {pos count off : ℕ} (h : copyInto src pos count dst off = some out) :
    out.length = dst.length := by
  obtain ⟨⟨hsrc, hdst⟩, rfl⟩ := of_ite_some h
  exact overwrite_length (by rw [List.length_take, List.length_drop]; omega)

/-! ### The loop stays inside its buffers -/

section Insert

variable {insertSize sliceSize dataSize elements : UInt64} {data2 : Str} {x : ℕ} {s : InsertState}

/-- What the loop is entered with. -/
structure InsertSizes (insertSize sliceSize dataSize elements : UInt64) : Prop where
  pos : 0 < sliceSize.toNat
  count : elements.toNat = sliceCount sliceSize.toNat dataSize.toNat
  fit : SizesFit insertSize.toNat sliceSize.toNat dataSize.toNat

/-- The invariant at the iteration `x`: what is not copied is left between `next` and `end`, together with the second
buffer as long as `next` is in the first one. -/
structure InsertInv (insertSize sliceSize dataSize elements : UInt64) (data2 : Str) (x : ℕ) (s : InsertState) :
    Prop where
  next : s.next ≤ s.buffer.length
  rest : s.buffer.length - s.next = dataSize.toNat - x * sliceSize.toNat ∨
    s.buffer.length - s.next + data2.length = dataSize.toNat - x * sliceSize.toNat
  result : s.result.length = elements.toNat * insertSize.toNat + dataSize.toNat

/-- The size of the slice `x`. -/
def sliceAt (sliceSize dataSize elements x : ℕ) : ℕ :=
  if x = elements - 1 then dataSize - x * sliceSize else sliceSize

variable (hsizes : InsertSizes insertSize sliceSize dataSize elements)
include hsizes

lemma InsertSizes.mul_lt (hx : x < elements.toNat) : x * sliceSize.toNat < dataSize.toNat := by
  have hlt := sliceCount_mul_lt hsizes.pos dataSize.toNat
  have hmul : (x + 1) * sliceSize.toNat ≤ elements.toNat * sliceSize.toNat := Nat.mul_le_mul_right _ hx
  rw [← hsizes.count] at hlt
  rw [Nat.succ_mul] at hmul
  omega

lemma InsertSizes.sliceAt_eq (hx : x < elements.toNat) :
    sliceAt sliceSize.toNat dataSize.toNat elements.toNat x =
      min sliceSize.toNat (dataSize.toNat - x * sliceSize.toNat) := by
  have hle := le_sliceCount_mul hsizes.pos dataSize.toNat
  rw [← hsizes.count] at hle
  rw [sliceAt]
  split_ifs with hlast
  · have hmul : elements.toNat * sliceSize.toNat = x * sliceSize.toNat + sliceSize.toNat := by
      rw [← Nat.succ_mul]
      congr 1
      omega
    omega
  · have hnext := hsizes.mul_lt (x := x + 1) (by omega)
    rw [Nat.succ_mul] at hnext
    omega

lemma InsertSizes.toNat_start (hx : x < elements.toNat) :
    (UInt64.ofNat x * (insertSize + sliceSize)).toNat = x * (insertSize.toNat + sliceSize.toNat) := by
  have hmul := hsizes.mul_lt hx
  have hins : x * insertSize.toNat ≤ elements.toNat * insertSize.toNat := Nat.mul_le_mul_right _ (by omega)
  have hfit := hsizes.fit.1
  rw [← hsizes.count] at hfit
  rw [UInt64.toNat_mul, UInt64.toNat_add, UInt64.toNat_ofNat', ← Nat.mul_mod, Nat.mod_eq_of_lt]
  rw [Nat.mul_add]
  omega

/-- The 64-bit size of the slice `x` is its size. -/
lemma InsertSizes.toNat_sliceAt (hx : x < elements.toNat) :
    (if UInt64.ofNat x = elements - 1 then dataSize - UInt64.ofNat x * sliceSize else sliceSize).toNat =
      sliceAt sliceSize.toNat dataSize.toNat elements.toNat x := by
  have hmul := hsizes.mul_lt hx
  have hfit := hsizes.fit
  have hxlt : x < 2 ^ 64 := by
    have hcount := hsizes.count
    have hint := hfit.2
    omega
  have hofNat : (UInt64.ofNat x).toNat = x := UInt64.toNat_ofNat_of_lt' hxlt
  have hprod : (UInt64.ofNat x * sliceSize).toNat = x * sliceSize.toNat := by
    rw [UInt64.toNat_mul, hofNat, Nat.mod_eq_of_lt]
    have hfit := hfit.1
    omega
  have hlast : UInt64.ofNat x = elements - 1 ↔ x = elements.toNat - 1 := by
    have hone : (1 : UInt64) ≤ elements := by
      rw [UInt64.le_iff_toNat_le]
      exact Nat.one_le_of_lt hx
    rw [← UInt64.toNat_inj, hofNat, UInt64.toNat_sub_of_le _ _ hone]
    rfl
  rw [sliceAt, apply_ite UInt64.toNat, UInt64.toNat_sub_of_le, hprod]
  · simp only [hlast]
  · rw [UInt64.le_iff_toNat_le, hprod]
    exact hmul.le

/-- One iteration stays inside the buffers, keeps the invariant and does what it does on unbounded sizes. -/
lemma InsertInv.insertSlice (h : InsertInv insertSize sliceSize dataSize elements data2 x s)
    (hx : x < elements.toNat) (left : ℕ) :
    ∃ s', insertSlice insertSize sliceSize dataSize elements data2 x s = some s' ∧
      InsertInv insertSize sliceSize dataSize elements data2 (x + 1) s' ∧
      concatLoop insertSize.toNat sliceSize.toNat dataSize.toNat elements.toNat data2 (left + 1) x
          (s.buffer.drop s.next) s.result =
        concatLoop insertSize.toNat sliceSize.toNat dataSize.toNat elements.toNat data2 left (x + 1)
          (s'.buffer.drop s'.next) s'.result := by
  obtain ⟨hnext, hrest, hresult⟩ := h
  have hmul := hsizes.mul_lt hx
  have hstart := hsizes.toNat_start hx
  have hsize := hsizes.toNat_sliceAt hx
  have hmin := hsizes.sliceAt_eq hx
  have hins : (x + 1) * insertSize.toNat ≤ elements.toNat * insertSize.toNat := Nat.mul_le_mul_right _ hx
  rw [Nat.succ_mul] at hins
  have hroom : x * (insertSize.toNat + sliceSize.toNat) + insertSize.toNat +
      sliceAt sliceSize.toNat dataSize.toNat elements.toNat x ≤ s.result.length := by
    rw [hresult, Nat.mul_add]
    omega
  rw [Stream.insertSlice, concatLoop, hstart, hsize]
  change sliceAt _ _ _ _ = _ at hmin
  rw [← sliceAt]
  generalize sliceAt sliceSize.toNat dataSize.toNat elements.toNat x = size at *
  generalize x * (insertSize.toNat + sliceSize.toNat) = p at *
  generalize (if UInt64.ofNat x = elements - 1 then dataSize - UInt64.ofNat x * sliceSize else sliceSize) = size64 at *
  rw [List.length_drop]
  by_cases hlt : s.buffer.length < s.next + size
  · -- the slice extends into the second buffer
    have hlen : s.buffer.length - s.next < size := by omega
    have hrest2 : (size64 - UInt64.ofNat (s.buffer.length - s.next)).toNat =
        size - (s.buffer.length - s.next) := by
      have hofNat : (UInt64.ofNat (s.buffer.length - s.next)).toNat = s.buffer.length - s.next :=
        UInt64.toNat_ofNat_of_lt' (Nat.lt_trans hlen (hsize ▸ UInt64.toNat_lt size64))
      rw [UInt64.toNat_sub_of_le, hofNat, hsize]
      rw [UInt64.le_iff_toNat_le, hofNat, hsize]
      exact hlen.le
    have hdata2 : size - (s.buffer.length - s.next) ≤ data2.length := by omega
    have htake : (s.buffer.drop s.next).take (s.buffer.length - s.next) = s.buffer.drop s.next := by
      rw [← List.length_drop, List.take_length]
    have hcopy1 : copyInto s.buffer s.next (s.buffer.length - s.next) s.result (p + insertSize.toNat) = _ :=
      copyInto_of_le (by omega) (by omega)
    have hlen1 := length_of_copyInto hcopy1
    rw [htake] at hcopy1 hlen1
    have hcopy2 : copyInto data2 0 (size - (s.buffer.length - s.next))
        (overwrite s.result (p + insertSize.toNat) (s.buffer.drop s.next))
        (p + (s.buffer.length - s.next) + insertSize.toNat) = _ :=
      copyInto_of_le (by omega) (by rw [hlen1]; omega)
    have hlen2 := length_of_copyInto hcopy2
    rw [List.drop_zero] at hcopy2 hlen2
    rw [if_pos hlt, if_pos hlen]
    simp only [hrest2, hcopy1, hcopy2, Option.bind_eq_bind, Option.bind_some]
    refine ⟨_, rfl, ⟨hdata2, Or.inl ?_, ?_⟩, rfl⟩
    · rw [Nat.succ_mul]
      dsimp only
      omega
    · rw [hlen2, hlen1, hresult]
  · have hcopy : copyInto s.buffer s.next size s.result (p + insertSize.toNat) = _ :=
      copyInto_of_le (by omega) hroom
    rw [if_neg hlt, if_neg (by omega)]
    simp only [hcopy, Option.bind_eq_bind, Option.bind_some]
    refine ⟨_, rfl, ⟨Nat.le_of_not_lt hlt, ?_, ?_⟩, by rw [List.drop_drop]⟩
    · rw [Nat.succ_mul]
      dsimp only
      omega
    · rw [length_of_copyInto hcopy, hresult]

/-- The iterations from `x` on do what they do on unbounded sizes. -/
theorem InsertInv.insertLoop (h : InsertInv insertSize sliceSize dataSize elements data2 x s) (left : ℕ)
    (hx : x + left = elements.toNat) :
    insertLoop insertSize sliceSize dataSize elements data2 left x s =
      some (concatLoop insertSize.toNat sliceSize.toNat dataSize.toNat elements.toNat data2 left x
        (s.buffer.drop s.next) s.result) := by
  induction left generalizing x s with
  | zero => rfl
  | succ left ih =>
    obtain ⟨s', hstep, hinv, heq⟩ := h.insertSlice hsizes (x := x) (by omega) left
    have hint : checkInt (x + 1) = some (x + 1 : ℤ) := by
      have hcount := hsizes.count
      have hfit := hsizes.fit.2
      exact checkInt_of_fits (by omega) (by omega)
    rw [Stream.insertLoop, hstep, heq]
    simp only [hint, Option.bind_eq_bind, Option.bind_some]
    exact ih hinv (by omega)

end Insert

lemma toNat_elementsOf {sliceSize : UInt64} (hq : 0 < sliceSize.toNat) (dataSize : UInt64) :
    (elementsOf dataSize sliceSize).toNat = sliceCount sliceSize.toNat dataSize.toNat := by
  have hdata := UInt64.toNat_lt dataSize
  have hle : sliceCount sliceSize.toNat dataSize.toNat ≤ dataSize.toNat := by
    have hlt := sliceCount_mul_lt hq dataSize.toNat
    rcases Nat.eq_zero_or_pos dataSize.toNat with h0 | h0
    · rw [h0, sliceCount_zero]
    · by_contra hgt
      have hmul : (dataSize.toNat + 1) * sliceSize.toNat ≤
          sliceCount sliceSize.toNat dataSize.toNat * sliceSize.toNat := Nat.mul_le_mul_right _ (by omega)
      have hself : dataSize.toNat ≤ dataSize.toNat * sliceSize.toNat := Nat.le_mul_of_pos_right _ hq
      rw [Nat.succ_mul] at hmul
      omega
  have hzero : dataSize % sliceSize ≠ 0 ↔ dataSize.toNat % sliceSize.toNat ≠ 0 := by
    rw [Ne, ← UInt64.toNat_inj, UInt64.toNat_mod]
    rfl
  rw [elementsOf, UInt64.toNat_add, UInt64.toNat_div, apply_ite UInt64.toNat]
  simp only [hzero]
  change (_ + if _ then 1 else 0) % _ = _
  rw [div_add_ite_eq_sliceCount hq, Nat.mod_eq_of_lt (by omega)]

lemma toNat_dataSize {data1 data2 : Str} (h : (data1 ++ data2).length < 2 ^ 64) :
    (UInt64.ofNat data1.length + UInt64.ofNat data2.length).toNat = (data1 ++ data2).length := by
  rw [List.length_append] at h ⊢
  rw [UInt64.toNat_add, UInt64.toNat_ofNat', UInt64.toNat_ofNat', ← Nat.add_mod, Nat.mod_eq_of_lt h]

/-- On sizes that fit, `concat_and_insert` does what it does on unbounded ones. -/
theorem concatAndInsert64_eq {insertSize sliceSize : UInt64} (hq : 0 < sliceSize.toNat) {data1 data2 : Str}
    (hfit : SizesFit insertSize.toNat sliceSize.toNat (data1 ++ data2).length) :
    concatAndInsert64 insertSize sliceSize data1 data2 =
      concatAndInsert insertSize.toNat sliceSize.toNat data1 data2 := by
  have hne : sliceSize ≠ 0 := by
    rintro rfl
    exact absurd hq (by decide)
  have hlt := hfit.1
  have hdata := toNat_dataSize (show (data1 ++ data2).length < 2 ^ 64 by omega)
  have helements := toNat_elementsOf hq (UInt64.ofNat data1.length + UInt64.ofNat data2.length)
  rw [concatAndInsert64, concatAndInsert]
  simp only [modSize_of_pos hq, divSize_of_pos hq, if_neg hne, Option.bind_eq_bind, Option.bind_some,
    div_add_ite_eq_sliceCount hq, ← List.length_append]
  generalize UInt64.ofNat data1.length + UInt64.ofNat data2.length = dataSize at *
  generalize elementsOf dataSize sliceSize = elements at *
  rw [← hdata] at hfit hlt ⊢
  rw [← helements] at hlt ⊢
  have hsize : (elements * insertSize + dataSize).toNat = elements.toNat * insertSize.toNat + dataSize.toNat := by
    rw [UInt64.toNat_add, UInt64.toNat_mul, Nat.mod_add_mod, Nat.mod_eq_of_lt (by omega)]
  have hsizes : InsertSizes insertSize sliceSize dataSize elements := ⟨hq, helements, hfit⟩
  rw [resizeZero, hsize, if_pos hlt, Option.bind_some]
  refine InsertInv.insertLoop hsizes ⟨Nat.zero_le _, Or.inr ?_, ?_⟩ elements.toNat (Nat.zero_add _)
  · rw [hdata, List.length_append]
    dsimp only
    omega
  · exact List.length_replicate

/-! ### Sizes that do not fit -/

lemma length_of_insertSlice {insertSize sliceSize dataSize elements : UInt64} {data2 : Str} {x : ℕ}
    {s s' : InsertState} (h : insertSlice insertSize sliceSize dataSize elements data2 x s = some s') :
    s'.result.length = s.result.length := by
  rw [insertSlice] at h
  split_ifs at h
  all_goals
    obtain ⟨out, hout, h⟩ := Option.bind_eq_some_iff.mp h
  · obtain ⟨out2, hout2, h⟩ := Option.bind_eq_some_iff.mp h
    rw [← Option.some.inj h, length_of_copyInto hout2, length_of_copyInto hout]
  · rw [← Option.some.inj h, length_of_copyInto hout]
  · obtain ⟨out2, hout2, h⟩ := Option.bind_eq_some_iff.mp h
    rw [← Option.some.inj h, length_of_copyInto hout2, length_of_copyInto hout]
  · rw [← Option.some.inj h, length_of_copyInto hout]

lemma length_of_insertLoop {insertSize sliceSize dataSize elements : UInt64} {data2 : Str} {left x : ℕ}
    {s : InsertState} {result : Str}
    (h : insertLoop insertSize sliceSize dataSize elements data2 left x s = some result) :
    result.length = s.result.length := by
  induction left generalizing x s with
  | zero => rw [← Option.some.inj h]
  | succ left ih =>
    obtain ⟨s', hstep, h⟩ := Option.bind_eq_some_iff.mp h
    obtain ⟨_, -, h⟩ := Option.bind_eq_some_iff.mp h
    rw [ih h, length_of_insertSlice hstep]

lemma length_lt_of_concatAndInsert64 {insertSize sliceSize : UInt64} {data1 data2 result : Str}
    (h : concatAndInsert64 insertSize sliceSize data1 data2 = some result) : result.length < 2 ^ 63 := by
  rw [concatAndInsert64] at h
  dsimp only at h
  split_ifs at h
  obtain ⟨blank, hblank, h⟩ := Option.bind_eq_some_iff.mp h
  obtain ⟨hsize, rfl⟩ := of_ite_some hblank
  rw [length_of_insertLoop h]
  exact (List.length_replicate ..).trans_lt hsize

/-- Where the counter of the loop does not hold the number of slices, it overflows. -/
lemma insertLoop_eq_none {insertSize sliceSize dataSize elements : UInt64} {data2 : Str} {left x : ℕ}
    (hleft : 0 < left) (hx : 2 ^ 31 ≤ x + left) (s : InsertState) :
    insertLoop insertSize sliceSize dataSize elements data2 left x s = none := by
  induction left generalizing x s with
  | zero => cases hleft
  | succ left ih =>
    rw [insertLoop]
    rcases insertSlice insertSize sliceSize dataSize elements data2 x s with _ | s'
    · rfl
    · by_cases hint : FitsInt (x + 1)
      · rw [checkInt, if_pos hint]
        apply ih
        · have := hint.2
          omega
        · omega
      · rw [checkInt, if_neg hint]
        rfl

/-! ### When the result is exact -/

/-- Behind every `ins` zero bytes one slice of the data. -/
lemma inserted_flatMap {ins q : ℕ} (hq : 0 < q) (data1 data2 : Str) :
    Inserted ins q data1 data2 ((slices q (data1 ++ data2)).flatMap fun s => List.replicate ins 0 ++ s) := by
  have hslices := slices_insert hq (List.replicate ins (0 : UInt8)) (data1 ++ data2)
  rw [List.length_replicate] at hslices
  have hflatten := flatten_slices hq (data1 ++ data2)
  refine ⟨?_, ?_, ?_⟩
  · rw [length_flatMap_append, length_slices, List.length_replicate, hflatten]
  · rw [hslices, List.flatMap_map]
    simp only [List.drop_left' (List.length_replicate ..), List.flatMap_id']
    exact hflatten
  · intro s hs b hb
    rw [hslices] at hs
    obtain ⟨t, -, rfl⟩ := List.mem_map.mp hs
    rw [List.take_left' (List.length_replicate ..)] at hb
    exact List.eq_of_mem_replicate hb

/-- **`concat_and_insert` is exact, and stays inside its buffers, where its sizes fit** and nowhere else. -/
theorem concatAndInsert_exact_iff (insertSize sliceSize : UInt64) (hslice : 0 < sliceSize) (data1 data2 : Str) :
    (∃ result, concatAndInsert64 insertSize sliceSize data1 data2 = some result ∧
        Inserted insertSize.toNat sliceSize.toNat data1 data2 result) ↔
      SizesFit insertSize.toNat sliceSize.toNat (data1 ++ data2).length := by
  have hq : 0 < sliceSize.toNat := UInt64.lt_iff_toNat_lt.mp hslice
  constructor
  · rintro ⟨result, hrun, hinserted⟩
    have hlt := length_lt_of_concatAndInsert64 hrun
    rw [hinserted.length] at hlt
    refine ⟨hlt, ?_⟩
    by_contra hge
    have hdata := toNat_dataSize (show (data1 ++ data2).length < 2 ^ 64 by omega)
    have helements := toNat_elementsOf hq (UInt64.ofNat data1.length + UInt64.ofNat data2.length)
    rw [hdata] at helements
    rw [concatAndInsert64] at hrun
    dsimp only at hrun
    split_ifs at hrun
    obtain ⟨blank, -, hrun⟩ := Option.bind_eq_some_iff.mp hrun
    rw [insertLoop_eq_none (by omega) (by omega)] at hrun
    cases hrun
  · intro hfit
    refine ⟨_, ?_, inserted_flatMap hq data1 data2⟩
    rw [concatAndInsert64_eq hq hfit, concatAndInsert_eq hq]

theorem concatAndInsert_exact_iff_two :
    (∃ result, concatAndInsert64 2 3 [1, 2, 3, 4] [5] = some result ∧ Inserted 2 3 [1, 2, 3, 4] [5] result) ↔
      SizesFit 2 3 5 :=
  concatAndInsert_exact_iff 2 3 (by decide) [1, 2, 3, 4] [5]

/-- With an `insert_size` of `2 ^ 63` the size of the result wraps around to two bytes, and the first copy already
goes outside. -/
theorem concatAndInsert_wraps :
    ¬ ∀ (insertSize sliceSize : UInt64), 0 < sliceSize → ∀ data1 data2 : Str,
      ∃ result, concatAndInsert64 insertSize sliceSize data1 data2 = some result ∧
        Inserted insertSize.toNat sliceSize.toNat data1 data2 result := by
  intro h
  obtain ⟨result, hrun, -⟩ := h (2 ^ 63) 1 (by decide) [97] [98]
  have hnone : concatAndInsert64 (2 ^ 63) 1 [97] [98] = none := by decide +kernel
  rw [hnone] at hrun
  cases hrun

end MidnightSun.Stream

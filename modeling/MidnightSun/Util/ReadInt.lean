import Mathlib.Tactic.Linarith
import Mathlib.Tactic.Ring
import MidnightSun.Lib.Bytes
import MidnightSun.Lib.Digits
import MidnightSun.Util.Arith
import MidnightSun.Util.Decimal
import MidnightSun.Util.FromView
import MidnightSun.Util.Hex

/-!
# Reading an `int` (src/utility.h, src/config.cpp)

`from_chars` adds up digits and `from_hex` stores a byte for every two digits, and neither asks whether there is room
for the result.  Here both are `none` where an `int64_t` overflows or a byte is stored outside the buffer.
-/

namespace MidnightSun.Util

open Lib

/-! ### The functions -/

/-- `ch - '0'`; `char` is signed. -/
def digitValue (ch : UInt8) : ℤ := ch.toInt8.toInt - 48

/-- The loop of `from_chars` over the reversed text; the last character of it may be a sign. -/
def sumLoop (res mul : ℤ) : List UInt8 → Option ℤ
  | [] => some 0
  | [c] => if c = 45 then int64 (-res) else (int64 (digitValue c * mul)).bind fun term => int64 (res + term)
  | c :: cs =>
    (int64 (digitValue c * mul)).bind fun term =>
      (int64 (res + term)).bind fun res =>
        (int64 (mul * 10)).bind fun mul => sumLoop res mul cs

/-- `from_view`. -/
def fromView64 (number : Str) : Option ℤ := sumLoop 0 1 number.reverse

/-- `from_hex<int>`; `none` is a byte outside the four of `buf`. -/
def fromHexInt (hex : Str) : Option Int32 :=
  if 4 < hex.countP isConvertable / 2 then none else some (Int32.ofNat (leValue (fromHex 4 hex false)))

/-- A text without its quotes. -/
def unquoted (val : Str) : Str :=
  if 2 ≤ val.length ∧ val.head? = some 34 then (val.drop 1).take (val.length - 2) else val

/-- What `int_f` and `list_int_f` make of a text. -/
def readInt (val : Str) : Option Int32 :=
  let val := unquoted val
  if str "0x" <+: val then fromHexInt (val.drop 2) else (fromView64 val).map Int32.ofInt

/-! ### What a text stands for -/

/-- The number that digits stand for. -/
def number (digits : Str) : ℤ := digits.foldl (fun n ch => 10 * n + digitValue ch) 0

/-- The number that a text stands for that may start with a sign. -/
def signedNumber : Str → ℤ
  | [] => 0
  | ch :: digits => if ch = 45 then -number digits else number (ch :: digits)

/-- The digit `ch` fits at its place before `digits`, and so does the number from there on. -/
def PlaceFits (before : Str) (ch : UInt8) (digits : Str) : Prop :=
  if before = [] ∧ ch = 45 then InInt64 (-number digits)
  else InInt64 (digitValue ch * 10 ^ digits.length) ∧ InInt64 (number (ch :: digits))

/-- A text of at most 19 characters whose digits all fit. -/
def DecimalFits (text : Str) : Prop :=
  text.length ≤ 19 ∧ ∀ before ch digits, text = before ++ ch :: digits → PlaceFits before ch digits

/-- No more than nine digits and letters. -/
def HexFits (hex : Str) : Prop := hex.countP isConvertable ≤ 9

/-- There is room for the number in a text. -/
def Fits (text : Str) : Prop :=
  if str "0x" <+: unquoted text then HexFits ((unquoted text).drop 2) else DecimalFits (unquoted text)

/-! ### The sum of the digits -/

lemma int64_eq_some_iff {x y : ℤ} : int64 x = some y ↔ InInt64 x ∧ y = x := by
  rw [int64]
  split_ifs with h
  · rw [Option.some.injEq, eq_comm]
    exact (and_iff_right h).symm
  · exact iff_of_false (by simp) fun h' => h h'.1

lemma bind_int64_eq_some_iff {α : Type} {x : ℤ} {f : ℤ → Option α} {y : α} :
    (int64 x).bind f = some y ↔ InInt64 x ∧ f x = some y := by
  simp only [Option.bind_eq_some_iff, int64_eq_some_iff]
  constructor
  · rintro ⟨_, ⟨hx, rfl⟩, hf⟩
    exact ⟨hx, hf⟩
  · rintro ⟨hx, hf⟩
    exact ⟨x, ⟨hx, rfl⟩, hf⟩

lemma number_cons (ch : UInt8) (s : Str) : number (ch :: s) = digitValue ch * 10 ^ s.length + number s :=
  digitsValue_cons 10 digitValue ch s

lemma number_append (s t : Str) : number (s ++ t) = number s * 10 ^ t.length + number t :=
  digitsValue_append 10 digitValue s t

lemma inInt64_pow_iff {n : ℕ} : InInt64 (10 ^ n) ↔ n ≤ 18 := by
  constructor
  · rintro ⟨-, hlt⟩
    by_contra hn
    have hle : (10 : ℤ) ^ 19 ≤ 10 ^ n := pow_le_pow_right₀ (by decide) (by omega)
    omega
  · intro hn
    have hle : (10 : ℤ) ^ n ≤ 10 ^ 18 := pow_le_pow_right₀ (by decide) hn
    have hpos : (0 : ℤ) < 10 ^ n := pow_pos (by decide) n
    exact ⟨by omega, by omega⟩

lemma sumLoop_cons {cs : List UInt8} (h : cs ≠ []) (res mul : ℤ) (c : UInt8) :
    sumLoop res mul (c :: cs) = (int64 (digitValue c * mul)).bind fun term =>
      (int64 (res + term)).bind fun res => (int64 (mul * 10)).bind fun mul => sumLoop res mul cs := by
  cases cs with
  | nil => exact absurd rfl h
  | cons c' cs => rfl

/-- The places from `c` on are its own and those before it. -/
lemma forall_places_iff {front done : Str} {c : UInt8} {P : Str → UInt8 → Str → Prop} :
    (∀ before ch digits, front ++ c :: done = before ++ ch :: digits → done.length ≤ digits.length →
      P before ch digits) ↔ P front c done ∧
    ∀ before ch digits, front ++ c :: done = before ++ ch :: digits → (c :: done).length ≤ digits.length →
      P before ch digits := by
  constructor
  · intro h
    refine ⟨h front c done rfl (Nat.le_refl _), fun before ch digits heq hle => h before ch digits heq ?_⟩
    rw [List.length_cons] at hle
    omega
  · rintro ⟨hc, hbefore⟩ before ch digits heq hle
    by_cases hlength : digits.length = done.length
    · obtain ⟨rfl, htail⟩ := List.append_inj' heq (by simp [hlength])
      obtain ⟨rfl, rfl⟩ := List.cons.inj htail
      exact hc
    · refine hbefore before ch digits heq ?_
      rw [List.length_cons]
      omega

lemma no_places_before {done : Str} {c : UInt8} {P : Str → UInt8 → Str → Prop} :
    ∀ before ch digits, [] ++ c :: done = before ++ ch :: digits → (c :: done).length ≤ digits.length →
      P before ch digits := by
  intro before ch digits heq hle
  have hlength := congrArg List.length heq
  simp only [List.nil_append, List.length_append, List.length_cons] at hlength hle
  omega

/-- The loop, with the digits of `done` summed up and those of `l` still to come. -/
lemma sumLoop_eq_some_iff {l : List UInt8} (hl : l ≠ []) {done : Str} (hdone : done.length ≤ 18) {x : ℤ} :
    sumLoop (number done) (10 ^ done.length) l = some x ↔ l.length + done.length ≤ 19 ∧
      (∀ before ch digits, l.reverse ++ done = before ++ ch :: digits → done.length ≤ digits.length →
        PlaceFits before ch digits) ∧ x = signedNumber (l.reverse ++ done) := by
  induction l generalizing done with
  | nil => exact absurd rfl hl
  | cons c cs ih =>
    have hsum : number done + digitValue c * 10 ^ done.length = number (c :: done) := by
      rw [number_cons, add_comm]
    rw [List.reverse_cons, List.append_assoc, List.singleton_append, forall_places_iff, List.length_cons]
    rcases cs with _ | ⟨c', cs⟩
    · have hsigned : signedNumber ([] ++ c :: done) = if c = 45 then -number done else number (c :: done) := rfl
      have hlength : 0 + 1 + done.length ≤ 19 := by omega
      rw [List.reverse_nil, List.length_nil, hsigned, sumLoop, and_iff_right hlength, and_iff_left no_places_before,
        PlaceFits]
      by_cases hsign : c = 45
      · rw [if_pos hsign, if_pos hsign, if_pos ⟨rfl, hsign⟩]
        exact int64_eq_some_iff
      · rw [if_neg hsign, if_neg hsign, if_neg fun h => hsign h.2, bind_int64_eq_some_iff, int64_eq_some_iff, hsum,
          and_assoc]
    · have hfront : (c' :: cs).reverse ≠ [] := by simp
      have hlength : (c' :: cs).length + 1 + done.length = (c' :: cs).length + (c :: done).length := by
        rw [List.length_cons (a := c)]
        omega
      rw [sumLoop_cons (List.cons_ne_nil c' cs), bind_int64_eq_some_iff, bind_int64_eq_some_iff,
        bind_int64_eq_some_iff, hsum, ← pow_succ, inInt64_pow_iff, ← List.length_cons (a := c), hlength, PlaceFits,
        if_neg fun h => hfront h.1]
      by_cases hroom : (c :: done).length ≤ 18
      · rw [ih (List.cons_ne_nil c' cs) hroom]
        tauto
      · refine iff_of_false (fun h => hroom h.2.2.1) fun h => hroom ?_
        have hle := h.1
        rw [List.length_cons (a := c')] at hle
        omega

/-- `from_view` returns the number that the text stands for, whenever there is room for it. -/
theorem fromView64_eq_some_iff {text : Str} {x : ℤ} :
    fromView64 text = some x ↔ DecimalFits text ∧ x = signedNumber text := by
  by_cases hnil : text = []
  · subst hnil
    change some 0 = some x ↔ _
    rw [Option.some.injEq, eq_comm]
    exact (and_iff_right ⟨Nat.zero_le 19, fun before ch digits h => absurd h (by simp)⟩).symm
  · have hdone : ([] : Str).length ≤ 18 := Nat.zero_le 18
    have hloop := sumLoop_eq_some_iff (l := text.reverse) (by simpa using hnil) hdone (x := x)
    rw [List.reverse_reverse, List.append_nil, List.length_reverse] at hloop
    refine hloop.trans ?_
    simp only [List.length_nil, Nat.add_zero, Nat.zero_le, forall_const, DecimalFits, and_assoc]

/-! ### Arithmetic that wraps -/

lemma digitOf_eq (ch : UInt8) : digitOf ch = BitVec.ofInt 64 (digitValue ch) := by
  rw [digitOf, digitValue, BitVec.sub_eq_add_neg, Int.sub_eq_add_neg, BitVec.ofInt_add]
  congr 1

/-- As long as nothing overflows, the loop on 64 bits computes the same sum. -/
lemma fromCharsLoop_of_sumLoop {res mul x : ℤ} {l : Str} (h : sumLoop res mul l = some x) :
    fromCharsLoop (BitVec.ofInt 64 res) (BitVec.ofInt 64 mul) l = BitVec.ofInt 64 x := by
  induction l generalizing res mul with
  | nil =>
    obtain rfl := Option.some.inj h
    rfl
  | cons c cs ih =>
    cases cs with
    | nil =>
      rw [sumLoop] at h
      rw [fromCharsLoop]
      split_ifs at h ⊢
      · obtain ⟨-, rfl⟩ := int64_eq_some_iff.mp h
        exact BitVec.ofInt_neg.symm
      · obtain ⟨-, h⟩ := bind_int64_eq_some_iff.mp h
        obtain ⟨-, rfl⟩ := int64_eq_some_iff.mp h
        rw [digitOf_eq, ← BitVec.ofInt_mul, ← BitVec.ofInt_add]
    | cons d ds =>
      have hne : d :: ds = [] → False := List.cons_ne_nil d ds
      rw [sumLoop.eq_3 _ _ _ _ hne, bind_int64_eq_some_iff, bind_int64_eq_some_iff, bind_int64_eq_some_iff] at h
      obtain ⟨-, -, -, h⟩ := h
      have hrec := ih h
      rw [BitVec.ofInt_add, BitVec.ofInt_mul, BitVec.ofInt_mul, ← digitOf_eq] at hrec
      rw [fromCharsLoop.eq_3 _ _ _ _ hne]
      exact hrec

theorem fromView_of_fromView64 {text : Str} {x : ℤ} (h : fromView64 text = some x) :
    fromView text = BitVec.ofInt 64 x := fromCharsLoop_of_sumLoop h

/-! ### Decimal numbers -/

lemma digitValue_digit {d : ℕ} (h : d < 10) : digitValue (digit d) = d := by
  have hall : ∀ d < 10, digitValue (digit d) = (d : ℤ) := by decide
  exact hall d h

lemma number_digits {fuel n : ℕ} (h : n < fuel) : number (digits fuel n).reverse = n := by
  induction fuel generalizing n with
  | zero => omega
  | succ fuel ih =>
    have hlast : number [digit (n % 10)] = (n % 10 : ℕ) := by
      rw [number_cons, digitValue_digit (Nat.mod_lt n (by decide))]
      simp [number]
    rw [digits, List.reverse_cons, number_append, hlast]
    split_ifs with h0
    · rw [List.reverse_nil]
      simp only [number, List.foldl_nil]
      omega
    · rw [ih (by omega)]
      simp only [List.length_singleton]
      omega

lemma length_digits_le {fuel n k : ℕ} (hk : n < 10 ^ (k + 1)) : (digits fuel n).length ≤ k + 1 := by
  induction fuel generalizing n k with
  | zero => exact Nat.zero_le _
  | succ fuel ih =>
    rw [digits, List.length_cons]
    split_ifs with h0
    · exact Nat.succ_le_succ (Nat.zero_le k)
    · cases k with
      | zero => omega
      | succ k =>
        have hdiv : n / 10 < 10 ^ (k + 1) := by
          rw [pow_succ] at hk
          omega
        exact Nat.succ_le_succ (ih hdiv)

lemma number_bounds {s : Str} (h : ∀ c ∈ s, ∃ d < 10, c = digit d) : 0 ≤ number s ∧ number s < 10 ^ s.length := by
  induction s with
  | nil => exact ⟨le_refl _, by decide⟩
  | cons c s ih =>
    rw [List.forall_mem_cons] at h
    obtain ⟨⟨d, hd, rfl⟩, hs⟩ := h
    obtain ⟨hpos, hlt⟩ := ih hs
    have hplace : (0 : ℤ) < 10 ^ s.length := pow_pos (by decide) _
    rw [number_cons, digitValue_digit hd, List.length_cons, pow_succ]
    have hle : (d : ℤ) * 10 ^ s.length ≤ 9 * 10 ^ s.length :=
      Int.mul_le_mul_of_nonneg_right (by omega) (le_of_lt hplace)
    constructor
    · exact Int.add_nonneg (Int.mul_nonneg (Int.natCast_nonneg d) (le_of_lt hplace)) hpos
    · linarith

/-- There is room for up to 18 digits, with or without a sign. -/
lemma decimalFits_of_digits {sign s : Str} (hsign : sign = [] ∨ sign = [45]) (hs : ∀ c ∈ s, ∃ d < 10, c = digit d)
    (hlength : s.length ≤ 18) : DecimalFits (sign ++ s) := by
  have hroom : ∀ t : Str, (∀ c ∈ t, ∃ d < 10, c = digit d) → t.length ≤ 18 → 0 ≤ number t ∧ number t < 10 ^ 18 := by
    intro t ht hle
    obtain ⟨hpos, hlt⟩ := number_bounds ht
    exact ⟨hpos, hlt.trans_le (pow_le_pow_right₀ (by decide) hle)⟩
  have hplaces : ∀ before ch digits, s = before ++ ch :: digits → InInt64 (digitValue ch * 10 ^ digits.length) ∧
      InInt64 (number (ch :: digits)) := by
    rintro before ch digits rfl
    have htail : ∀ c ∈ ch :: digits, ∃ d < 10, c = digit d := fun c hc => hs c (List.mem_append_right _ hc)
    rw [List.length_append] at hlength
    obtain ⟨hpos, hlt⟩ := hroom (ch :: digits) htail (by omega)
    obtain ⟨hrest, -⟩ := number_bounds fun c hc => htail c (List.mem_cons_of_mem _ hc)
    obtain ⟨d, hd, rfl⟩ := htail ch List.mem_cons_self
    have hterm : 0 ≤ digitValue (digit d) * 10 ^ digits.length := by
      rw [digitValue_digit hd]
      exact Int.mul_nonneg (Int.natCast_nonneg d) (le_of_lt (pow_pos (by decide) _))
    rw [number_cons] at hlt hpos ⊢
    exact ⟨⟨by omega, by omega⟩, by omega, by omega⟩
  have hwhole := hroom s hs hlength
  refine ⟨?_, fun before ch digits heq => ?_⟩
  · rcases hsign with rfl | rfl
    · rw [List.nil_append]
      omega
    · rw [List.length_append, List.length_singleton]
      omega
  · rw [PlaceFits]
    rcases hsign with rfl | rfl
    · rw [List.nil_append] at heq
      rw [if_neg]
      · exact hplaces before ch digits heq
      · rintro ⟨rfl, rfl⟩
        obtain ⟨d, hd, hminus⟩ := hs 45 (heq ▸ List.mem_cons_self)
        exact digit_ne_minus hd hminus.symm
    · cases before with
      | nil =>
        obtain ⟨rfl, hrest⟩ := List.cons.inj heq
        obtain rfl : s = digits := hrest
        rw [if_pos ⟨rfl, rfl⟩]
        exact ⟨by omega, by omega⟩
      | cons b before =>
        obtain ⟨rfl, hrest⟩ := List.cons.inj heq
        rw [if_neg fun h => List.cons_ne_nil _ _ h.1]
        exact hplaces before ch digits hrest

/-- `from_view` reads an `int` back, and nothing overflows. -/
theorem fromView64_decimal (n : Int32) : fromView64 (decimal n.toInt) = some n.toInt := by
  have hlow := n.le_toInt
  have hhigh := n.toInt_lt
  have hdigits : ∀ c ∈ (digits (n.toInt.natAbs + 1) n.toInt.natAbs).reverse, ∃ d < 10, c = digit d :=
    fun c hc => mem_digits (List.mem_reverse.mp hc)
  have hlength : (digits (n.toInt.natAbs + 1) n.toInt.natAbs).reverse.length ≤ 18 := by
    have hle : (digits (n.toInt.natAbs + 1) n.toInt.natAbs).length ≤ 9 + 1 := length_digits_le (by omega)
    rw [List.length_reverse]
    omega
  have hnumber := number_digits (Nat.lt_succ_self n.toInt.natAbs)
  refine fromView64_eq_some_iff.mpr ⟨decimalFits_of_digits ?_ hdigits hlength, ?_⟩
  · split_ifs
    · exact Or.inr rfl
    · exact Or.inl rfl
  · rw [decimal]
    generalize (digits (n.toInt.natAbs + 1) n.toInt.natAbs).reverse = s at *
    split_ifs with hneg
    · change n.toInt = -number s
      omega
    · rw [List.nil_append]
      cases s with
      | nil =>
        change (0 : ℤ) = n.toInt.natAbs at hnumber
        change n.toInt = 0
        omega
      | cons c s =>
        obtain ⟨d, hd, rfl⟩ := hdigits c List.mem_cons_self
        rw [signedNumber, if_neg (digit_ne_minus hd), hnumber]
        omega

/-! ### Hexadecimal numbers -/

/-- A hexadecimal digit of either case. -/
def isHexDigit (c : UInt8) : Bool := (48 ≤ c && c ≤ 57) || (97 ≤ c && c ≤ 102) || (65 ≤ c && c ≤ 70)

/-- What a hexadecimal digit stands for. -/
def hexDigit (c : UInt8) : ℕ := if c ≤ 57 then c.toNat - 48 else if c ≤ 70 then c.toNat - 55 else c.toNat - 87

/-- The number that hexadecimal digits stand for. -/
def hexNumber (digits : Str) : ℕ := digits.foldl (fun n c => 16 * n + hexDigit c) 0

lemma isConvertable_of_isHexDigit {c : UInt8} (h : isHexDigit c = true) :
    isConvertable c = true ∧ (convert c).toNat = hexDigit c ∧ hexDigit c < 16 := by
  have hall : ∀ n < 256, isHexDigit (UInt8.ofNat n) = true → isConvertable (UInt8.ofNat n) = true ∧
      (convert (UInt8.ofNat n)).toNat = hexDigit (UInt8.ofNat n) ∧ hexDigit (UInt8.ofNat n) < 16 := by
    decide +kernel
  have hc := hall c.toNat c.toNat_lt
  rw [UInt8.ofNat_toNat] at hc
  exact hc h

lemma toNat_pair {l r : UInt8} (hl : l.toNat < 16) (hr : r.toNat < 16) :
    (l <<< 4 ||| r).toNat = 16 * l.toNat + r.toNat := by
  have hall : ∀ m < 16, ∀ n < 16, (UInt8.ofNat m <<< 4 ||| UInt8.ofNat n).toNat = 16 * m + n := by decide +kernel
  have hlr := hall l.toNat hl r.toNat hr
  rwa [UInt8.ofNat_toNat, UInt8.ofNat_toNat] at hlr

lemma hexNumber_cons (c : UInt8) (s : Str) : hexNumber (c :: s) = hexDigit c * 16 ^ s.length + hexNumber s :=
  digitsValue_cons 16 hexDigit c s

lemma hexNumber_concat (s : Str) (c : UInt8) : hexNumber (s ++ [c]) = 16 * hexNumber s + hexDigit c :=
  digitsValue_concat 16 hexDigit s c

/-- The bytes are the number of the digits that have a partner, the least byte first. -/
lemma leValue_hexBytes {l : Str} (h : ∀ c ∈ l, isHexDigit c = true) :
    leValue (hexBytes l) = hexNumber (l.take (2 * (l.length / 2))).reverse := by
  induction l using hexBytes.induct with
  | case1 r l ds ih =>
    rw [List.forall_mem_cons, List.forall_mem_cons] at h
    obtain ⟨hr, hl, hds⟩ := h
    obtain ⟨-, hr, hr16⟩ := isConvertable_of_isHexDigit hr
    obtain ⟨-, hl, hl16⟩ := isConvertable_of_isHexDigit hl
    have htake : 2 * ((r :: l :: ds).length / 2) = 2 * (ds.length / 2) + 1 + 1 := by
      rw [List.length_cons, List.length_cons]
      omega
    rw [hexBytes, leValue_cons, ih hds, toNat_pair (hl ▸ hl16) (hr ▸ hr16), hl, hr, htake, List.take_succ_cons,
      List.take_succ_cons, List.reverse_cons, List.reverse_cons, hexNumber_concat, hexNumber_concat]
    omega
  | case2 l hshort =>
    have hlength : 2 * (l.length / 2) = 0 := by
      rcases l with _ | ⟨r, _ | ⟨l, ds⟩⟩
      · rfl
      · rw [List.length_singleton]
      · exact absurd rfl (hshort r l ds)
    rw [hexBytes, hlength]
    · rfl
    · exact hshort

lemma leValue_append_zeros (bytes : List UInt8) (n : ℕ) : leValue (bytes ++ List.replicate n 0) = leValue bytes := by
  induction bytes with
  | nil =>
    induction n with
    | zero => rfl
    | succ n ih =>
      rw [List.nil_append] at ih ⊢
      rw [List.replicate_succ, leValue_cons, ih]
      rfl
  | cons b bytes ih => rw [List.cons_append, leValue_cons, leValue_cons, ih]

/-- `from_hex` reads its digits but for the first of an odd number. -/
theorem fromHexInt_eq {h : Str} (hdigits : ∀ c ∈ h, isHexDigit c = true) (hlength : h.length ≤ 9) :
    fromHexInt h = some (Int32.ofNat (hexNumber (h.drop (h.length % 2)))) := by
  have hall : ∀ c ∈ h, isConvertable c = true := fun c hc => (isConvertable_of_isHexDigit (hdigits c hc)).1
  have hcount : h.countP isConvertable = h.length := List.countP_eq_length.mpr hall
  have hfilter : h.filter isConvertable = h := List.filter_eq_self.mpr hall
  have hrev : ∀ c ∈ h.reverse, isHexDigit c = true := fun c hc => hdigits c (List.mem_reverse.mp hc)
  have hbytes := leValue_hexBytes hrev
  rw [List.length_reverse, List.take_reverse, List.reverse_reverse] at hbytes
  have hdrop : h.length - 2 * (h.length / 2) = h.length % 2 := by omega
  rw [hdrop] at hbytes
  have hbuf : leValue (fromHex 4 h false) = hexNumber (h.drop (h.length % 2)) := by
    rw [fromHex, hfilter, if_neg Bool.false_ne_true, leValue_append_zeros, hbytes]
  rw [fromHexInt, hcount, if_neg (by omega), hbuf]

lemma fromHexInt_congr {hex h : Str} (hfilter : hex.filter isConvertable = h.filter isConvertable) :
    fromHexInt hex = fromHexInt h := by
  rw [fromHexInt, fromHexInt, List.countP_eq_length_filter, List.countP_eq_length_filter, fromHex, fromHex, hfilter]

lemma fromHexInt_eq_none_iff {hex : Str} : fromHexInt hex ≠ none ↔ HexFits hex := by
  rw [fromHexInt, HexFits]
  split_ifs
  · refine iff_of_false (fun h => h rfl) ?_
    omega
  · refine iff_of_true nofun ?_
    omega

/-! ### Reading a text -/

theorem readInt_ne_none_iff {text : Str} : readInt text ≠ none ↔ Fits text := by
  rw [readInt, Fits]
  split_ifs
  · exact fromHexInt_eq_none_iff
  · rw [Ne, Option.map_eq_none_iff, ← Ne, Option.ne_none_iff_exists']
    simp only [fromView64_eq_some_iff, exists_and_left, exists_eq, and_true]

/-- A text that is a number: in decimal, in quotes, or with up to eight hexadecimal digits. -/
inductive Rendering : Str → Int32 → Prop
  | decimal (n : Int32) : Rendering (decimal n.toInt) n
  | quoted (n : Int32) : Rendering (34 :: Util.decimal n.toInt ++ [34]) n
  | hex {n : Int32} {h : Str} : (∀ c ∈ h, isHexDigit c = true) → 1 ≤ h.length → h.length ≤ 8 →
      hexNumber h = n.toInt → Rendering (str "0x" ++ h) n

/-- A hexadecimal number has an even number of digits, or starts with a zero. -/
def Paired (text : Str) : Prop := str "0x" <+: text → Even text.length ∨ text[2]? = some 48

instance : DecidablePred Paired := fun _ => inferInstanceAs (Decidable (_ → _))

lemma decimal_ne_nil (n : ℤ) : decimal n ≠ [] := by
  rw [decimal]
  exact List.append_ne_nil_of_right_ne_nil _ fun h => digits_ne_nil (Nat.lt_succ_self _) (List.reverse_eq_nil_iff.mp h)

lemma unquoted_decimal (n : ℤ) : unquoted (decimal n) = decimal n := by
  rw [unquoted, if_neg]
  rintro ⟨-, hquote⟩
  exact not_mem_decimal (by decide) (by decide) n (List.mem_of_head? hquote)

lemma not_hex_decimal (n : ℤ) : ¬str "0x" <+: decimal n := by
  intro hhex
  exact not_mem_decimal (c := 120) (by decide) (by decide) n (hhex.subset (by decide))

lemma readInt_of_unquoted {text : Str} {n : Int32} (h : unquoted text = decimal n.toInt) : readInt text = some n := by
  rw [readInt, h, if_neg (not_hex_decimal _), fromView64_decimal, Option.map_some, Int32.ofInt_toInt]

lemma unquoted_subset {val : Str} : unquoted val ⊆ val := by
  rw [unquoted]
  split_ifs
  · exact fun c hc => List.mem_of_mem_drop (List.mem_of_mem_take hc)
  · exact List.Subset.refl val

lemma unquoted_quoted {s : Str} : unquoted (34 :: s ++ [34]) = s := by
  rw [unquoted, if_pos ⟨by simp, rfl⟩]
  simp

lemma hexDigit_eq_zero_iff {c : UInt8} (h : isHexDigit c = true) : hexDigit c = 0 ↔ c = 48 := by
  have hall : ∀ n < 256, isHexDigit (UInt8.ofNat n) = true → (hexDigit (UInt8.ofNat n) = 0 ↔ UInt8.ofNat n = 48) := by
    decide +kernel
  have hc := hall c.toNat c.toNat_lt
  rw [UInt8.ofNat_toNat] at hc
  exact hc h

lemma readInt_hex_append {h after : Str} (hdigits : ∀ c ∈ h, isHexDigit c = true) (hlength : h.length ≤ 9)
    (hafter : after.filter isConvertable = []) :
    readInt (str "0x" ++ (h ++ after)) = some (Int32.ofNat (hexNumber (h.drop (h.length % 2)))) := by
  have hunquoted : unquoted (str "0x" ++ (h ++ after)) = str "0x" ++ (h ++ after) := by
    rw [unquoted, if_neg]
    rintro ⟨-, hquote⟩
    have hfirst : some (48 : UInt8) = some 34 := hquote
    exact absurd hfirst (by decide)
  have hfilter : (h ++ after).filter isConvertable = h.filter isConvertable := by
    rw [List.filter_append, hafter, List.append_nil]
  rw [readInt, hunquoted, if_pos (List.prefix_append _ _)]
  exact (fromHexInt_congr hfilter).trans (fromHexInt_eq hdigits hlength)

lemma readInt_hex {h : Str} (hdigits : ∀ c ∈ h, isHexDigit c = true) (hlength : h.length ≤ 9) :
    readInt (str "0x" ++ h) = some (Int32.ofNat (hexNumber (h.drop (h.length % 2)))) := by
  have happend := readInt_hex_append hdigits hlength List.filter_nil
  rwa [List.append_nil] at happend

/-- A number is read from its text, unless a hexadecimal digit that counts has no partner. -/
theorem readInt_eq_iff {text : Str} {n : Int32} (h : Rendering text n) : readInt text = some n ↔ Paired text := by
  cases h with
  | decimal => exact iff_of_true (readInt_of_unquoted (unquoted_decimal _)) fun hhex => absurd hhex (not_hex_decimal _)
  | quoted =>
    refine iff_of_true (readInt_of_unquoted unquoted_quoted) fun hhex => ?_
    exact absurd (List.cons_prefix_cons.mp hhex).1 (by decide)
  | @hex _ h hdigits hpos hlength hnumber =>
    have hlt := n.toInt_lt
    have hread : ∀ k : ℕ, k ≤ hexNumber h → (Int32.ofNat k = n ↔ k = hexNumber h) := by
      intro k hk
      rw [← Int32.toInt_inj, Int32.toInt_ofNat_of_lt (by omega)]
      omega
    rw [readInt_hex hdigits (by omega), Option.some.injEq, Paired, forall_prop_of_true (List.prefix_append _ _)]
    have heven : Even (str "0x" ++ h).length ↔ h.length % 2 = 0 := by
      rw [List.length_append, Nat.even_iff]
      change (2 + h.length) % 2 = 0 ↔ _
      omega
    have hthird : (str "0x" ++ h)[2]? = h[0]? := rfl
    rw [heven, hthird]
    rcases Nat.mod_two_eq_zero_or_one h.length with hmod | hmod
    · rw [hmod]
      exact iff_of_true ((hread _ (Nat.le_refl _)).mpr rfl) (Or.inl rfl)
    · rw [hmod]
      rcases h with _ | ⟨c, t⟩
      · exact absurd hpos (by decide)
      · have hcons := hexNumber_cons c t
        have hpow : 0 < 16 ^ t.length := Nat.pow_pos (by decide)
        rw [List.drop_one, List.tail_cons, hread _ (by omega), List.getElem?_cons_zero, Option.some.injEq,
          ← hexDigit_eq_zero_iff (hdigits c List.mem_cons_self)]
        constructor
        · intro heq
          have hzero : hexDigit c * 16 ^ t.length = 0 := by omega
          exact Or.inr ((Nat.mul_eq_zero.mp hzero).resolve_right (Nat.ne_of_gt hpow))
        · rintro (hfalse | hzero)
          · exact absurd hfalse (by decide)
          · rw [hcons, hzero, Nat.zero_mul, Nat.zero_add]

end MidnightSun.Util

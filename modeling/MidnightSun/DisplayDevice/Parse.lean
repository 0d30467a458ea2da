import Mathlib.Tactic.Ring
import MidnightSun.Boost.PropertyTree
import MidnightSun.Lib.Digits
import MidnightSun.Lib.Trim

/-!
# Display modes as text (src/display_device.cpp)

`parse_resolution_string` and `parse_refresh_rate_string` set an output and say whether they succeed.  A refresh rate is
kept as a fraction, so that it can be the number that is written.
-/

namespace MidnightSun.DisplayDevice

open Lib

/-- `Resolution`. -/
@[ext]
structure Resolution where
  width : UInt32
  height : UInt32
  deriving DecidableEq

/-- `Rational`. -/
structure Rational where
  numerator : UInt32
  denominator : UInt32
  deriving DecidableEq

/-! ### Text -/

def isZero (ch : UInt8) : Bool := ch = 48

/-- `boost::algorithm::trim_copy`. -/
def trimCopy (s : Str) : Str := trim isSpace s

/-- The number that digits stand for. -/
def numberOf (digits : Str) : ℕ := digits.foldl (fun n ch => 10 * n + (ch - 48).toNat) 0

/-- `stou`, of digits; `none` is `std::out_of_range`, which `std::stoul` throws for more than 64 bits. -/
def stou (value : Str) : Option UInt32 :=
  let result := numberOf value
  if 2 ^ 64 ≤ result then none
  else if 2 ^ 32 ≤ result then none
  else some (UInt32.ofNat result)

/-- The pattern `^(\d+)x(\d+)$`. -/
def matchResolution (s : Str) : Option (Str × Str) :=
  let width := s.takeWhile isDigit
  match s.dropWhile isDigit with
  | [] => none
  | ch :: height =>
    if ch = 120 ∧ width ≠ [] ∧ height ≠ [] ∧ ∀ ch ∈ height, isDigit ch then some (width, height) else none

/-- The pattern `^(\d+)(?:\.(\d+))?$`, or `^(\d+)$` without a decimal point. -/
def matchRefreshRate (allowDecimalPoint : Bool) (s : Str) : Option (Str × Option Str) :=
  let whole := s.takeWhile isDigit
  if whole = [] then none
  else
    match s.dropWhile isDigit with
    | [] => some (whole, none)
    | ch :: fraction =>
      if allowDecimalPoint = true ∧ ch = 46 ∧ fraction ≠ [] ∧ ∀ ch ∈ fraction, isDigit ch then
        some (whole, some fraction)
      else none

/-! ### The functions -/

def parseResolutionString (input : Str) (output : Option Resolution) : Bool × Option Resolution :=
  let trimmed := trimCopy input
  match matchResolution trimmed with
  | some (width, height) =>
    match stou width, stou height with
    | some width, some height => (true, some ⟨width, height⟩)
    | _, _ => (false, output)
  | none => if trimmed = [] then (true, none) else (false, output)

section RefreshRate

-- what the conversion of a power of ten gives that does not fit into an `unsigned int`
variable (undefinedCast : ℕ → UInt32)

/-- `static_cast<unsigned int>(std::pow(10, places))`. -/
def denominatorOf (places : ℕ) : UInt32 :=
  if 10 ^ places < 2 ^ 32 then UInt32.ofNat (10 ^ places) else undefinedCast places

/-- The rate of a match, or `std::out_of_range`. -/
def rateOf (whole : Str) (fraction : Option Str) : Option Rational :=
  let trimmed := whole.dropWhile isZero
  let whole := if trimmed = [] then str "0" else trimmed
  let fraction := (fraction.getD []).rdropWhile isZero
  if fraction ≠ [] then (stou (whole ++ fraction)).map fun numerator =>
    ⟨numerator, denominatorOf undefinedCast fraction.length⟩
  else (stou whole).map fun numerator => ⟨numerator, 1⟩

def parseRefreshRateString (allowDecimalPoint : Bool) (input : Str) (output : Option Rational) :
    Bool × Option Rational :=
  let trimmed := trimCopy input
  match matchRefreshRate allowDecimalPoint trimmed with
  | some (whole, fraction) =>
    match rateOf undefinedCast whole fraction with
    | some rate => (true, some rate)
    | none => (false, output)
  | none => if trimmed = [] then (true, none) else (false, output)

end RefreshRate

/-! ### What the texts say -/

/-- Nothing but white space. -/
def Blank (s : Str) : Prop := ∀ ch ∈ s, isSpace ch = true

/-- A number as it is written. -/
def IsNumber (s : Str) : Prop := s ≠ [] ∧ ∀ ch ∈ s, isDigit ch = true

/-- The input is a text between white space. -/
def Says (input text : Str) : Prop := ∃ before after, Blank before ∧ Blank after ∧ input = before ++ text ++ after

/-- A decimal number as it is written, with its fraction if it has one. -/
def IsDecimal (allowDecimalPoint : Bool) (text whole fraction : Str) : Prop :=
  IsNumber whole ∧
    (text = whole ∧ fraction = [] ∨ allowDecimalPoint = true ∧ IsNumber fraction ∧ text = whole ++ 46 :: fraction)

/-- The fraction without the zeros at its end. -/
def significant (fraction : Str) : Str := fraction.rdropWhile isZero

/-- What comes of parsing a refresh rate: a failure changes nothing, blank input and no other gives no rate, what is
accepted is blank or a decimal number whose digits fit into 32 bits, and a rate is the number that is written, as far
as its denominator fits too. -/
structure RateOutcome (allowDecimalPoint : Bool) (input : Str) (output : Option Rational) (r : Bool × Option Rational) :
    Prop where
  unchanged : r.1 = false → r.2 = output
  blank : r = (true, none) ↔ Blank input
  accepted : r.1 = true ↔ Blank input ∨ ∃ text whole fraction, Says input text ∧
    IsDecimal allowDecimalPoint text whole fraction ∧ numberOf (whole ++ significant fraction) < 2 ^ 32
  exact : ∀ rate, r = (true, some rate) → ∃ text whole fraction, Says input text ∧
    IsDecimal allowDecimalPoint text whole fraction ∧ ((significant fraction).length ≤ 9 →
      rate.denominator ≠ 0 ∧
        rate.numerator.toNat * 10 ^ fraction.length = numberOf (whole ++ fraction) * rate.denominator.toNat)

/-- What comes of parsing a resolution: a failure changes nothing, blank input and no other gives no resolution, and a
resolution comes from two numbers that are written with an `x` between them and fit into 32 bits. -/
structure ResolutionOutcome (input : Str) (output : Option Resolution) (r : Bool × Option Resolution) : Prop where
  unchanged : r.1 = false → r.2 = output
  blank : r = (true, none) ↔ Blank input
  exact : ∀ resolution, r = (true, some resolution) ↔ ∃ width height, Says input (width ++ 120 :: height) ∧
    IsNumber width ∧ IsNumber height ∧ resolution.width.toNat = numberOf width ∧
    resolution.height.toNat = numberOf height

/-! ### Numbers -/

lemma numberOf_append (s t : Str) : numberOf (s ++ t) = numberOf s * 10 ^ t.length + numberOf t :=
  digitsValue_append 10 (fun ch : UInt8 => (ch - 48).toNat) s t

lemma numberOf_of_isZero {s : Str} (h : ∀ ch ∈ s, isZero ch = true) : numberOf s = 0 := by
  induction s with
  | nil => rfl
  | cons ch s ih =>
    rw [List.forall_mem_cons] at h
    obtain rfl : ch = 48 := of_decide_eq_true h.1
    rw [numberOf, List.foldl_cons]
    exact ih h.2

lemma numberOf_dropWhile (s : Str) : numberOf (s.dropWhile isZero) = numberOf s := by
  have happ := numberOf_append (s.takeWhile isZero) (s.dropWhile isZero)
  rw [List.takeWhile_append_dropWhile, numberOf_of_isZero fun ch => List.mem_takeWhile_imp, Nat.zero_mul,
    Nat.zero_add] at happ
  exact happ.symm

lemma numberOf_append_significant (whole fraction : Str) :
    numberOf (whole ++ fraction) * 10 ^ (significant fraction).length =
      numberOf (whole ++ significant fraction) * 10 ^ fraction.length := by
  have happ : significant fraction ++ fraction.rtakeWhile isZero = fraction :=
    List.rdropWhile_append_rtakeWhile
  have hzeros : numberOf (fraction.rtakeWhile isZero) = 0 :=
    numberOf_of_isZero fun ch => List.mem_rtakeWhile_imp
  generalize significant fraction = f at *
  generalize fraction.rtakeWhile isZero = zeros at *
  rw [← happ, ← List.append_assoc, numberOf_append (whole ++ f), hzeros, List.length_append, Nat.pow_add]
  ring

lemma stou_eq_some_iff {s : Str} {n : UInt32} : stou s = some n ↔ n.toNat = numberOf s := by
  have hn := n.toNat_lt
  rw [stou]
  split_ifs with h64 h32
  · refine iff_of_false nofun ?_
    omega
  · refine iff_of_false nofun ?_
    omega
  · rw [Option.some.injEq, ← UInt32.toNat_inj, UInt32.toNat_ofNat_of_lt' (Nat.not_le.mp h32), eq_comm]

/-! ### Patterns -/

lemma isSpace_of_isDigit {ch : UInt8} (h : isDigit ch = true) : isSpace ch = false := by
  simp only [isDigit, Bool.and_eq_true, decide_eq_true_eq, UInt8.le_iff_toNat_le] at h
  obtain ⟨h48, -⟩ := h
  have h48 : 48 ≤ ch.toNat := h48
  have h32 : ch ≠ 32 := by
    rintro rfl
    exact absurd h48 (by decide)
  have h13 : ¬ch ≤ 13 := by
    rw [UInt8.le_iff_toNat_le]
    change ¬ch.toNat ≤ 13
    omega
  simp [isSpace, h32, h13]

lemma takeWhile_isDigit {number : Str} (h : ∀ ch ∈ number, isDigit ch = true) (rest : Str)
    (hrest : ∀ ch ∈ rest.head?, isDigit ch = false) :
    (number ++ rest).takeWhile isDigit = number ∧ (number ++ rest).dropWhile isDigit = rest := by
  have hstop : rest.takeWhile isDigit = [] ∧ rest.dropWhile isDigit = rest := by
    cases rest with
    | nil => exact ⟨rfl, rfl⟩
    | cons ch rest =>
      have hch := ne_true_of_eq_false (hrest ch rfl)
      exact ⟨List.takeWhile_cons_of_neg hch, List.dropWhile_cons_of_neg hch⟩
  rw [List.takeWhile_append_of_pos h, List.dropWhile_append_of_pos h, hstop.1, hstop.2, List.append_nil]
  exact ⟨rfl, rfl⟩

lemma isNumber_takeWhile {s : Str} (hne : s.takeWhile isDigit ≠ []) : IsNumber (s.takeWhile isDigit) :=
  ⟨hne, fun _ => List.mem_takeWhile_imp⟩

lemma matchResolution_eq_some_iff {s width height : Str} :
    matchResolution s = some (width, height) ↔ IsNumber width ∧ IsNumber height ∧ s = width ++ 120 :: height := by
  constructor
  · intro h
    have happ := List.takeWhile_append_dropWhile (p := isDigit) (l := s)
    rw [matchResolution] at h
    rcases hdrop : s.dropWhile isDigit with _ | ⟨ch, rest⟩
    · rw [hdrop] at h
      cases h
    · rw [hdrop] at h happ
      dsimp only at h
      split_ifs at h with hchecks
      obtain ⟨rfl, hwidth, hheight, hall⟩ := hchecks
      obtain ⟨rfl, rfl⟩ := Prod.mk.inj (Option.some.inj h)
      exact ⟨isNumber_takeWhile hwidth, ⟨hheight, hall⟩, happ.symm⟩
  · rintro ⟨⟨hwidth, hw⟩, ⟨hheight, hh⟩, rfl⟩
    obtain ⟨htake, hdrop⟩ := takeWhile_isDigit hw (120 :: height) (by
      rintro _ ⟨⟩
      decide)
    rw [matchResolution, htake, hdrop]
    exact if_pos ⟨rfl, hwidth, hheight, hh⟩

lemma matchRefreshRate_eq_some_iff {allow : Bool} {s whole : Str} {fraction : Option Str} :
    matchRefreshRate allow s = some (whole, fraction) ↔ IsNumber whole ∧
      (s = whole ∧ fraction = none ∨
        ∃ f, allow = true ∧ IsNumber f ∧ s = whole ++ 46 :: f ∧ fraction = some f) := by
  constructor
  · intro h
    have happ := List.takeWhile_append_dropWhile (p := isDigit) (l := s)
    rw [matchRefreshRate] at h
    split_ifs at h with hwhole
    rcases hdrop : s.dropWhile isDigit with _ | ⟨ch, rest⟩
    · rw [hdrop] at h happ
      obtain ⟨rfl, rfl⟩ := Prod.mk.inj (Option.some.inj h)
      rw [List.append_nil] at happ
      exact ⟨isNumber_takeWhile hwhole, Or.inl ⟨happ.symm, rfl⟩⟩
    · rw [hdrop] at h happ
      dsimp only at h
      split_ifs at h with hchecks
      obtain ⟨hallow, rfl, hne, hall⟩ := hchecks
      obtain ⟨rfl, rfl⟩ := Prod.mk.inj (Option.some.inj h)
      exact ⟨isNumber_takeWhile hwhole, Or.inr ⟨rest, hallow, ⟨hne, hall⟩, happ.symm, rfl⟩⟩
  · rintro ⟨⟨hwhole, hw⟩, ⟨rfl, rfl⟩ | ⟨f, rfl, ⟨hf, hall⟩, rfl, rfl⟩⟩
    · obtain ⟨htake, hdrop⟩ := takeWhile_isDigit hw [] (by simp)
      rw [List.append_nil] at htake hdrop
      rw [matchRefreshRate, htake, hdrop, if_neg hwhole]
    · obtain ⟨htake, hdrop⟩ := takeWhile_isDigit hw (46 :: f) (by
        rintro _ ⟨⟩
        decide)
      rw [matchRefreshRate, htake, hdrop, if_neg hwhole]
      exact if_pos ⟨rfl, rfl, hf, hall⟩

/-! ### Trimming -/

lemma trimCopy_eq_nil_iff {s : Str} : trimCopy s = [] ↔ Blank s := trim_eq_nil_iff

lemma says_trimCopy (s : Str) : Says s (trimCopy s) := exists_eq_trim isSpace s

/-- The text starts and ends with a digit. -/
def DigitEnds (text : Str) : Prop :=
  text ≠ [] ∧ (∀ ch ∈ text.head?, isDigit ch = true) ∧ ∀ ch ∈ text.getLast?, isDigit ch = true

lemma IsNumber.digitEnds {s : Str} (h : IsNumber s) : DigitEnds s :=
  ⟨h.1, fun _ hch => h.2 _ (List.mem_of_head? hch), fun _ hch => h.2 _ (List.mem_of_getLast? hch)⟩

lemma IsNumber.digitEnds_append {s t : Str} (hs : IsNumber s) (ht : IsNumber t) (c : UInt8) :
    DigitEnds (s ++ c :: t) := by
  refine ⟨List.append_ne_nil_of_left_ne_nil hs.1 _, ?_, ?_⟩
  · intro ch hch
    rw [List.head?_append_of_ne_nil _ hs.1] at hch
    exact hs.2 ch (List.mem_of_head? hch)
  · intro ch hch
    rw [List.getLast?_append_of_ne_nil _ (List.cons_ne_nil c t), List.getLast?_cons_of_ne_nil ht.1] at hch
    exact ht.2 ch (List.mem_of_getLast? hch)

lemma trimCopy_of_spelt {s text : Str} (h : Says s text) (hends : DigitEnds text) : trimCopy s = text := by
  obtain ⟨before, after, hbefore, hafter, rfl⟩ := h
  obtain ⟨hne, hhead, hlast⟩ := hends
  exact trim_append hbefore hafter (fun ch hch => isSpace_of_isDigit (hhead ch hch))
    (fun ch hch => isSpace_of_isDigit (hlast ch hch)) hne

/-! ### The outcomes -/

lemma matchResolution_trimCopy {input width height : Str} :
    matchResolution (trimCopy input) = some (width, height) ↔
      Says input (width ++ 120 :: height) ∧ IsNumber width ∧ IsNumber height := by
  rw [matchResolution_eq_some_iff]
  constructor
  · rintro ⟨hwidth, hheight, htext⟩
    exact ⟨htext ▸ says_trimCopy input, hwidth, hheight⟩
  · rintro ⟨hspelt, hwidth, hheight⟩
    exact ⟨hwidth, hheight, trimCopy_of_spelt hspelt (hwidth.digitEnds_append hheight 120)⟩

theorem resolutionOutcome (input : Str) (output : Option Resolution) :
    ResolutionOutcome input output (parseResolutionString input output) := by
  have hblank : parseResolutionString input output = (true, none) ↔ Blank input := by
    rw [← trimCopy_eq_nil_iff, parseResolutionString]
    rcases hmatch : matchResolution (trimCopy input) with _ | ⟨width, height⟩
    · dsimp only
      split_ifs with hnil <;> simp [hnil]
    · obtain ⟨hspelt, hwidth, hheight⟩ := matchResolution_trimCopy.mp hmatch
      have hne : trimCopy input ≠ [] := by
        rw [trimCopy_of_spelt hspelt (hwidth.digitEnds_append hheight 120)]
        exact List.append_ne_nil_of_left_ne_nil hwidth.1 _
      dsimp only
      split <;> simp [hne]
  refine ⟨?_, hblank, fun resolution => ?_⟩
  · rw [parseResolutionString]
    split
    · split
      · exact nofun
      · exact fun _ => rfl
    · split_ifs
      · exact nofun
      · exact fun _ => rfl
  · have hread : (∃ width height, Says input (width ++ 120 :: height) ∧ IsNumber width ∧ IsNumber height ∧
        resolution.width.toNat = numberOf width ∧ resolution.height.toNat = numberOf height) ↔
        ∃ width height, matchResolution (trimCopy input) = some (width, height) ∧
          stou width = some resolution.width ∧ stou height = some resolution.height := by
      simp only [matchResolution_trimCopy, stou_eq_some_iff, and_assoc]
    rw [hread, parseResolutionString]
    rcases hmatch : matchResolution (trimCopy input) with _ | ⟨width, height⟩
    · dsimp only
      split_ifs <;> simp
    · dsimp only
      rcases hw : stou width with _ | w <;> rcases hh : stou height with _ | h <;> simp_all [Resolution.ext_iff]

lemma isDecimal_digitEnds {allow : Bool} {text whole fraction : Str} (h : IsDecimal allow text whole fraction) :
    DigitEnds text := by
  obtain ⟨hwhole, ⟨rfl, -⟩ | ⟨-, hfraction, rfl⟩⟩ := h
  · exact hwhole.digitEnds
  · exact hwhole.digitEnds_append hfraction 46

lemma exists_matchRefreshRate_iff {allow : Bool} {input whole fraction : Str} :
    (∃ text, Says input text ∧ IsDecimal allow text whole fraction) ↔
      ∃ f : Option Str, matchRefreshRate allow (trimCopy input) = some (whole, f) ∧ f.getD [] = fraction := by
  constructor
  · rintro ⟨text, hspelt, hdecimal⟩
    rw [trimCopy_of_spelt hspelt (isDecimal_digitEnds hdecimal)]
    obtain ⟨hwhole, ⟨rfl, rfl⟩ | ⟨hallow, hfraction, rfl⟩⟩ := hdecimal
    · exact ⟨none, matchRefreshRate_eq_some_iff.mpr ⟨hwhole, Or.inl ⟨rfl, rfl⟩⟩, rfl⟩
    · exact ⟨some fraction,
        matchRefreshRate_eq_some_iff.mpr ⟨hwhole, Or.inr ⟨fraction, hallow, hfraction, rfl, rfl⟩⟩, rfl⟩
  · rintro ⟨f, hmatch, rfl⟩
    refine ⟨trimCopy input, says_trimCopy input, ?_⟩
    obtain ⟨hwhole, ⟨htext, rfl⟩ | ⟨f, hallow, hf, htext, rfl⟩⟩ := matchRefreshRate_eq_some_iff.mp hmatch
    · exact ⟨hwhole, Or.inl ⟨htext, rfl⟩⟩
    · exact ⟨hwhole, Or.inr ⟨hallow, hf, htext⟩⟩

lemma numberOf_trimmed (whole rest : Str) :
    numberOf ((if whole.dropWhile isZero = [] then str "0" else whole.dropWhile isZero) ++ rest) =
      numberOf (whole ++ rest) := by
  rw [numberOf_append, numberOf_append whole]
  congr 2
  rw [← numberOf_dropWhile whole]
  split_ifs with hzero
  · rw [hzero]
    rfl
  · rfl

lemma map_stou_eq_some_iff {digits : Str} {denominator : UInt32} {rate : Rational} :
    (stou digits).map (fun numerator => Rational.mk numerator denominator) = some rate ↔
      rate.numerator.toNat = numberOf digits ∧ rate.denominator = denominator := by
  rw [Option.map_eq_some_iff]
  constructor
  · rintro ⟨numerator, hstou, rfl⟩
    exact ⟨stou_eq_some_iff.mp hstou, rfl⟩
  · rintro ⟨hnumerator, rfl⟩
    exact ⟨rate.numerator, stou_eq_some_iff.mpr hnumerator, rfl⟩

lemma rateOf_eq_some_iff {undefinedCast : ℕ → UInt32} {whole : Str} {fraction : Option Str} {rate : Rational} :
    rateOf undefinedCast whole fraction = some rate ↔
      rate.numerator.toNat = numberOf (whole ++ significant (fraction.getD [])) ∧
        rate.denominator = if significant (fraction.getD []) ≠ [] then
          denominatorOf undefinedCast (significant (fraction.getD [])).length else 1 := by
  rw [rateOf, ← numberOf_trimmed whole]
  change (if significant (fraction.getD []) ≠ [] then _ else _) = _ ↔ _
  by_cases hnil : significant (fraction.getD []) = []
  · rw [if_neg (not_not.mpr hnil), if_neg (not_not.mpr hnil), hnil, List.append_nil]
    exact map_stou_eq_some_iff
  · rw [if_pos hnil, if_pos hnil]
    exact map_stou_eq_some_iff

lemma denominatorOf_of_le {undefinedCast : ℕ → UInt32} {places : ℕ} (h : places ≤ 9) :
    (denominatorOf undefinedCast places).toNat = 10 ^ places := by
  have hlt : 10 ^ places < 2 ^ 32 := (Nat.pow_le_pow_right (by omega) h).trans_lt (by decide)
  rw [denominatorOf, if_pos hlt, UInt32.toNat_ofNat_of_lt' hlt]

lemma numberOf_significant_pos {whole fraction : Str} (h : significant fraction ≠ []) :
    0 < numberOf (whole ++ significant fraction) := by
  have hlast : (significant fraction).getLast h ≠ 48 := fun hzero =>
    List.rdropWhile_last_not isZero fraction h (decide_eq_true hzero)
  rw [← List.dropLast_append_getLast h, ← List.append_assoc, numberOf_append]
  refine Nat.add_pos_right _ (Nat.pos_of_ne_zero fun hzero => hlast ?_)
  have hdigit : ((significant fraction).getLast h - 48).toNat = 0 := by
    rw [numberOf, List.foldl_cons, List.foldl_nil] at hzero
    exact (Nat.zero_add _).symm.trans hzero
  exact (UInt8.sub_eq_iff_eq_add.mp (UInt8.toNat_inj.mp hdigit)).trans (UInt8.zero_add 48)

/-- The fraction is the number that is written, when its denominator fits into 32 bits and at no other time. -/
lemma rateOf_exact_iff {undefinedCast : ℕ → UInt32} {whole : Str} {fraction : Option Str} {rate : Rational}
    (h : rateOf undefinedCast whole fraction = some rate) :
    (rate.denominator ≠ 0 ∧ rate.numerator.toNat * 10 ^ (fraction.getD []).length =
      numberOf (whole ++ fraction.getD []) * rate.denominator.toNat) ↔ (significant (fraction.getD [])).length ≤ 9 := by
  obtain ⟨hnumerator, hdenominator⟩ := rateOf_eq_some_iff.mp h
  have hscale := numberOf_append_significant whole (fraction.getD [])
  constructor
  · rintro ⟨-, hvalue⟩
    by_contra hplaces
    have hne : significant (fraction.getD []) ≠ [] := by
      intro hnil
      rw [hnil] at hplaces
      exact hplaces (Nat.zero_le 9)
    have hpos : 0 < numberOf (whole ++ significant (fraction.getD [])) * 10 ^ (fraction.getD []).length :=
      Nat.mul_pos (numberOf_significant_pos hne) (Nat.pow_pos (by omega))
    have hpower : rate.denominator.toNat = 10 ^ (significant (fraction.getD [])).length := by
      refine Nat.eq_of_mul_eq_mul_left hpos ?_
      calc numberOf (whole ++ significant (fraction.getD [])) * 10 ^ (fraction.getD []).length * rate.denominator.toNat
          = numberOf (whole ++ fraction.getD []) * rate.denominator.toNat * 10 ^
            (significant (fraction.getD [])).length := by
            rw [← hscale]
            ring
        _ = numberOf (whole ++ significant (fraction.getD [])) * 10 ^ (fraction.getD []).length *
              10 ^ (significant (fraction.getD [])).length := by rw [← hvalue, hnumerator]
    have hlt := rate.denominator.toNat_lt
    have hten : 10 ^ 10 ≤ 10 ^ (significant (fraction.getD [])).length :=
      Nat.pow_le_pow_right (by omega) (by omega)
    omega
  · intro hplaces
    have hpower : rate.denominator.toNat = 10 ^ (significant (fraction.getD [])).length := by
      rw [hdenominator]
      split_ifs with hnil
      · exact denominatorOf_of_le hplaces
      · rw [not_not.mp hnil]
        rfl
    constructor
    · intro hzero
      have hpos : 0 < rate.denominator.toNat := hpower ▸ Nat.pow_pos (by omega)
      rw [hzero] at hpos
      exact absurd hpos (by decide)
    · rw [hnumerator, hpower]
      exact hscale.symm

lemma exists_rateOf_iff {undefinedCast : ℕ → UInt32} {whole : Str} {fraction : Option Str} :
    (∃ rate, rateOf undefinedCast whole fraction = some rate) ↔
      numberOf (whole ++ significant (fraction.getD [])) < 2 ^ 32 := by
  simp only [rateOf_eq_some_iff]
  constructor
  · rintro ⟨rate, hnumerator, -⟩
    exact hnumerator ▸ rate.numerator.toNat_lt
  · intro hlt
    exact ⟨⟨UInt32.ofNat _, _⟩, UInt32.toNat_ofNat_of_lt' hlt, rfl⟩

lemma parseRefreshRateString_eq_some_iff {undefinedCast : ℕ → UInt32} {allow : Bool} {input : Str}
    {output : Option Rational} {rate : Rational} :
    parseRefreshRateString undefinedCast allow input output = (true, some rate) ↔
      ∃ whole fraction, matchRefreshRate allow (trimCopy input) = some (whole, fraction) ∧
        rateOf undefinedCast whole fraction = some rate := by
  rw [parseRefreshRateString]
  rcases hmatch : matchRefreshRate allow (trimCopy input) with _ | ⟨whole, fraction⟩
  · dsimp only
    split_ifs <;> simp
  · dsimp only
    rcases hrate : rateOf undefinedCast whole fraction with _ | found <;> simp_all

theorem rateOutcome (undefinedCast : ℕ → UInt32) (allow : Bool) (input : Str) (output : Option Rational) :
    RateOutcome allow input output (parseRefreshRateString undefinedCast allow input output) := by
  have hblank : parseRefreshRateString undefinedCast allow input output = (true, none) ↔ Blank input := by
    rw [← trimCopy_eq_nil_iff, parseRefreshRateString]
    rcases hmatch : matchRefreshRate allow (trimCopy input) with _ | ⟨whole, fraction⟩
    · dsimp only
      split_ifs with hnil <;> simp [hnil]
    · obtain ⟨text, hspelt, hdecimal⟩ := exists_matchRefreshRate_iff.mpr ⟨fraction, hmatch, rfl⟩
      have hends := isDecimal_digitEnds hdecimal
      have hne : trimCopy input ≠ [] := trimCopy_of_spelt hspelt hends ▸ hends.1
      dsimp only
      split <;> simp [hne]
  refine ⟨?_, hblank, ?_, fun rate hrate => ?_⟩
  · rw [parseRefreshRateString]
    split
    · split
      · exact nofun
      · exact fun _ => rfl
    · split_ifs
      · exact nofun
      · exact fun _ => rfl
  · have hfound : (∃ rate, parseRefreshRateString undefinedCast allow input output = (true, some rate)) ↔
        ∃ text whole fraction, Says input text ∧ IsDecimal allow text whole fraction ∧
          numberOf (whole ++ significant fraction) < 2 ^ 32 := by
      simp only [parseRefreshRateString_eq_some_iff]
      constructor
      · rintro ⟨rate, whole, fraction, hmatch, hrate⟩
        obtain ⟨text, hspelt, hdecimal⟩ := exists_matchRefreshRate_iff.mpr ⟨fraction, hmatch, rfl⟩
        exact ⟨text, whole, _, hspelt, hdecimal, exists_rateOf_iff.mp ⟨rate, hrate⟩⟩
      · rintro ⟨text, whole, fraction, hspelt, hdecimal, hlt⟩
        obtain ⟨f, hmatch, rfl⟩ := exists_matchRefreshRate_iff.mp ⟨text, hspelt, hdecimal⟩
        obtain ⟨rate, hrate⟩ := exists_rateOf_iff.mpr hlt
        exact ⟨rate, whole, f, hmatch, hrate⟩
    rw [← hblank, ← hfound]
    rcases parseRefreshRateString undefinedCast allow input output with ⟨_ | _, _ | rate⟩ <;> simp
  · obtain ⟨whole, fraction, hmatch, hrate⟩ := parseRefreshRateString_eq_some_iff.mp hrate
    obtain ⟨text, hspelt, hdecimal⟩ := exists_matchRefreshRate_iff.mpr ⟨fraction, hmatch, rfl⟩
    exact ⟨text, whole, _, hspelt, hdecimal, (rateOf_exact_iff hrate).mpr⟩

/-! ### Main result -/

/-- Parsing either fails and changes nothing, gives no value for blank input and for no other, or gives the number that
is written. -/
theorem parse_exact : (∀ undefinedCast allow input output,
      RateOutcome allow input output (parseRefreshRateString undefinedCast allow input output)) ∧
    ∀ input output, ResolutionOutcome input output (parseResolutionString input output) :=
  ⟨rateOutcome, resolutionOutcome⟩

/-- Two numbers with an `x` between them are not all that is accepted: blank input is too. -/
theorem parseResolutionString_blank : ¬∀ input output, (parseResolutionString input output).1 = true ↔
    ∃ width height, Says input (width ++ 120 :: height) ∧ IsNumber width ∧ IsNumber height ∧
      numberOf width < 2 ^ 32 ∧ numberOf height < 2 ^ 32 := by
  intro hholds
  obtain ⟨width, height, hspelt, hwidth, hheight, -⟩ := (hholds [] none).mp (by decide)
  have htrim := matchResolution_trimCopy.mpr ⟨hspelt, hwidth, hheight⟩
  rw [show matchResolution (trimCopy []) = none by decide] at htrim
  cases htrim

end MidnightSun.DisplayDevice

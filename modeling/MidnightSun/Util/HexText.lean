import MidnightSun.Lib.Backward
import MidnightSun.Util.Hex

/-!
# Hexadecimal text, character by character (src/utility.h)

The loops of `hex_vec` and `from_hex_vec` with the pointers they move.  A pointer that moves backwards is given by the
number of elements up to and including the one it points at; `none` is a read outside the bytes or the text.
-/

namespace MidnightSun.Util

open Lib

namespace Walk

/-- The loop of `hex_vec` with `rev`: as many rounds as there are bytes, `begin` moves on. -/
def forwards (bytes : Str) : ℕ → ℕ → Option Str
  | 0, _ => some []
  | n + 1, begin => do
    let b ← bytes[begin]?
    let hex ← forwards bytes n (begin + 1)
    return bits (b / 16) :: bits (b % 16) :: hex

/-- The loop without `rev`: `end` moves back. -/
def backwards (bytes : Str) : ℕ → ℕ → Option Str
  | 0, _ => some []
  | _ + 1, 0 => none
  | n + 1, last + 1 => do
    let b ← bytes[last]?
    let hex ← backwards bytes n last
    return bits (b / 16) :: bits (b % 16) :: hex

/-- `hex_vec`. -/
def hexVec (bytes : Str) (rev : Bool) : Option Str :=
  if rev then forwards bytes bytes.length 0 else backwards bytes bytes.length bytes.length

/-- The loop of `from_hex_vec` over the elements of `buf` that are left: each takes two characters from the end. -/
def fill (hex : Str) : ℕ → ℕ → Option Str
  | 0, _ => some []
  | n + 1, data => do
    let (r, data) ← prev isConvertable hex data
    let (l, data) ← prev isConvertable hex data
    let buf ← fill hex n data
    return (convert l <<< 4 ||| convert r) :: buf

/-- `from_hex_vec`. -/
def fromHexVec (hex : Str) (rev : Bool) : Option Str := do
  let bufSize := hex.countP isConvertable / 2
  let buf ← fill hex bufSize hex.length
  return if rev then buf.reverse else buf

end Walk

/-! ### The walks stay inside -/

lemma Walk.forwards_eq {bytes : Str} (done rest : Str) (h : bytes = done ++ rest) :
    forwards bytes rest.length done.length = some (rest.flatMap fun b => [bits (b / 16), bits (b % 16)]) := by
  induction rest generalizing done with
  | nil => rfl
  | cons b rest ih =>
    have hb : bytes[done.length]? = some b := by
      rw [h, List.getElem?_append_right (Nat.le_refl _), Nat.sub_self, List.getElem?_cons_zero]
    have hrest := ih (done ++ [b]) (by rw [h, List.append_assoc, List.singleton_append])
    rw [List.length_append, List.length_singleton] at hrest
    simp only [List.length_cons, forwards, hb, hrest, Option.bind_eq_bind, Option.bind_some, List.flatMap_cons]
    rfl

lemma Walk.backwards_eq (bytes : Str) {n : ℕ} (hn : n ≤ bytes.length) :
    backwards bytes n n = some ((bytes.take n).reverse.flatMap fun b => [bits (b / 16), bits (b % 16)]) := by
  induction n with
  | zero => rfl
  | succ n ih =>
    have hb : bytes[n]? = some bytes[n] := List.getElem?_eq_getElem hn
    rw [List.take_succ_eq_append_getElem hn, List.reverse_concat]
    simp only [backwards, hb, ih (Nat.le_of_succ_le hn), Option.bind_eq_bind, Option.bind_some, List.flatMap_cons]
    rfl

/-- `hex_vec` reads the bytes only. -/
theorem Walk.hexVec_eq (bytes : Str) (rev : Bool) : Walk.hexVec bytes rev = some (Util.hexVec bytes rev) := by
  unfold Walk.hexVec Util.hexVec
  cases rev with
  | true => exact forwards_eq [] bytes rfl
  | false =>
    have h := backwards_eq bytes (Nat.le_refl _)
    rwa [List.take_length] at h

lemma hexBytes_of_short {l : Str} (h : ∀ (r l' : UInt8) (ds : Str), l = r :: l' :: ds → False) :
    l.length / 2 = 0 ∧ hexBytes l = [] := by
  rcases l with _ | ⟨r, _ | ⟨l', ds⟩⟩
  · exact ⟨Nat.zero_div 2, rfl⟩
  · exact ⟨by rw [List.length_singleton], rfl⟩
  · exact absurd rfl (h r l' ds)

/-- The pairs that the loop takes are those of the characters that count. -/
lemma Walk.fill_eq {hex digits : Str} {data : ℕ} (hdata : data ≤ hex.length)
    (h : ((hex.take data).filter isConvertable).reverse = digits) :
    fill hex (digits.length / 2) data = some (hexBytes digits) := by
  induction digits using hexBytes.induct generalizing data with
  | case1 r l ds ih =>
    have hfilter : (hex.take data).filter isConvertable = (ds.reverse ++ [l]) ++ [r] := by
      rw [← List.reverse_reverse (List.filter _ _), h, List.reverse_cons, List.reverse_cons]
    obtain ⟨data₁, hr, hdata₁, hfilter₁⟩ := exists_prev_of_filter hdata hfilter
    obtain ⟨data₂, hl, hdata₂, hfilter₂⟩ := exists_prev_of_filter hdata₁ hfilter₁
    have hds := ih hdata₂ (by rw [hfilter₂, List.reverse_reverse])
    have hlength : (r :: l :: ds).length / 2 = ds.length / 2 + 1 := by
      rw [List.length_cons, List.length_cons]
      omega
    simp only [hlength, fill, hr, hl, hds, Option.bind_eq_bind, Option.bind_some]
    rfl
  | case2 digits hshort =>
    obtain ⟨hlength, hbytes⟩ := hexBytes_of_short hshort
    rw [hlength, hbytes]
    rfl

/-- **`from_hex_vec` reads the text only.** -/
theorem Walk.fromHexVec_eq (hex : Str) (rev : Bool) : Walk.fromHexVec hex rev = some (Util.fromHexVec hex rev) := by
  have h : fill hex ((hex.filter isConvertable).reverse.length / 2) hex.length =
      some (hexBytes (hex.filter isConvertable).reverse) := fill_eq (Nat.le_refl _) (by rw [List.take_length])
  rw [List.length_reverse, ← List.countP_eq_length_filter] at h
  simp only [Walk.fromHexVec, h, Option.bind_eq_bind, Option.bind_some]
  rfl

/-! ### What the characters stand for -/

/-- A digit or a letter. -/
def isAlnum (c : UInt8) : Bool := (48 ≤ c && c ≤ 57) || (65 ≤ c && c ≤ 90) || (97 ≤ c && c ≤ 122)

def toLower (c : UInt8) : UInt8 := if 65 ≤ c && c ≤ 90 then c + 32 else c

/-- A text with the digits and letters of another one: letters may have changed case, and characters that are neither
digits nor letters may have been inserted anywhere. -/
inductive Respelled : Str → Str → Prop
  | nil : Respelled [] []
  | insert {hex text : Str} {c : UInt8} : isAlnum c = false → Respelled hex text → Respelled hex (c :: text)
  | recase {hex text : Str} {c d : UInt8} :
    toLower c = toLower d → Respelled hex text → Respelled (c :: hex) (d :: text)

lemma forall_uint8 {P : UInt8 → Prop} (h : ∀ n < 256, P (UInt8.ofNat n)) (c : UInt8) : P c := by
  have hc := h c.toNat c.toNat_lt
  rwa [UInt8.ofNat_toNat] at hc

lemma isConvertable_eq_isAlnum (c : UInt8) : isConvertable c = isAlnum c := by
  revert c
  exact forall_uint8 (by decide +kernel)

lemma toLower_spec (c : UInt8) : isConvertable (toLower c) = isConvertable c ∧ convert (toLower c) = convert c := by
  revert c
  exact forall_uint8 (by decide +kernel)

lemma convert_bits (b : UInt8) :
    (convert (bits (b / 16)) <<< 4 ||| convert (bits (b % 16))) = b ∧
      isConvertable (bits (b / 16)) = true ∧ isConvertable (bits (b % 16)) = true := by
  revert b
  exact forall_uint8 (by decide +kernel)

lemma length_hexBytes (l : Str) : (hexBytes l).length = l.length / 2 := by
  induction l using hexBytes.induct with
  | case1 r l ds ih =>
    rw [hexBytes, List.length_cons, List.length_cons, List.length_cons, ih]
    omega
  | case2 l hshort =>
    obtain ⟨hlength, hbytes⟩ := hexBytes_of_short hshort
    rw [hlength, hbytes]
    rfl

lemma hexBytes_congr {l l' : Str} (h : l.map convert = l'.map convert) : hexBytes l = hexBytes l' := by
  induction l using hexBytes.induct generalizing l' with
  | case1 r l ds ih =>
    obtain ⟨r', t, rfl, hr, ht⟩ := List.map_eq_cons_iff.mp h.symm
    obtain ⟨l', ds', rfl, hl, hds⟩ := List.map_eq_cons_iff.mp ht
    rw [hexBytes, hexBytes, hr, hl, ih hds.symm]
  | case2 l hshort =>
    have hlength : l.length = l'.length := by simpa using congrArg List.length h
    have hshort' : ∀ (r l'' : UInt8) (ds : Str), l' = r :: l'' :: ds → False := by
      rintro r l'' ds rfl
      rcases l with _ | ⟨_, _ | ⟨_, _⟩⟩
      · simp at hlength
      · simp at hlength
      · exact hshort _ _ _ rfl
    rw [(hexBytes_of_short hshort).2, (hexBytes_of_short hshort').2]

/-! ### Round trip -/

/-- What `from_hex_vec` sees of a text is the same however it is spelled. -/
lemma Respelled.map_convert {hex text : Str} (h : Respelled hex text) :
    (text.filter isConvertable).map convert = (hex.filter isConvertable).map convert := by
  induction h with
  | nil => rfl
  | insert hc _ ih =>
    rw [← isConvertable_eq_isAlnum] at hc
    rw [List.filter_cons_of_neg (by rw [hc]; exact Bool.false_ne_true), ih]
  | @recase hex text c d hcd _ ih =>
    obtain ⟨hc, hc'⟩ := toLower_spec c
    obtain ⟨hd, hd'⟩ := toLower_spec d
    rw [hcd] at hc hc'
    rw [List.filter_cons, List.filter_cons, ← hd, hc]
    split
    · rw [List.map_cons, List.map_cons, ih, ← hd', hc']
    · exact ih

lemma Respelled.fromHexVec {hex text : Str} (h : Respelled hex text) (rev : Bool) :
    fromHexVec text rev = fromHexVec hex rev := by
  have hmap : (text.filter isConvertable).reverse.map convert = (hex.filter isConvertable).reverse.map convert := by
    rw [List.map_reverse, List.map_reverse, h.map_convert]
  unfold Util.fromHexVec
  rw [hexBytes_congr hmap]

lemma hexBytes_flatMap (s : Str) : hexBytes (s.flatMap fun b => [bits (b % 16), bits (b / 16)]) = s := by
  induction s with
  | nil => rfl
  | cons b s ih =>
    rw [List.flatMap_cons, List.cons_append, List.singleton_append, hexBytes, ih, (convert_bits b).1]

lemma filter_hexVec (s : Str) (rev : Bool) : (hexVec s rev).filter isConvertable = hexVec s rev := by
  rw [List.filter_eq_self]
  intro c hc
  obtain ⟨b, -, hb⟩ := List.mem_flatMap.mp hc
  obtain ⟨-, hhigh, hlow⟩ := convert_bits b
  rcases List.mem_cons.mp hb with rfl | hb
  · exact hhigh
  · rw [List.mem_singleton.mp hb]
    exact hlow

theorem fromHexVec_hexVec (s : Str) (rev : Bool) : fromHexVec (hexVec s rev) rev = s := by
  have hreverse : (hexVec s rev).reverse =
      (if rev then s else s.reverse).reverse.flatMap fun b => [bits (b % 16), bits (b / 16)] := by
    rw [hexVec, List.reverse_flatMap]
    rfl
  unfold Util.fromHexVec
  rw [filter_hexVec, hreverse, hexBytes_flatMap]
  cases rev with
  | true => exact List.reverse_reverse s
  | false => exact List.reverse_reverse s

theorem length_fromHexVec (hex : Str) (rev : Bool) :
    (fromHexVec hex rev).length = hex.countP isConvertable / 2 := by
  have hlength : (hexBytes (hex.filter isConvertable).reverse).length = hex.countP isConvertable / 2 := by
    rw [length_hexBytes, List.length_reverse, ← List.countP_eq_length_filter]
  unfold Util.fromHexVec
  cases rev with
  | true => exact (List.length_reverse ..).trans hlength
  | false => exact hlength

/-- **Hexadecimal text is read back as the bytes it was written from**, however it is spelled, and no text makes
`from_hex_vec` read outside it. -/
theorem hex_round_trip (bytes text : Str) (rev : Bool) :
    (∃ hex, Walk.hexVec bytes rev = some hex ∧
      ∀ spelled, Respelled hex spelled → Walk.fromHexVec spelled rev = some bytes) ∧
    ∃ buf, Walk.fromHexVec text rev = some buf ∧ buf.length = text.countP isConvertable / 2 := by
  constructor
  · refine ⟨hexVec bytes rev, Walk.hexVec_eq bytes rev, fun spelled h => ?_⟩
    rw [Walk.fromHexVec_eq, h.fromHexVec, fromHexVec_hexVec]
  · exact ⟨fromHexVec text rev, Walk.fromHexVec_eq text rev, length_fromHexVec text rev⟩

/-- Three digits with separators: the first has no partner. -/
example : Walk.fromHexVec (str "1:a-F") true = some [0xaf] := by decide +kernel

end MidnightSun.Util

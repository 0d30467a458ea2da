import Mathlib.Data.List.Basic
import Mathlib.Tactic.Ring

/-!
# Slices of a list

A list cut every `q` elements; the last slice is what is left.
-/

namespace MidnightSun.Lib

variable {α β : Type*}

/-- The number of slices of `q` elements that `n` elements fill, the last perhaps in part. -/
def sliceCount (q n : ℕ) : ℕ := (n + (q - 1)) / q

/-- The slices of a list. -/
def slices (q : ℕ) (l : List α) : List (List α) :=
  (List.range (sliceCount q l.length)).map fun x => (l.drop (x * q)).take q

lemma sliceCount_zero {q : ℕ} : sliceCount q 0 = 0 := by
  rw [sliceCount, Nat.zero_add, Nat.div_eq_zero_iff]
  omega

/-- `k` slices are needed as soon as `k - 1` do not hold everything. -/
theorem sliceCount_eq_iff {q n k : ℕ} (hq : 0 < q) : sliceCount q n = k ↔ n ≤ k * q ∧ k * q < n + q := by
  rw [sliceCount, Nat.div_eq_iff hq]
  constructor
  · rintro ⟨h₁, h₂⟩
    constructor <;> omega
  · rintro ⟨h₁, h₂⟩
    constructor <;> omega

lemma le_sliceCount_mul {q : ℕ} (hq : 0 < q) (n : ℕ) : n ≤ sliceCount q n * q :=
  ((sliceCount_eq_iff hq).mp rfl).1

lemma sliceCount_mul_lt {q : ℕ} (hq : 0 < q) (n : ℕ) : sliceCount q n * q < n + q :=
  ((sliceCount_eq_iff hq).mp rfl).2

lemma sliceCount_add {q : ℕ} (hq : 0 < q) (n : ℕ) : sliceCount q (q + n) = sliceCount q n + 1 := by
  rw [sliceCount_eq_iff hq]
  have h₁ := le_sliceCount_mul hq n
  have h₂ := sliceCount_mul_lt hq n
  rw [Nat.succ_mul]
  omega

lemma sliceCount_mul {q : ℕ} (hq : 0 < q) (k : ℕ) : sliceCount q (k * q) = k := by
  rw [sliceCount_eq_iff hq]
  omega

lemma sliceCount_mul_add {q : ℕ} (hq : 0 < q) (k n : ℕ) : sliceCount q (k * q + n) = k + sliceCount q n := by
  rw [sliceCount_eq_iff hq]
  have h₁ := le_sliceCount_mul hq n
  have h₂ := sliceCount_mul_lt hq n
  rw [Nat.add_mul]
  omega

lemma sliceCount_pos {q n : ℕ} (hq : 0 < q) (hn : 0 < n) : 0 < sliceCount q n := by
  have h := le_sliceCount_mul hq n
  rcases Nat.eq_zero_or_pos (sliceCount q n) with h0 | h0
  · rw [h0] at h
    omega
  · exact h0

lemma sliceCount_of_le {q n : ℕ} (hn : 0 < n) (h : n ≤ q) : sliceCount q n = 1 := by
  rw [sliceCount_eq_iff (by omega)]
  omega

lemma sliceCount_le_iff {q n k : ℕ} (hq : 0 < q) : sliceCount q n ≤ k ↔ n ≤ k * q := by
  rw [sliceCount, Nat.div_le_iff_le_mul_add_pred hq, Nat.mul_comm]
  omega

lemma div_add_ite_eq_sliceCount {q : ℕ} (hq : 0 < q) (n : ℕ) :
    n / q + (if n % q ≠ 0 then 1 else 0) = sliceCount q n := by
  rw [eq_comm, sliceCount_eq_iff hq]
  have h := Nat.div_add_mod n q
  have hmod := Nat.mod_lt n hq
  rw [Nat.mul_comm] at h
  split_ifs <;> rw [Nat.add_mul] <;> omega

/-- Slices of slices. -/
theorem sliceCount_mul_eq {a b : ℕ} (ha : 0 < a) (hb : 0 < b) (n : ℕ) :
    sliceCount (a * b) n = sliceCount a (sliceCount b n) := by
  have h₁ := le_sliceCount_mul ha (sliceCount b n)
  have h₂ := sliceCount_mul_lt ha (sliceCount b n)
  have h₃ := le_sliceCount_mul hb n
  have h₄ := sliceCount_mul_lt hb n
  rw [sliceCount_eq_iff (Nat.mul_pos ha hb), ← Nat.mul_assoc]
  generalize sliceCount a (sliceCount b n) = k at *
  generalize sliceCount b n = c at *
  constructor
  · calc n ≤ c * b := h₃
      _ ≤ k * a * b := Nat.mul_le_mul_right b h₁
  · have hle : (k * a + 1) * b ≤ (c + a) * b := Nat.mul_le_mul_right b h₂
    rw [Nat.add_mul, Nat.add_mul] at hle
    omega

/-- A size split evenly into `k` parts and rounded up to slices, when the last slice is not so short that it
vanishes in the division. -/
theorem sliceCount_div {q n k c : ℕ} (hk : 0 < k) (hc : n ≤ c * q) (hlast : c * q + k ≤ n + q) (hkq : k ≤ q) :
    sliceCount q (n / k) = sliceCount k c := by
  have hq : 0 < q := by omega
  have h₁ := le_sliceCount_mul hk c
  have h₂ := sliceCount_mul_lt hk c
  rw [sliceCount_eq_iff hq]
  generalize sliceCount k c = m at *
  constructor
  · apply Nat.div_le_of_le_mul
    calc n ≤ c * q := hc
      _ ≤ m * k * q := Nat.mul_le_mul_right q h₁
      _ = k * (m * q) := by ring
  · rcases Nat.eq_zero_or_pos m with rfl | hm
    · rw [Nat.zero_mul]
      exact Nat.add_pos_right _ hq
    · -- the parts do not fit into `m - 1` slices each
      have hle : (m - 1) * q + 1 ≤ n / k := by
        rw [Nat.le_div_iff_mul_le hk]
        obtain ⟨m, rfl⟩ : ∃ m', m = m' + 1 := ⟨m - 1, by omega⟩
        have hmul : (m * k + 1) * q ≤ c * q := by
          apply Nat.mul_le_mul_right
          rw [Nat.succ_mul] at h₂
          omega
        have hring : (m * q + 1) * k + q = (m * k + 1) * q + k := by ring
        rw [Nat.add_sub_cancel]
        omega
      have hsub : m * q = (m - 1) * q + q := by
        obtain ⟨m, rfl⟩ : ∃ m', m = m' + 1 := ⟨m - 1, by omega⟩
        rw [Nat.add_sub_cancel, Nat.succ_mul]
      omega

/-- Parts of the rounded-up size are as many as asked for, if there is enough to share. -/
theorem sliceCount_sliceCount {k c : ℕ} (hk : 0 < k) (hc : (k - 1) * (k - 1) < c) :
    sliceCount (sliceCount k c) c = k := by
  have hm := sliceCount_pos hk (Nat.lt_of_le_of_lt (Nat.zero_le _) hc)
  have h₁ := le_sliceCount_mul hk c
  have h₂ := sliceCount_mul_lt hk c
  rw [sliceCount_eq_iff hm]
  generalize sliceCount k c = m at *
  obtain ⟨k, rfl⟩ : ∃ k', k = k' + 1 := ⟨k - 1, by omega⟩
  rw [Nat.add_sub_cancel] at hc
  rw [Nat.mul_comm] at h₁ h₂
  refine ⟨h₁, ?_⟩
  rw [Nat.succ_mul] at h₂ ⊢
  -- otherwise each of the `k` parts before the last would be larger than `k`
  by_contra hge
  have hcm : c ≤ k * m := by omega
  have hmk : m ≤ k := by omega
  have hkk : k * m ≤ k * k := Nat.mul_le_mul_left k hmk
  omega

@[simp] lemma length_slices (q : ℕ) (l : List α) : (slices q l).length = sliceCount q l.length := by
  simp [slices]

@[simp] lemma slices_nil (q : ℕ) : slices q ([] : List α) = [] := by
  simp [slices, sliceCount_zero]

/-- The first slice, and the slices of the rest. -/
theorem slices_eq_cons {q : ℕ} (hq : 0 < q) {l : List α} (hl : l ≠ []) :
    slices q l = l.take q :: slices q (l.drop q) := by
  have hpos : 0 < l.length := List.length_pos_iff.mpr hl
  have hcount : sliceCount q l.length = sliceCount q (l.drop q).length + 1 := by
    rw [List.length_drop]
    rcases Nat.le_total q l.length with h | h
    · rw [← sliceCount_add hq, Nat.add_sub_cancel' h]
    · rw [sliceCount_of_le hpos h, Nat.sub_eq_zero_of_le h, sliceCount_zero]
  rw [slices, slices, hcount, List.range_succ_eq_map, List.map_cons, List.map_map]
  congr 1
  · simp
  · apply List.map_congr_left
    intro x _
    simp only [Function.comp_apply, List.drop_drop, Nat.succ_mul]
    rw [Nat.add_comm]

theorem slices_induction {q : ℕ} (hq : 0 < q) {motive : List α → Prop} (nil : motive [])
    (cons : ∀ l, l ≠ [] → motive (l.drop q) → motive l) (l : List α) : motive l := by
  induction hn : l.length using Nat.strong_induction_on generalizing l with
  | _ n ih =>
    rcases eq_or_ne l [] with rfl | hl
    · exact nil
    · have hpos : 0 < l.length := List.length_pos_iff.mpr hl
      exact cons l hl (ih (l.drop q).length (by rw [List.length_drop]; omega) _ rfl)

theorem flatten_slices {q : ℕ} (hq : 0 < q) (l : List α) : (slices q l).flatten = l := by
  induction l using slices_induction hq with
  | nil => simp
  | cons l hl ih => rw [slices_eq_cons hq hl, List.flatten_cons, ih, List.take_append_drop]

lemma ne_nil_of_mem_slices {q : ℕ} (hq : 0 < q) {l s : List α} (h : s ∈ slices q l) : s ≠ [] := by
  induction l using slices_induction hq with
  | nil => simp at h
  | cons l hl ih =>
    rw [slices_eq_cons hq hl, List.mem_cons] at h
    rcases h with rfl | h
    · rw [Ne, List.take_eq_nil_iff]
      rintro (h0 | h0)
      · omega
      · exact hl h0
    · exact ih h

lemma length_le_of_mem_slices {q : ℕ} {l s : List α} (h : s ∈ slices q l) : s.length ≤ q := by
  obtain ⟨x, -, rfl⟩ := List.mem_map.mp h
  exact List.length_take_le _ _

lemma length_getElem_slices {q : ℕ} {l : List α} {x : ℕ} (hx : x < (slices q l).length) :
    (slices q l)[x].length = min q (l.length - x * q) := by
  simp [slices]

theorem length_of_mem_dropLast_slices {q : ℕ} (hq : 0 < q) {l s : List α} (h : s ∈ (slices q l).dropLast) :
    s.length = q := by
  obtain ⟨x, hx, rfl⟩ := List.mem_iff_getElem.mp h
  rw [List.length_dropLast, length_slices] at hx
  rw [List.getElem_dropLast, length_getElem_slices]
  have hlt := sliceCount_mul_lt hq l.length
  have hle : (x + 2) * q ≤ sliceCount q l.length * q := Nat.mul_le_mul_right q (by omega)
  rw [Nat.add_mul] at hle
  omega

/-- The last slice is the remainder, or a whole one. -/
theorem length_getLast_slices {q : ℕ} (hq : 0 < q) {l : List α} (h : slices q l ≠ []) :
    ((slices q l).getLast h).length = if l.length % q = 0 then q else l.length % q := by
  have hpos : 0 < sliceCount q l.length := by
    rw [← length_slices]
    exact List.length_pos_iff.mpr h
  have hcount := div_add_ite_eq_sliceCount hq l.length
  have hdiv := Nat.div_add_mod l.length q
  rw [Nat.mul_comm] at hdiv
  rw [List.getLast_eq_getElem, length_getElem_slices, length_slices]
  by_cases h0 : l.length % q = 0
  · rw [if_neg (not_not.mpr h0)] at hcount
    obtain ⟨c, hc⟩ : ∃ c, l.length / q = c + 1 := ⟨l.length / q - 1, by omega⟩
    rw [hc, Nat.succ_mul] at hdiv
    rw [if_pos h0, ← hcount, hc, Nat.add_zero, Nat.add_sub_cancel]
    omega
  · have hmod := Nat.mod_lt l.length hq
    rw [if_pos h0] at hcount
    rw [if_neg h0, ← hcount, Nat.add_sub_cancel]
    omega

/-- The slices of a whole number of slices and a rest are theirs one after the other. -/
theorem slices_append {q : ℕ} (hq : 0 < q) {l₁ : List α} (h : q ∣ l₁.length) (l₂ : List α) :
    slices q (l₁ ++ l₂) = slices q l₁ ++ slices q l₂ := by
  induction l₁ using slices_induction hq with
  | nil => simp
  | cons l hl ih =>
    have hpos : 0 < l.length := List.length_pos_iff.mpr hl
    have hle : q ≤ l.length := Nat.le_of_dvd hpos h
    have hdvd : q ∣ (l.drop q).length := by
      rw [List.length_drop]
      exact Nat.dvd_sub h dvd_rfl
    rw [slices_eq_cons hq (List.append_ne_nil_of_left_ne_nil hl _), slices_eq_cons hq hl,
      List.take_append_of_le_length hle, List.drop_append_of_le_length hle, ih hdvd, List.cons_append]

/-- Slices of blocks that are whole numbers of slices, the last block apart, are the slices of everything. -/
theorem flatMap_slices {q : ℕ} (hq : 0 < q) {blocks : List (List α)} (h : ∀ b ∈ blocks.dropLast, q ∣ b.length) :
    blocks.flatMap (slices q) = slices q blocks.flatten := by
  induction blocks with
  | nil => simp
  | cons b blocks ih =>
    rcases eq_or_ne blocks [] with rfl | hne
    · simp
    · rw [List.dropLast_cons_of_ne_nil hne] at h
      rw [List.flatMap_cons, List.flatten_cons, slices_append hq (h b List.mem_cons_self),
        ih fun b' hb' => h b' (List.mem_cons_of_mem _ hb')]

/-- The last of `k + 1` blocks of `a` slices each has the slices that are left. -/
theorem sliceCount_getLast_slices {q a k : ℕ} (hq : 0 < q) (ha : 0 < a) {l b : List α}
    (hk : sliceCount (a * q) l.length = k + 1) (hb : b ∈ (slices (a * q) l).getLast?) :
    sliceCount q b.length + k * a = sliceCount q l.length := by
  have hpos : 0 < a * q := Nat.mul_pos ha hq
  have hle := le_sliceCount_mul hpos l.length
  have hlt := sliceCount_mul_lt hpos l.length
  rw [hk, Nat.succ_mul] at hle hlt
  rw [Option.mem_def, List.getLast?_eq_getElem?, length_slices, hk, Nat.add_sub_cancel] at hb
  obtain ⟨hx, rfl⟩ := List.getElem?_eq_some_iff.mp hb
  have hlen : l.length = k * a * q + (l.length - k * (a * q)) := by
    rw [Nat.mul_assoc]
    omega
  rw [length_getElem_slices, Nat.min_eq_right (by omega), Nat.add_comm]
  conv_rhs => rw [hlen]
  rw [sliceCount_mul_add hq]

section Equal

variable {q : ℕ} {blocks : List (List α)}

/-- Blocks of one size are the slices of what they are together. -/
theorem slices_flatten (hq : 0 < q) (h : ∀ b ∈ blocks, b.length = q) : slices q blocks.flatten = blocks := by
  induction blocks with
  | nil => simp
  | cons b blocks ih =>
    have hb := h b List.mem_cons_self
    have hne : b ++ blocks.flatten ≠ [] := by
      apply List.append_ne_nil_of_left_ne_nil
      rintro rfl
      rw [← hb] at hq
      cases hq
    rw [List.flatten_cons, slices_eq_cons hq hne, ← hb, List.take_left, List.drop_left, hb,
      ih fun b' hb' => h b' (List.mem_cons_of_mem b hb')]

lemma length_flatten_of_length (h : ∀ b ∈ blocks, b.length = q) : blocks.flatten.length = blocks.length * q := by
  induction blocks with
  | nil => simp
  | cons b blocks ih =>
    rw [List.flatten_cons, List.length_append, ih fun b' hb' => h b' (List.mem_cons_of_mem b hb'),
      h b List.mem_cons_self, List.length_cons, Nat.succ_mul, Nat.add_comm]

lemma drop_flatten (h : ∀ b ∈ blocks, b.length = q) (k : ℕ) :
    blocks.flatten.drop (k * q) = (blocks.drop k).flatten := by
  induction k generalizing blocks with
  | zero => simp
  | succ k ih =>
    cases blocks with
    | nil => simp
    | cons b blocks =>
      have hb := h b List.mem_cons_self
      rw [List.flatten_cons, Nat.succ_mul, Nat.add_comm, ← List.drop_drop, ← hb, List.drop_left, hb,
        ih fun b' hb' => h b' (List.mem_cons_of_mem b hb'), List.drop_succ_cons]

lemma take_flatten (h : ∀ b ∈ blocks, b.length = q) (k : ℕ) :
    blocks.flatten.take (k * q) = (blocks.take k).flatten := by
  induction k generalizing blocks with
  | zero => simp
  | succ k ih =>
    cases blocks with
    | nil => simp
    | cons b blocks =>
      have hb := h b List.mem_cons_self
      rw [List.flatten_cons, Nat.succ_mul, Nat.add_comm, ← hb, List.take_length_add_append, hb,
        ih fun b' hb' => h b' (List.mem_cons_of_mem b hb'), List.take_succ_cons, List.flatten_cons]

end Equal

lemma length_flatMap_append (pre : List α) (blocks : List (List α)) :
    (blocks.flatMap fun s => pre ++ s).length = blocks.length * pre.length + blocks.flatten.length := by
  induction blocks with
  | nil => simp
  | cons b blocks ih =>
    rw [List.flatMap_cons, List.length_append, ih, List.length_append, List.length_cons, Nat.succ_mul,
      List.flatten_cons, List.length_append]
    omega

lemma length_flatMap_le {f g : α → List β} {l : List α} (h : ∀ x ∈ l, (f x).length ≤ (g x).length) :
    (l.flatMap f).length ≤ (l.flatMap g).length := by
  induction l with
  | nil => exact Nat.le_refl 0
  | cons x l ih =>
    rw [List.forall_mem_cons] at h
    rw [List.flatMap_cons, List.flatMap_cons, List.length_append, List.length_append]
    exact Nat.add_le_add h.1 (ih h.2)

/-- Where no element gives less by `g`, both give the same if and only if each element does. -/
theorem flatMap_eq_flatMap_iff {f g : α → List β} {l : List α} (h : ∀ x ∈ l, (f x).length ≤ (g x).length) :
    l.flatMap g = l.flatMap f ↔ ∀ x ∈ l, g x = f x := by
  induction l with
  | nil => simp
  | cons x l ih =>
    rw [List.forall_mem_cons] at h
    rw [List.flatMap_cons, List.flatMap_cons, List.forall_mem_cons, ← ih h.2]
    have hle := length_flatMap_le h.2
    constructor
    · intro heq
      have hlength := congrArg List.length heq
      have hx := h.1
      rw [List.length_append, List.length_append] at hlength
      exact List.append_inj heq (by omega)
    · rintro ⟨hx, hl⟩
      rw [hx, hl]

/-- With `pre` put before each slice the slices are longer by its length. -/
theorem slices_insert {q : ℕ} (hq : 0 < q) (pre l : List α) :
    slices (pre.length + q) ((slices q l).flatMap fun s => pre ++ s) = (slices q l).map fun s => pre ++ s := by
  have hq' : 0 < pre.length + q := by omega
  induction l using slices_induction hq with
  | nil => simp
  | cons l hl ih =>
    have hne : pre ++ l.take q ≠ [] := by
      rw [Ne, List.append_eq_nil_iff, List.take_eq_nil_iff]
      rintro ⟨-, h0 | h0⟩
      · omega
      · exact hl h0
    have hle : (pre ++ l.take q).length ≤ pre.length + q := by simp
    rw [slices_eq_cons hq hl, List.flatMap_cons, List.map_cons]
    rcases Nat.le_total q l.length with h | h
    · have hlen : (pre ++ l.take q).length = pre.length + q := by simp [h]
      rw [slices_append hq' (by rw [hlen]), ih, slices_eq_cons hq' hne, List.take_of_length_le hle,
        List.drop_of_length_le hle, slices_nil, List.cons_append, List.nil_append]
    · rw [List.drop_of_length_le h, slices_nil, List.flatMap_nil, List.append_nil, List.map_nil,
        slices_eq_cons hq' hne, List.take_of_length_le hle, List.drop_of_length_le hle, slices_nil]

end MidnightSun.Lib

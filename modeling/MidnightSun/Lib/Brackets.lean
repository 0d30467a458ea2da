import Mathlib.Data.List.Count
import Mathlib.Data.List.Infix

/-!
# Brackets

A reader that looks for the end of a bracketed text counts: `o` opens, `c` closes, and it stops behind the symbol that
brings the depth down to zero.  `Closes` says without the reader what it looks for, and `Balanced` is what may stand
between two brackets that belong together.
-/

namespace MidnightSun.Lib

variable {α : Type*} [DecidableEq α] {o c x : α} {s t : ℕ} {l l' rest : List α}

/-- The depth behind one more symbol. -/
def depthAfter (o c : α) (s : ℕ) (x : α) : ℕ :=
  let s := if x = o then s + 1 else s
  if x = c then s - 1 else s

/-- How many symbols the reader passes, `s` brackets being open. -/
def skip (o c : α) : ℕ → List α → ℕ
  | 0, _ => 0
  | _ + 1, [] => 0
  | s + 1, x :: l => skip o c (depthAfter o c (s + 1) x) l + 1

/-- The last of `s` open brackets is closed by the last symbol of `l`, and not before. -/
def Closes (o c : α) (s : ℕ) (l : List α) : Prop :=
  l.count o + s = l.count c ∧ ∀ n < l.length, (l.take n).count c < (l.take n).count o + s

instance : Decidable (Closes o c s l) := inferInstanceAs (Decidable (_ ∧ _))

/-- One of `s` open brackets stays open before the last symbol of `l`. -/
def StaysOpen (o c : α) (s : ℕ) (l : List α) : Prop := ∀ n < l.length, (l.take n).count c < (l.take n).count o + s

instance : Decidable (StaysOpen o c s l) := inferInstanceAs (Decidable (∀ n < l.length, _))

/-- No bracket is closed that is not open, and none stays open. -/
def Balanced (o c : α) (l : List α) : Prop :=
  l.count o = l.count c ∧ ∀ n, (l.take n).count c ≤ (l.take n).count o

/-! ### The reader -/

lemma skip_zero (l : List α) : skip o c 0 l = 0 := by cases l <;> rfl

/-- A symbol counts towards the depth the way it counts towards the sums. -/
lemma depthAfter_add (hoc : o ≠ c) (s : ℕ) (x : α) :
    depthAfter o c (s + 1) x + (if x = c then 1 else 0) = (if x = o then 1 else 0) + (s + 1) := by
  unfold depthAfter
  by_cases hc : x = c
  · have ho : x ≠ o := fun ho => hoc (ho.symm.trans hc)
    simp [hc, Ne.symm hoc]
  · by_cases ho : x = o
    · simp [hoc, ho]
      omega
    · simp [hc, ho]

lemma closes_nil : Closes o c s [] ↔ s = 0 := by simp [Closes]

lemma not_closes_zero_cons (x : α) (l : List α) : ¬Closes o c 0 (x :: l) := by
  rintro ⟨-, h⟩
  have h0 := h 0 (Nat.succ_pos _)
  simp at h0

lemma count_cons_add (y : α) (m : List α) : (x :: m).count y = m.count y + if x = y then 1 else 0 := by
  simp [List.count_cons]

lemma not_staysOpen_zero_cons (x : α) (l : List α) : ¬StaysOpen o c 0 (x :: l) := by
  intro h
  have h0 := h 0 (Nat.succ_pos _)
  simp at h0

lemma staysOpen_succ_cons (hoc : o ≠ c) (s : ℕ) (x : α) (l : List α) :
    StaysOpen o c (s + 1) (x :: l) ↔ StaysOpen o c (depthAfter o c (s + 1) x) l := by
  have hstep := depthAfter_add hoc s x
  constructor
  · intro hdeep n hn
    have h := hdeep (n + 1) (Nat.succ_lt_succ hn)
    rw [List.take_succ_cons, count_cons_add, count_cons_add] at h
    omega
  · rintro hdeep (_ | n) hn
    · simp
    · have h := hdeep n (Nat.lt_of_succ_lt_succ hn)
      rw [List.take_succ_cons, count_cons_add, count_cons_add]
      omega

lemma closes_succ_cons (hoc : o ≠ c) (s : ℕ) (x : α) (l : List α) :
    Closes o c (s + 1) (x :: l) ↔ Closes o c (depthAfter o c (s + 1) x) l := by
  have hstep := depthAfter_add hoc s x
  refine and_congr ?_ (staysOpen_succ_cons hoc s x l)
  rw [count_cons_add, count_cons_add]
  omega

/-- **The reader finds the end.**  With something behind `l`, it stops behind `l` exactly if `l` closes. -/
theorem skip_append_eq_length_iff (hoc : o ≠ c) (hrest : rest ≠ []) (s : ℕ) (l : List α) :
    skip o c s (l ++ rest) = l.length ↔ Closes o c s l := by
  induction l generalizing s with
  | nil =>
    rw [closes_nil, List.nil_append, List.length_nil]
    cases s with
    | zero => simp [skip_zero]
    | succ s =>
      obtain ⟨y, ys, rfl⟩ := List.exists_cons_of_ne_nil hrest
      exact iff_of_false (Nat.succ_ne_zero _) (Nat.succ_ne_zero s)
  | cons x l ih =>
    cases s with
    | zero =>
      rw [skip_zero]
      exact iff_of_false (Nat.succ_ne_zero _).symm (not_closes_zero_cons x l)
    | succ s =>
      rw [closes_succ_cons hoc, ← ih, List.cons_append, List.length_cons, skip, Nat.add_right_cancel_iff]

/-- At the end of the text it stops in any case. -/
theorem skip_eq_length_iff (hoc : o ≠ c) (s : ℕ) (l : List α) : skip o c s l = l.length ↔ StaysOpen o c s l := by
  induction l generalizing s with
  | nil => cases s <;> simp [skip, StaysOpen]
  | cons x l ih =>
    cases s with
    | zero =>
      rw [skip_zero]
      exact iff_of_false (Nat.succ_ne_zero _).symm (not_staysOpen_zero_cons x l)
    | succ s => rw [staysOpen_succ_cons hoc, ← ih, List.length_cons, skip, Nat.add_right_cancel_iff]

theorem Closes.skip_append (hoc : o ≠ c) (h : Closes o c s l) (rest : List α) : skip o c s (l ++ rest) = l.length := by
  induction l generalizing s with
  | nil =>
    rw [closes_nil.mp h, skip_zero]
    rfl
  | cons x l ih =>
    cases s with
    | zero => exact absurd h (not_closes_zero_cons x l)
    | succ s => rw [List.cons_append, skip, ih ((closes_succ_cons hoc s x l).mp h), List.length_cons]

lemma skip_le_length (s : ℕ) (l : List α) : skip o c s l ≤ l.length := by
  induction l generalizing s with
  | nil => cases s <;> exact Nat.le_refl 0
  | cons x l ih =>
    cases s with
    | zero => exact Nat.zero_le _
    | succ s => exact Nat.succ_le_succ (ih _)

/-! ### Balanced texts -/

lemma Balanced.nil : Balanced o c [] := ⟨rfl, fun n => by simp⟩

lemma Balanced.of_not_mem (ho : o ∉ l) (hc : c ∉ l) : Balanced o c l := by
  refine ⟨by rw [List.count_eq_zero_of_not_mem ho, List.count_eq_zero_of_not_mem hc], fun n => ?_⟩
  rw [List.count_eq_zero_of_not_mem fun h => hc (List.mem_of_mem_take h)]
  exact Nat.zero_le _

lemma Balanced.append (h : Balanced o c l) (h' : Balanced o c l') : Balanced o c (l ++ l') := by
  refine ⟨by rw [List.count_append, List.count_append, h.1, h'.1], fun n => ?_⟩
  have hl := h.2 n
  have hl' := h'.2 (n - l.length)
  rw [List.take_append, List.count_append, List.count_append]
  omega

/-- What is balanced up to the closing bracket closes the one before it. -/
theorem Balanced.closes (hoc : o ≠ c) (h : Balanced o c l) : Closes o c 1 (l ++ [c]) := by
  obtain ⟨htotal, hdeep⟩ := h
  constructor
  · rw [List.count_append, List.count_append, htotal, List.count_singleton_self, List.count_singleton,
      if_neg (by simpa using Ne.symm hoc)]
  · intro n hn
    have hle : n ≤ l.length := by
      rw [List.length_append, List.length_singleton] at hn
      omega
    have h := hdeep n
    rw [List.take_append_of_le_length hle]
    omega

/-- A pair of brackets around a balanced text is balanced. -/
lemma Balanced.wrap (hoc : o ≠ c) (h : Balanced o c l) : Balanced o c (o :: l ++ [c]) := by
  obtain ⟨htotal, hdeep⟩ := h.closes hoc
  have hsums : ∀ m : List α, (o :: m).count o = m.count o + 1 ∧ (o :: m).count c = m.count c := fun m => by
    simp [hoc]
  rw [List.cons_append]
  refine ⟨by rw [(hsums _).1, (hsums _).2, htotal], ?_⟩
  rintro (_ | n)
  · simp
  · rw [List.take_succ_cons, (hsums _).1, (hsums _).2]
    by_cases hn : n < (l ++ [c]).length
    · exact Nat.le_of_lt (hdeep n hn)
    · rw [List.take_of_length_le (Nat.le_of_not_lt hn), htotal]

end MidnightSun.Lib

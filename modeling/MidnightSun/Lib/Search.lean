import Mathlib.Data.List.Infix

/-!
# The first occurrence of a word in a list
-/

namespace MidnightSun.Lib

variable {α : Type*} {needle l : List α} {i j : ℕ}

/-- `needle` occurs in `l` from the position `i` on. -/
def OccursAt (needle l : List α) (i : ℕ) : Prop := needle <+: l.drop i

/-- Where `needle` occurs first. -/
def search [DecidableEq α] (needle : List α) : List α → Option ℕ
  | [] => if needle = [] then some 0 else none
  | c :: cs => if needle <+: c :: cs then some 0 else (search needle cs).map (· + 1)

lemma OccursAt.length_le (hne : needle ≠ []) (h : OccursAt needle l i) : i + needle.length ≤ l.length := by
  have hle := List.IsPrefix.length_le h
  have hpos := List.length_pos_iff.mpr hne
  rw [List.length_drop] at hle
  omega

theorem OccursAt.append (h : OccursAt needle l i) (before after : List α) :
    OccursAt needle (before ++ l ++ after) (before.length + i) := by
  obtain ⟨t, ht⟩ := h
  refine ⟨t ++ after.drop (i - l.length), ?_⟩
  rw [← List.append_assoc, ht, List.append_assoc, ← List.drop_drop, List.drop_left, List.drop_append]

theorem OccursAt.within (before after : List α) (h : OccursAt needle (before ++ l ++ after) (before.length + i))
    (hi : i + needle.length ≤ l.length) : OccursAt needle l i := by
  rw [OccursAt, List.append_assoc, ← List.drop_drop, List.drop_left, List.drop_append_of_le_length (by omega)] at h
  refine List.prefix_of_prefix_length_le h (List.prefix_append _ _) ?_
  rw [List.length_drop]
  omega

variable [DecidableEq α]

theorem search_eq_none_iff (hne : needle ≠ []) : search needle l = none ↔ ∀ i, ¬OccursAt needle l i := by
  induction l with
  | nil =>
    rw [search, if_neg hne]
    refine iff_of_true rfl fun i h => ?_
    have hle := h.length_le hne
    have hpos := List.length_pos_iff.mpr hne
    rw [List.length_nil] at hle
    omega
  | cons c cs ih =>
    rw [search]
    split_ifs with h
    · refine iff_of_false not_false fun hall => ?_
      exact hall 0 h
    · rw [Option.map_eq_none_iff, ih]
      constructor
      · rintro hall (_ | i)
        · exact h
        · exact hall i
      · intro hall i
        exact hall (i + 1)

theorem search_eq_some_iff (hne : needle ≠ []) :
    search needle l = some i ↔ OccursAt needle l i ∧ ∀ j < i, ¬OccursAt needle l j := by
  induction l generalizing i with
  | nil =>
    rw [search, if_neg hne]
    refine iff_of_false (Option.some_ne_none i).symm fun h => ?_
    have hle := h.1.length_le hne
    have hpos := List.length_pos_iff.mpr hne
    rw [List.length_nil] at hle
    omega
  | cons c cs ih =>
    rw [search]
    split_ifs with h
    · rw [Option.some.injEq]
      constructor
      · rintro rfl
        exact ⟨h, fun j hj => absurd hj (Nat.not_lt_zero j)⟩
      · rintro ⟨-, hfirst⟩
        by_contra hi
        exact hfirst 0 (Nat.pos_of_ne_zero fun h0 => hi h0.symm) h
    · rw [Option.map_eq_some_iff]
      constructor
      · rintro ⟨k, hk, rfl⟩
        obtain ⟨hoccurs, hfirst⟩ := ih.mp hk
        refine ⟨hoccurs, ?_⟩
        rintro (_ | j) hj
        · exact h
        · exact hfirst j (by omega)
      · rintro ⟨hoccurs, hfirst⟩
        cases i with
        | zero => exact absurd hoccurs h
        | succ k => exact ⟨k, ih.mpr ⟨hoccurs, fun j hj => hfirst (j + 1) (by omega)⟩, rfl⟩

end MidnightSun.Lib

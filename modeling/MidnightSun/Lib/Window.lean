import Mathlib.Data.List.Basic
import Mathlib.Data.Nat.Notation
import Mathlib.Order.Bounds.Basic

/-!
# The highest level of the recent past

A log holds, for each level, the last time at which the level was noted.  `peak` reads off it the highest level that was
noted less than `timeout` ago, and what lies above the peak may be forgotten: `Remembers` says that a log still knows
everything recent of a list of notes, and `peak_isGreatest` that the peak is then the greatest level in the window.
-/

namespace MidnightSun.Lib

/-- The log has `n` levels from now on. -/
def resizeLog (log : List (Option ℕ)) (n : ℕ) : List (Option ℕ) :=
  log.take n ++ List.replicate (n - log.length) none

def noteLevel (log : List (Option ℕ)) (level now : ℕ) : List (Option ℕ) :=
  (if log.length ≤ level then resizeLog log (level + 1) else log).set level (some now)

def recent (timeout now : ℕ) : Option ℕ → Bool
  | some t => decide (now - t < timeout)
  | none => false

/-- The last level from `level` on that was noted recently. -/
def peak (timeout now : ℕ) (log : List (Option ℕ)) (level : ℕ) : ℕ :=
  (List.range' level (log.length - level)).foldl
    (fun best i => if recent timeout now (log.getD i none) then i else best) level

/-! ### Logs as functions of the level -/

theorem resizeLog_length (log : List (Option ℕ)) (n : ℕ) : (resizeLog log n).length = n := by
  unfold resizeLog
  rw [List.length_append, List.length_take, List.length_replicate]
  omega

theorem resizeLog_getD (log : List (Option ℕ)) (n i : ℕ) :
    (resizeLog log n).getD i none = if i < n then log.getD i none else none := by
  unfold resizeLog
  simp only [List.getD_eq_getElem?_getD, List.getElem?_append, List.length_take, List.getElem?_take,
    List.getElem?_replicate]
  by_cases hin : i < n
  · by_cases hil : i < log.length
    · rw [if_pos (by omega), if_pos hin, if_pos hin]
    · rw [if_neg (by omega), if_pos (by omega), if_pos hin, List.getElem?_eq_none (by omega)]
      rfl
  · rw [if_neg (by omega), if_neg (by omega), if_neg hin]
    rfl

theorem noteLevel_length (log : List (Option ℕ)) (level now : ℕ) :
    level < (noteLevel log level now).length := by
  unfold noteLevel
  rw [List.length_set]
  split
  · rw [resizeLog_length]
    omega
  · omega

theorem noteLevel_getD (log : List (Option ℕ)) (level now i : ℕ) :
    (noteLevel log level now).getD i none = if i = level then some now else log.getD i none := by
  have hlen := noteLevel_length log level now
  unfold noteLevel at hlen ⊢
  rw [List.length_set] at hlen
  rw [List.getD_eq_getElem?_getD, List.getElem?_set]
  by_cases hi : i = level
  · subst hi
    rw [if_pos rfl, if_pos hlen, if_pos rfl]
    rfl
  · rw [if_neg (by omega), if_neg hi]
    split
    next hle =>
      rw [← List.getD_eq_getElem?_getD, resizeLog_getD]
      split
      · rfl
      · rw [List.getD_eq_getElem?_getD, List.getElem?_eq_none (by omega)]
        rfl
    next => rw [← List.getD_eq_getElem?_getD]

/-- The last place where `p` holds, or else the first place of all. -/
theorem foldl_last_isGreatest (p : ℕ → Bool) (a n : ℕ) :
    IsGreatest {i | i = a ∨ a ≤ i ∧ i < a + n ∧ p i = true}
      ((List.range' a n).foldl (fun best i => if p i then i else best) a) := by
  induction n with
  | zero =>
    refine ⟨Or.inl rfl, ?_⟩
    rintro i (rfl | ⟨hai, hin, -⟩)
    · exact Nat.le_refl _
    · omega
  | succ n ih =>
    rw [List.range'_concat, List.foldl_append]
    simp only [List.foldl_cons, List.foldl_nil, Nat.one_mul]
    split
    next hp =>
      refine ⟨Or.inr ⟨by omega, by omega, hp⟩, ?_⟩
      rintro i (rfl | ⟨-, hin, -⟩) <;> omega
    next hp =>
      refine ⟨?_, ?_⟩
      · rcases ih.1 with h | ⟨hai, hin, hpi⟩
        · exact Or.inl h
        · exact Or.inr ⟨hai, by omega, hpi⟩
      · rintro i (rfl | ⟨hai, hin, hpi⟩)
        · exact ih.2 (Or.inl rfl)
        · have hne : i ≠ a + n := by
            rintro rfl
            exact hp hpi
          exact ih.2 (Or.inr ⟨hai, by omega, hpi⟩)

/-! ### What a log remembers -/

/-- The log knows every note that is not older than `timeout`, and nothing that was not noted.  A note is a time and a
level. -/
structure Remembers (timeout now : ℕ) (log : List (Option ℕ)) (notes : List (ℕ × ℕ)) : Prop where
  sound : ∀ i t, log.getD i none = some t → (t, i) ∈ notes
  complete : ∀ t i, (t, i) ∈ notes → now < t + timeout → ∃ t', log.getD i none = some t' ∧ t ≤ t'
  past : ∀ t i, (t, i) ∈ notes → t ≤ now

/-- The levels noted less than `timeout` ago. -/
def inWindow (timeout now : ℕ) (notes : List (ℕ × ℕ)) : Set ℕ :=
  {i | ∃ t, (t, i) ∈ notes ∧ now < t + timeout}

theorem inWindow_anti {timeout now later : ℕ} {notes : List (ℕ × ℕ)} (hle : now ≤ later) {i : ℕ}
    (h : i ∈ inWindow timeout later notes) : i ∈ inWindow timeout now notes := by
  obtain ⟨t, hm, ht⟩ := h
  exact ⟨t, hm, by omega⟩

namespace Remembers

variable {timeout now : ℕ} {log : List (Option ℕ)} {notes : List (ℕ × ℕ)}

theorem nil (timeout now : ℕ) : Remembers timeout now [] [] where
  sound := by
    intro i t h
    cases h
  complete := by
    intro t i h
    cases h
  past := by
    intro t i h
    cases h

theorem wait {later : ℕ} (h : Remembers timeout now log notes) (hle : now ≤ later) :
    Remembers timeout later log notes where
  sound := h.sound
  complete t i hm ht := h.complete t i hm (by omega)
  past t i hm := Nat.le_trans (h.past t i hm) hle

theorem note (h : Remembers timeout now log notes) (level : ℕ) :
    Remembers timeout now (noteLevel log level now) (notes ++ [(now, level)]) where
  sound := by
    intro i t hi
    rw [noteLevel_getD] at hi
    split at hi
    next hlevel =>
      obtain rfl := Option.some.inj hi
      subst hlevel
      exact List.mem_append_right _ List.mem_cons_self
    next => exact List.mem_append_left _ (h.sound i t hi)
  complete := by
    intro t i hm ht
    rw [noteLevel_getD]
    rcases List.mem_append.mp hm with hm | hm
    · split
      · exact ⟨now, rfl, h.past t i hm⟩
      · exact h.complete t i hm ht
    · obtain ⟨rfl, rfl⟩ := Prod.mk.inj (List.mem_singleton.mp hm)
      rw [if_pos rfl]
      exact ⟨t, rfl, Nat.le_refl _⟩
  past := by
    intro t i hm
    rcases List.mem_append.mp hm with hm | hm
    · exact h.past t i hm
    · obtain ⟨rfl, -⟩ := Prod.mk.inj (List.mem_singleton.mp hm)
      exact Nat.le_refl _

/-- **The peak is the greatest level in the window**, if the level it starts from was noted just now. -/
theorem peak_isGreatest (h : Remembers timeout now log notes) (htimeout : 0 < timeout) {level : ℕ}
    (hlevel : (now, level) ∈ notes) :
    IsGreatest (inWindow timeout now notes) (peak timeout now log level) := by
  have hlast := foldl_last_isGreatest (fun i => recent timeout now (log.getD i none)) level (log.length - level)
  refine ⟨?_, ?_⟩
  · rcases hlast.1 with heq | ⟨-, -, hrec⟩
    · unfold peak
      rw [heq]
      exact ⟨now, hlevel, by omega⟩
    · unfold recent at hrec
      split at hrec
      next t ht =>
        have hnow := h.past _ _ (h.sound _ _ ht)
        exact ⟨t, h.sound _ _ ht, by have := of_decide_eq_true hrec; omega⟩
      next => cases hrec
  · rintro i ⟨t, hm, ht⟩
    obtain ⟨t', hi, hle⟩ := h.complete t i hm ht
    by_cases hil : level ≤ i
    · have hlen : i < log.length := by
        apply Decidable.byContradiction
        intro hge
        rw [List.getD_eq_getElem?_getD, List.getElem?_eq_none (by omega)] at hi
        cases hi
      refine hlast.2 (Or.inr ⟨hil, by omega, ?_⟩)
      have hnow := h.past _ _ (h.sound _ _ hi)
      simp only [hi, recent, decide_eq_true_eq]
      omega
    · have := hlast.2 (Or.inl rfl)
      unfold peak
      omega

/-- What lies above the greatest recent level need not be remembered. -/
theorem forget (h : Remembers timeout now log notes) {n : ℕ} (hn : ∀ i ∈ inWindow timeout now notes, i ≤ n) :
    Remembers timeout now (resizeLog log (n + 1)) notes where
  sound := by
    intro i t hi
    rw [resizeLog_getD] at hi
    split at hi
    · exact h.sound i t hi
    · cases hi
  complete := by
    intro t i hm ht
    have hle : i ≤ n := hn i ⟨t, hm, ht⟩
    rw [resizeLog_getD, if_pos (by omega)]
    exact h.complete t i hm ht
  past := h.past

end Remembers

theorem level_le_peak (timeout now : ℕ) (log : List (Option ℕ)) (level : ℕ) : level ≤ peak timeout now log level :=
  (foldl_last_isGreatest (fun i => recent timeout now (log.getD i none)) level (log.length - level)).2 (Or.inl rfl)

end MidnightSun.Lib

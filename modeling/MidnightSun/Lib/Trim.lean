import Mathlib.Data.List.DropRight
import Mathlib.Data.List.TakeWhile

/-!
# Trimming

A list without the elements of a kind at its two ends.
-/

namespace MidnightSun.Lib

variable {α : Type*} {p : α → Bool} {l l' : List α} {x : α}

lemma rdropWhile_append_cons (h : p x = false) (l l' : List α) :
    (l ++ x :: l').rdropWhile p = l ++ x :: l'.rdropWhile p := by
  have hrev : (l ++ x :: l').reverse = l'.reverse ++ x :: l.reverse := by simp
  rw [List.rdropWhile, hrev, List.dropWhile_append, List.rdropWhile]
  split_ifs with hempty
  · rw [List.isEmpty_iff.mp hempty, List.dropWhile_cons_of_neg (ne_true_of_eq_false h)]
    simp
  · simp

lemma rdropWhile_append_of_all (h : ∀ c ∈ l', p c = true) : (l ++ l').rdropWhile p = l.rdropWhile p := by
  simp only [List.rdropWhile, List.reverse_append]
  rw [List.dropWhile_append_of_pos fun c hc => h c (List.mem_reverse.mp hc)]

/-- What is left between the elements of a kind. -/
def trim (p : α → Bool) (l : List α) : List α := (l.dropWhile p).rdropWhile p

theorem trim_eq_nil_iff : trim p l = [] ↔ ∀ x ∈ l, p x = true := by
  rw [trim, List.rdropWhile_eq_nil_iff]
  constructor
  · intro h x hx
    rw [← List.takeWhile_append_dropWhile (p := p) (l := l)] at hx
    rcases List.mem_append.mp hx with hx | hx
    · exact List.mem_takeWhile_imp hx
    · exact h x hx
  · intro h x hx
    exact h x (List.dropWhile_subset p hx)

lemma exists_eq_trim (p : α → Bool) (l : List α) :
    ∃ before after, (∀ x ∈ before, p x = true) ∧ (∀ x ∈ after, p x = true) ∧ l = before ++ trim p l ++ after := by
  refine ⟨l.takeWhile p, (l.dropWhile p).rtakeWhile p, fun _ => List.mem_takeWhile_imp,
    fun _ => List.mem_rtakeWhile_imp, ?_⟩
  rw [trim, List.append_assoc, List.rdropWhile_append_rtakeWhile, List.takeWhile_append_dropWhile]

/-- What starts and ends with other elements is what is left of it between elements of the kind. -/
theorem trim_append {before after : List α} (hbefore : ∀ x ∈ before, p x = true) (hafter : ∀ x ∈ after, p x = true)
    (hhead : ∀ x ∈ l.head?, p x = false) (hlast : ∀ x ∈ l.getLast?, p x = false) (hne : l ≠ []) :
    trim p (before ++ l ++ after) = l := by
  obtain ⟨x, rest, rfl⟩ := List.exists_cons_of_ne_nil hne
  have hdrop : (before ++ x :: rest ++ after).dropWhile p = x :: rest ++ after := by
    rw [List.append_assoc, List.dropWhile_append_of_pos hbefore]
    exact List.dropWhile_cons_of_neg (ne_true_of_eq_false (hhead x rfl))
  rw [trim, hdrop, rdropWhile_append_of_all hafter, List.rdropWhile_eq_self_iff]
  intro h
  exact ne_true_of_eq_false (hlast _ (List.getLast?_eq_some_getLast h))

end MidnightSun.Lib

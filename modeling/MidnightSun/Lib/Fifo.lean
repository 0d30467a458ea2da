import Mathlib.Data.List.Nodup

/-!
# First in, first out

The elements that came to a queue, those that were taken from it, and those it holds, each in their order.  An element
that came and is neither taken nor held is lost.
-/

namespace MidnightSun.Lib

variable {α : Type*} {came taken held : List α} {x y : α}

/-- The elements that were taken came before those that are held, and all in their order. -/
def InOrder (came taken held : List α) : Prop := (taken ++ held).Sublist came

/-- The element came, and it is neither taken nor held. -/
def Lost (came taken held : List α) (x : α) : Prop := x ∈ came ∧ x ∉ taken ∧ x ∉ held

namespace InOrder

lemma empty : InOrder ([] : List α) [] [] := List.Sublist.slnil

lemma come (h : InOrder came taken held) (x : α) : InOrder (came ++ [x]) taken (held ++ [x]) := by
  unfold InOrder
  rw [← List.append_assoc]
  exact List.Sublist.append h (List.Sublist.refl [x])

lemma clear (h : InOrder came taken held) (x : α) : InOrder (came ++ [x]) taken [x] :=
  List.Sublist.append ((List.sublist_append_left taken held).trans h) (List.Sublist.refl [x])

lemma refuse (h : InOrder came taken held) (x : α) : InOrder (came ++ [x]) taken held :=
  List.Sublist.trans h (List.sublist_append_left came [x])

lemma take (h : InOrder came taken (x :: held)) : InOrder came (taken ++ [x]) held := by
  unfold InOrder at h ⊢
  rwa [List.append_assoc, List.singleton_append]

lemma taken_sublist (h : InOrder came taken held) : taken.Sublist came :=
  (List.sublist_append_left taken held).trans h

lemma mem_held (h : InOrder came taken held) (hcame : came.Nodup) (hx : x ∈ held) : x ∈ came ∧ x ∉ taken := by
  refine ⟨h.subset (List.mem_append_right taken hx), fun hxt => ?_⟩
  have hdisjoint := (List.nodup_append'.mp (h.nodup hcame)).2.2
  exact hdisjoint hxt hx

end InOrder

/-! ### What is lost -/

lemma lost_take : Lost came (taken ++ [x]) held y ↔ Lost came taken (x :: held) y := by
  unfold Lost
  rw [List.mem_append, List.mem_singleton, List.mem_cons]
  tauto

lemma lost_come (hx : x ∉ came) : Lost (came ++ [x]) taken (held ++ [x]) y ↔ Lost came taken held y := by
  unfold Lost
  rw [List.mem_append, List.mem_append, List.mem_singleton]
  constructor
  · rintro ⟨hcame | rfl, htaken, hheld⟩
    · exact ⟨hcame, htaken, fun h => hheld (Or.inl h)⟩
    · exact absurd (Or.inr rfl) hheld
  · rintro ⟨hcame, htaken, hheld⟩
    refine ⟨Or.inl hcame, htaken, ?_⟩
    rintro (h | rfl)
    · exact hheld h
    · exact hx hcame

/-- All that was held is lost, and nothing else. -/
theorem lost_clear (h : InOrder came taken held) (hcame : came.Nodup) (hx : x ∉ came) :
    Lost (came ++ [x]) taken [x] y ↔ Lost came taken held y ∨ y ∈ held := by
  unfold Lost
  rw [List.mem_append, List.mem_singleton]
  constructor
  · rintro ⟨hy | rfl, htaken, hne⟩
    · by_cases hheld : y ∈ held
      · exact Or.inr hheld
      · exact Or.inl ⟨hy, htaken, hheld⟩
    · exact absurd rfl hne
  · rintro (⟨hy, htaken, -⟩ | hheld)
    · exact ⟨Or.inl hy, htaken, fun heq => hx (heq ▸ hy)⟩
    · obtain ⟨hy, htaken⟩ := h.mem_held hcame hheld
      exact ⟨Or.inl hy, htaken, fun heq => hx (heq ▸ hy)⟩

end MidnightSun.Lib

import Mathlib.Data.List.Sort

/-!
# Lists in descending order of a key

The next element is at the back.  Insertion walks from the front to the first smaller key; an element whose key has
changed is settled by one pass toward the front.
-/

namespace MidnightSun.Lib

variable {K V : Type*} [LinearOrder K]

def Descending (l : List (K × V)) : Prop := l.Pairwise fun a b => b.1 ≤ a.1

/-- Insertion before the first element with a smaller key. -/
def insertDescending (x : K × V) (l : List (K × V)) : List (K × V) := l.orderedInsert (fun x e => e.1 < x.1) x

/-- One pass from `x` toward the front, swapping each neighbour with a smaller key to the back.  `before` is the part in
front of `x`, the nearest first. -/
def settle : List (K × V) → K × V → List (K × V) → List (K × V)
  | [], x, after => x :: after
  | p :: before, x, after => if p.1 < x.1 then settle before x (p :: after) else settle before p (x :: after)

variable {x : K × V} {l before after : List (K × V)}

theorem insertDescending_perm : (insertDescending x l).Perm (x :: l) := List.perm_orderedInsert ..

theorem Descending.insert (h : Descending l) : Descending (insertDescending x l) := by
  induction l with
  | nil => exact List.pairwise_singleton ..
  | cons e l ih =>
    obtain ⟨hle, hl⟩ := List.pairwise_cons.mp h
    rw [insertDescending, List.orderedInsert_cons]
    split
    next hlt =>
      refine List.pairwise_cons.mpr ⟨fun f hf => ?_, h⟩
      rcases List.mem_cons.mp hf with rfl | hf
      · exact hlt.le
      · exact (hle f hf).trans hlt.le
    next hge =>
      refine List.pairwise_cons.mpr ⟨fun f hf => ?_, ih hl⟩
      rcases List.mem_cons.mp ((insertDescending_perm (x := x)).mem_iff.mp hf) with rfl | hf
      · exact not_lt.mp hge
      · exact hle f hf

theorem settle_perm : (settle before x after).Perm (before ++ x :: after) := by
  induction before generalizing x after with
  | nil => exact List.Perm.refl _
  | cons p before ih =>
    unfold settle
    split
    · calc settle before x (p :: after)
        _ |>.Perm (before ++ x :: p :: after) := ih
        _ |>.Perm (before ++ p :: x :: after) := (List.Perm.swap p x after).append_left before
        _ |>.Perm (p :: (before ++ x :: after)) := List.perm_middle
    · exact ih.trans List.perm_middle

/-- An element whose key is not smaller than those behind it is settled. -/
theorem Descending.settle (hafter : Descending after) (hx : ∀ e ∈ after, e.1 ≤ x.1)
    (hbefore : before.Pairwise fun a b => a.1 ≤ b.1) (hle : ∀ p ∈ before, ∀ e ∈ after, e.1 ≤ p.1) :
    Descending (settle before x after) := by
  induction before generalizing x after with
  | nil => exact List.pairwise_cons.mpr ⟨hx, hafter⟩
  | cons p before ih =>
    obtain ⟨hp, hbefore⟩ := List.pairwise_cons.mp hbefore
    have hpafter : ∀ e ∈ after, e.1 ≤ p.1 := hle p List.mem_cons_self
    have hle' : ∀ q ∈ before, ∀ e ∈ after, e.1 ≤ q.1 := fun q hq => hle q (List.mem_cons_of_mem _ hq)
    unfold Lib.settle
    split
    next hlt =>
      refine ih (List.pairwise_cons.mpr ⟨hpafter, hafter⟩) ?_ hbefore ?_
      · exact List.forall_mem_cons.mpr ⟨hlt.le, hx⟩
      · exact fun q hq => List.forall_mem_cons.mpr ⟨hp q hq, hle' q hq⟩
    next hge =>
      have hxp := not_lt.mp hge
      refine ih (List.pairwise_cons.mpr ⟨hx, hafter⟩) ?_ hbefore ?_
      · exact List.forall_mem_cons.mpr ⟨hxp, hpafter⟩
      · exact fun q hq => List.forall_mem_cons.mpr ⟨hxp.trans (hp q hq), hle' q hq⟩

theorem sublist_settle : (x :: after).Sublist (settle before x after) := by
  induction before generalizing x after with
  | nil => exact List.Sublist.refl _
  | cons p before ih =>
    unfold settle
    split
    · exact ((List.sublist_cons_self p after).cons_cons x).trans ih
    · exact (List.sublist_cons_self p (x :: after)).trans ih

theorem Descending.of_settle (h : Descending (Lib.settle before x after)) : ∀ e ∈ after, e.1 ≤ x.1 :=
  (List.pairwise_cons.mp (h.sublist sublist_settle)).1

theorem Descending.getLast_le (h : Descending l) {e : K × V} (he : l.getLast? = some e) : ∀ f ∈ l, e.1 ≤ f.1 := by
  obtain ⟨init, rfl⟩ := List.getLast?_eq_some_iff.mp he
  intro f hf
  rcases List.mem_append.mp hf with hf | hf
  · exact (List.pairwise_append.mp h).2.2 f hf e (List.mem_singleton_self e)
  · rw [List.mem_singleton.mp hf]

end MidnightSun.Lib

import Mathlib.Data.List.Nodup

/-!
# Maps as lists of keys and values

The first entry of a key is the one that is found.
-/

namespace MidnightSun.Lib

variable {α β : Type*} [BEq α] {l : List (α × β)} {k : α} {v : β}

/-- A new key gets an entry, and a known one keeps its own. -/
def emplace (l : List (α × β)) (x : α × β) : List (α × β) := if (l.lookup x.1).isSome then l else l ++ [x]

lemma emplace_of_none (h : l.lookup k = none) (v : β) : emplace l (k, v) = l ++ [(k, v)] := by
  simp [emplace, h]

lemma lookup_emplace_of_some (h : l.lookup k = some v) (x : α × β) : (emplace l x).lookup k = some v := by
  unfold emplace
  split_ifs
  · exact h
  · rw [List.lookup_append, h, Option.some_or]

variable [LawfulBEq α]

lemma lookup_append_singleton_of_ne {k' : α} (h : l.lookup k = none) (hne : k ≠ k') (v : β) :
    (l ++ [(k', v)]).lookup k = none := by
  have hbeq : (k == k') = false := by simpa using hne
  rw [List.lookup_append, h, Option.none_or, List.lookup_cons, hbeq]
  rfl

/-- Entries put in one after the other are found as in the list of them. -/
theorem lookup_foldl_emplace (l entries : List (α × β)) (k : α) :
    (entries.foldl emplace l).lookup k = (l ++ entries).lookup k := by
  induction entries generalizing l with
  | nil => rw [List.append_nil, List.foldl_nil]
  | cons x entries ih =>
    rw [List.foldl_cons, ih, List.append_cons, List.lookup_append, List.lookup_append]
    congr 1
    rw [emplace]
    split_ifs with h
    · rw [List.lookup_append]
      by_cases hk : k = x.1
      · rw [hk]
        obtain ⟨v, hv⟩ := Option.isSome_iff_exists.mp h
        rw [hv, Option.some_or]
      · have hbeq : (k == x.1) = false := by simpa using hk
        rw [List.lookup_cons, hbeq]
        simp
    · rfl

/-- A key has one value. -/
theorem lookup_eq_some_of_keys (hl : (l.map Prod.fst).Nodup) : l.lookup k = some v ↔ (k, v) ∈ l := by
  induction l with
  | nil => simp
  | cons x l ih =>
    obtain ⟨k', v'⟩ := x
    rw [List.map_cons, List.nodup_cons] at hl
    rw [List.lookup_cons]
    by_cases hk : k = k'
    · subst hk
      simp only [beq_self_eq_true, List.mem_cons, Prod.mk.injEq, true_and, Option.some.injEq]
      constructor
      · exact fun h => Or.inl h.symm
      · rintro (h | h)
        · exact h.symm
        · exact absurd (List.mem_map_of_mem (f := Prod.fst) h) hl.1
    · have hbeq : (k == k') = false := by simpa using hk
      simp only [hbeq, List.mem_cons, Prod.mk.injEq, hk, false_and, false_or]
      exact ih hl.2

end MidnightSun.Lib

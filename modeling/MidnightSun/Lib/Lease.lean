import Mathlib.Data.Set.Insert
import Mathlib.Logic.Function.Basic
import MidnightSun.Lib.Run

/-!
# Leased resources

Owners lease resources, one each.  An owner gives its resource back itself, or retires and leaves it to be given back
later (`returning`).  `taken` is the bookkeeping of the lender; `Exact` says that it never disagrees with the owners.
The events of a step are what an outside observer sees; `leased` reads the same information off the events.
-/

namespace MidnightSun.Lib

variable {O I : Type*}

/-- What an observer of the resources sees. -/
inductive LeaseEvent (I : Type*) where
  | grant (i : I)
  | giveBack (i : I)

/-- The resource is out on lease after these events. -/
def leased [DecidableEq I] (evs : List (LeaseEvent I)) (i : I) : Bool :=
  evs.foldl (fun out ev => match ev with
    | .grant j => if j = i then true else out
    | .giveBack j => if j = i then false else out) false

@[simp] theorem leased_nil [DecidableEq I] (i : I) : leased [] i = false := rfl

theorem leased_snoc_grant [DecidableEq I] (evs : List (LeaseEvent I)) (i j : I) :
    leased (evs ++ [.grant j]) i = if j = i then true else leased evs i := by
  simp [leased, List.foldl_append]

theorem leased_snoc_giveBack [DecidableEq I] (evs : List (LeaseEvent I)) (i j : I) :
    leased (evs ++ [.giveBack j]) i = if j = i then false else leased evs i := by
  simp [leased, List.foldl_append]

structure Leases (O I : Type*) where
  held : O → Option I
  returning : List I
  taken : Set I

namespace Leases

def empty : Leases O I where
  held := fun _ => none
  returning := []
  taken := ∅

/-- The resources held and those on their way back are pairwise distinct, and they are exactly the taken ones. -/
structure Exact (s : Leases O I) : Prop where
  held_inj : ∀ o p i, s.held o = some i → s.held p = some i → o = p
  returning_nodup : s.returning.Nodup
  held_not_returning : ∀ o i, s.held o = some i → i ∉ s.returning
  taken_iff : ∀ i, i ∈ s.taken ↔ (∃ o, s.held o = some i) ∨ i ∈ s.returning

theorem exact_empty : (empty : Leases O I).Exact where
  held_inj := by
    intro o p i h
    cases h
  returning_nodup := List.nodup_nil
  held_not_returning := by
    intro o i h
    cases h
  taken_iff := by simp [empty]

/-- The leases are exact, and what is taken is what the events say is out. -/
structure Accounted [DecidableEq I] (evs : List (LeaseEvent I)) (s : Leases O I) : Prop where
  exact : s.Exact
  taken_iff_leased : ∀ i, i ∈ s.taken ↔ leased evs i = true

theorem accounted_empty [DecidableEq I] : Accounted [] (empty : Leases O I) where
  exact := exact_empty
  taken_iff_leased := by simp [empty]

theorem Accounted.leased_of_held [DecidableEq I] {s : Leases O I} {evs : List (LeaseEvent I)} (h : Accounted evs s)
    {o : O} {i : I} (ho : s.held o = some i) : leased evs i = true :=
  (h.taken_iff_leased i).mp ((h.exact.taken_iff i).mpr (Or.inl ⟨o, ho⟩))

theorem Accounted.leased_of_returning [DecidableEq I] {s : Leases O I} {evs : List (LeaseEvent I)}
    (h : Accounted evs s) {i : I} (hi : i ∈ s.returning) : leased evs i = true :=
  (h.taken_iff_leased i).mp ((h.exact.taken_iff i).mpr (Or.inr hi))

variable [DecidableEq O]

inductive Step (s : Leases O I) : List (LeaseEvent I) → Leases O I → Prop
  | grant (o : O) (i : I) : s.held o = none → i ∉ s.taken →
      Step s [.grant i]
        { held := Function.update s.held o (some i), returning := s.returning, taken := insert i s.taken }
  | release (o : O) (i : I) : s.held o = some i →
      Step s [.giveBack i]
        { held := Function.update s.held o none, returning := s.returning, taken := s.taken \ {i} }
  | retire (o : O) (i : I) : s.held o = some i →
      Step s [] { held := Function.update s.held o none, returning := s.returning ++ [i], taken := s.taken }
  | giveBack (i : I) (rest : List I) : s.returning = i :: rest →
      Step s [.giveBack i] { held := s.held, returning := rest, taken := s.taken \ {i} }

theorem update_none_eq_some {f : O → Option I} {o p : O} {i : I} (h : Function.update f o none p = some i) :
    f p = some i ∧ p ≠ o := by
  rw [Function.update_apply] at h
  split at h
  · cases h
  · exact ⟨h, ‹_›⟩

section

variable {s : Leases O I} {o : O} {i : I}

theorem Exact.grant (h : s.Exact) (hnone : s.held o = none) (hfree : i ∉ s.taken) :
    Exact { held := Function.update s.held o (some i), returning := s.returning, taken := insert i s.taken } := by
  have hnot : ∀ p, s.held p ≠ some i := fun p hp => hfree ((h.taken_iff i).mpr (Or.inl ⟨p, hp⟩))
  have hret : i ∉ s.returning := fun hi => hfree ((h.taken_iff i).mpr (Or.inr hi))
  refine ⟨?_, h.returning_nodup, ?_, ?_⟩
  · intro p q j hp hq
    simp only [Function.update_apply] at hp hq
    split at hp <;> split at hq
    next h₁ h₂ => rw [h₁, h₂]
    next h₁ h₂ =>
      obtain rfl : i = j := Option.some.inj hp
      exact absurd hq (hnot q)
    next h₁ h₂ =>
      obtain rfl : i = j := Option.some.inj hq
      exact absurd hp (hnot p)
    next h₁ h₂ => exact h.held_inj p q j hp hq
  · intro p j hp
    simp only [Function.update_apply] at hp
    split at hp
    · obtain rfl : i = j := Option.some.inj hp
      exact hret
    · exact h.held_not_returning p j hp
  · intro j
    simp only [Set.mem_insert_iff, h.taken_iff j]
    constructor
    · rintro (rfl | ⟨p, hp⟩ | hj)
      · exact Or.inl ⟨o, Function.update_self ..⟩
      · refine Or.inl ⟨p, ?_⟩
        rw [Function.update_of_ne, hp]
        rintro rfl
        rw [hp] at hnone
        cases hnone
      · exact Or.inr hj
    · rintro (⟨p, hp⟩ | hj)
      · simp only [Function.update_apply] at hp
        split at hp
        · exact Or.inl (Option.some.inj hp).symm
        · exact Or.inr (Or.inl ⟨p, hp⟩)
      · exact Or.inr (Or.inr hj)

theorem Exact.release (h : s.Exact) (hsome : s.held o = some i) :
    Exact { held := Function.update s.held o none, returning := s.returning, taken := s.taken \ {i} } := by
  have hkeep := fun p j => update_none_eq_some (f := s.held) (o := o) (p := p) (i := j)
  refine ⟨fun p q j hp hq => h.held_inj p q j (hkeep p j hp).1 (hkeep q j hq).1, h.returning_nodup,
    fun p j hp => h.held_not_returning p j (hkeep p j hp).1, ?_⟩
  intro j
  simp only [Set.mem_sdiff, Set.mem_singleton_iff, h.taken_iff j]
  constructor
  · rintro ⟨⟨p, hp⟩ | hj, hne⟩
    · refine Or.inl ⟨p, ?_⟩
      rw [Function.update_of_ne, hp]
      rintro rfl
      exact hne (Option.some.inj (hp.symm.trans hsome))
    · exact Or.inr hj
  · rintro (⟨p, hp⟩ | hj)
    · obtain ⟨hp, hpo⟩ := hkeep p j hp
      refine ⟨Or.inl ⟨p, hp⟩, ?_⟩
      rintro rfl
      exact hpo (h.held_inj p o j hp hsome)
    · refine ⟨Or.inr hj, ?_⟩
      rintro rfl
      exact h.held_not_returning o j hsome hj

theorem Exact.retire (h : s.Exact) (hsome : s.held o = some i) :
    Exact { held := Function.update s.held o none, returning := s.returning ++ [i], taken := s.taken } := by
  have hkeep := fun p j => update_none_eq_some (f := s.held) (o := o) (p := p) (i := j)
  have hret := h.held_not_returning o i hsome
  refine ⟨fun p q j hp hq => h.held_inj p q j (hkeep p j hp).1 (hkeep q j hq).1, ?_, ?_, ?_⟩
  · exact List.nodup_append.mpr ⟨h.returning_nodup, by simp, by
      intro a ha b hb
      obtain rfl := List.mem_singleton.mp hb
      rintro rfl
      exact hret ha⟩
  · intro p j hp hj
    obtain ⟨hp', hpo⟩ := hkeep p j hp
    rcases List.mem_append.mp hj with hj | hj
    · exact h.held_not_returning p j hp' hj
    · rw [List.mem_singleton.mp hj] at hp'
      exact hpo (h.held_inj p o i hp' hsome)
  · intro j
    simp only [h.taken_iff j, List.mem_append, List.mem_singleton]
    constructor
    · rintro (⟨p, hp⟩ | hj)
      · by_cases hpo : p = o
        · subst hpo
          exact Or.inr (Or.inr (Option.some.inj (hp.symm.trans hsome)))
        · exact Or.inl ⟨p, by rw [Function.update_of_ne hpo, hp]⟩
      · exact Or.inr (Or.inl hj)
    · rintro (⟨p, hp⟩ | hj | rfl)
      · exact Or.inl ⟨p, (hkeep p j hp).1⟩
      · exact Or.inr hj
      · exact Or.inl ⟨o, hsome⟩

omit [DecidableEq O] in
theorem Exact.giveBack {rest : List I} (h : s.Exact) (hrest : s.returning = i :: rest) :
    Exact { held := s.held, returning := rest, taken := s.taken \ {i} } := by
  have hnodup := h.returning_nodup
  rw [hrest, List.nodup_cons] at hnodup
  have hmem : ∀ j, j ∈ s.returning ↔ j = i ∨ j ∈ rest := fun j => by rw [hrest, List.mem_cons]
  have hnot : ∀ p, s.held p ≠ some i := fun p hp => h.held_not_returning p i hp ((hmem i).mpr (Or.inl rfl))
  refine ⟨h.held_inj, hnodup.2, fun p j hp hj => h.held_not_returning p j hp ((hmem j).mpr (Or.inr hj)), ?_⟩
  intro j
  simp only [Set.mem_sdiff, Set.mem_singleton_iff, h.taken_iff j, hmem j]
  constructor
  · rintro ⟨⟨p, hp⟩ | rfl | hj, hne⟩
    · exact Or.inl ⟨p, hp⟩
    · exact absurd rfl hne
    · exact Or.inr hj
  · rintro (⟨p, hp⟩ | hj)
    · refine ⟨Or.inl ⟨p, hp⟩, ?_⟩
      rintro rfl
      exact hnot p hp
    · refine ⟨Or.inr (Or.inr hj), ?_⟩
      rintro rfl
      exact hnodup.1 hj

end

theorem Exact.step {s t : Leases O I} {evs : List (LeaseEvent I)} (h : s.Exact) (hstep : Step s evs t) :
    t.Exact := by
  cases hstep with
  | grant o i hnone hfree => exact h.grant hnone hfree
  | release o i hsome => exact h.release hsome
  | retire o i hsome => exact h.retire hsome
  | giveBack i rest hrest => exact h.giveBack hrest

/-- The events of a step account for what it takes. -/
theorem taken_step [DecidableEq I] {s t : Leases O I} {evs new : List (LeaseEvent I)} (hstep : Step s new t)
    (h : ∀ i, i ∈ s.taken ↔ leased evs i = true) (i : I) : i ∈ t.taken ↔ leased (evs ++ new) i = true := by
  cases hstep with
  | grant o j =>
    rw [leased_snoc_grant, Set.mem_insert_iff, h i]
    by_cases hj : j = i
    · simp [hj]
    · simp [hj, Ne.symm hj]
  | release o j =>
    rw [leased_snoc_giveBack, Set.mem_sdiff, Set.mem_singleton_iff, h i]
    by_cases hj : j = i
    · simp [hj]
    · simp [hj, Ne.symm hj]
  | retire o j => simpa using h i
  | giveBack j rest =>
    rw [leased_snoc_giveBack, Set.mem_sdiff, Set.mem_singleton_iff, h i]
    by_cases hj : j = i
    · simp [hj]
    · simp [hj, Ne.symm hj]

/-- **Leases stay accounted for.** -/
theorem Accounted.step [DecidableEq I] {s t : Leases O I} {evs new : List (LeaseEvent I)} (h : Accounted evs s)
    (hstep : Step s new t) : Accounted (evs ++ new) t where
  exact := h.exact.step hstep
  taken_iff_leased := taken_step hstep h.taken_iff_leased

/-- Several owners retire. -/
def retireAll (s : Leases O I) (os : List O) : Leases O I where
  held := fun o => if o ∈ os then none else s.held o
  returning := s.returning ++ os.filterMap s.held
  taken := s.taken

theorem Accounted.retireAll [DecidableEq I] {evs : List (LeaseEvent I)} {os : List O} (hos : os.Nodup)
    {s : Leases O I} (h : Accounted evs s) : Accounted evs (s.retireAll os) := by
  induction os generalizing s with
  | nil => simpa [Leases.retireAll] using h
  | cons o os ih =>
    rw [List.nodup_cons] at hos
    cases ho : s.held o with
    | none =>
      have heq : s.retireAll (o :: os) = s.retireAll os := by
        simp only [Leases.retireAll, List.filterMap_cons, ho, mk.injEq, and_true]
        funext p
        by_cases hp : p = o
        · simp [hp, ho]
        · simp [hp]
      rw [heq]
      exact ih hos.2 h
    | some i =>
      -- the first owner retires by itself, the others after it
      have hfirst := h.step (Step.retire o i ho)
      rw [List.append_nil] at hfirst
      have hrest := ih hos.2 hfirst
      have heq : s.retireAll (o :: os) = Leases.retireAll
          { held := Function.update s.held o none, returning := s.returning ++ [i], taken := s.taken } os := by
        have hmap : os.filterMap (Function.update s.held o none) = os.filterMap s.held := by
          refine List.filterMap_congr fun p hp => ?_
          have hne : p ≠ o := by
            rintro rfl
            exact hos.1 hp
          rw [Function.update_of_ne hne]
        simp only [Leases.retireAll, List.filterMap_cons, ho, mk.injEq, and_true, hmap, List.append_assoc,
          List.singleton_append]
        funext p
        by_cases hp : p = o
        · simp [hp]
        · simp [hp]
      rw [heq]
      exact hrest

end Leases

end MidnightSun.Lib

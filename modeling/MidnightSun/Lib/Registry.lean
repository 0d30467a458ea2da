import Mathlib.Data.List.Basic
import Mathlib.Logic.Function.Basic

/-!
# A registry with a backlog

Owners enter keys in a table and remove them; an entry that is there is not overwritten.  The updates wait in a backlog
until the keeper of the table takes them, so what counts is the `view`: the table with the backlog applied.  The view is
`Faithful` if it has exactly the keys that are held.  It stays so as long as only free keys are entered and only held
keys are removed.
-/

namespace MidnightSun.Lib

variable {κ ω : Type*}

inductive Update (κ ω : Type*) where
  | enter (k : κ) (o : ω)
  | remove (k : κ)
  deriving DecidableEq

/-- The table has the keys that are held, and no others. -/
def Faithful (holds : ω → κ → Prop) (t : κ → Option ω) : Prop := ∀ k o, t k = some o ↔ holds o k

section faithful

variable {holds holds' : ω → κ → Prop} {t : κ → Option ω} {k : κ} {o o' : ω}

lemma Faithful.unique (h : Faithful holds t) (ho : holds o k) (ho' : holds o' k) : o = o' :=
  Option.some.inj (((h k o).mpr ho).symm.trans ((h k o').mpr ho'))

lemma Faithful.congr (h : Faithful holds t) (hsame : ∀ o k, holds' o k ↔ holds o k) : Faithful holds' t := fun k o =>
  (h k o).trans (hsame o k).symm

end faithful

variable [DecidableEq κ]

/-- `emplace` and `erase`. -/
def Update.apply (t : κ → Option ω) : Update κ ω → κ → Option ω
  | .enter k o => if t k = none then Function.update t k (some o) else t
  | .remove k => Function.update t k none

/-- The table after the backlog. -/
def view (t : κ → Option ω) (backlog : List (Update κ ω)) : κ → Option ω := backlog.foldl Update.apply t

lemma view_cons (t : κ → Option ω) (u : Update κ ω) (us : List (Update κ ω)) :
    view t (u :: us) = view (u.apply t) us := rfl

lemma view_append_singleton (t : κ → Option ω) (us : List (Update κ ω)) (u : Update κ ω) :
    view t (us ++ [u]) = u.apply (view t us) := by
  rw [view, List.foldl_append]
  rfl

namespace Faithful

variable {holds holds' : ω → κ → Prop} {t : κ → Option ω} {k : κ} {o o' : ω}

/-- A free key is entered. -/
theorem enter (h : Faithful holds t) (hfree : ∀ o', ¬holds o' k)
    (hnew : ∀ o' k', holds' o' k' ↔ holds o' k' ∨ o' = o ∧ k' = k) : Faithful holds' ((Update.enter k o).apply t) := by
  have hnone : t k = none := by
    rw [Option.eq_none_iff_forall_ne_some]
    intro o' ho'
    exact hfree o' ((h k o').mp ho')
  intro k' o'
  rw [Update.apply, if_pos hnone, hnew]
  by_cases hk : k' = k
  · subst hk
    rw [Function.update_self, Option.some.injEq]
    constructor
    · rintro rfl
      exact Or.inr ⟨rfl, rfl⟩
    · rintro (ho' | ⟨rfl, -⟩)
      · exact absurd ho' (hfree o')
      · rfl
  · rw [Function.update_of_ne hk, h k' o']
    constructor
    · exact Or.inl
    · rintro (ho' | ⟨-, rfl⟩)
      · exact ho'
      · exact absurd rfl hk

/-- A held key is removed. -/
theorem remove (h : Faithful holds t) (hheld : holds o k)
    (hnew : ∀ o' k', holds' o' k' ↔ holds o' k' ∧ ¬(o' = o ∧ k' = k)) :
    Faithful holds' ((Update.remove k : Update κ ω).apply t) := by
  intro k' o'
  rw [Update.apply, hnew]
  by_cases hk : k' = k
  · subst hk
    rw [Function.update_self]
    refine iff_of_false (Option.some_ne_none o').symm ?_
    rintro ⟨ho', hne⟩
    exact hne ⟨h.unique ho' hheld, rfl⟩
  · rw [Function.update_of_ne hk, h k' o']
    exact ⟨fun ho' => ⟨ho', fun hand => hk hand.2⟩, And.left⟩

end Faithful

end MidnightSun.Lib

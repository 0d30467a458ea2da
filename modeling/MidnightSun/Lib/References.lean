import Mathlib.Data.Set.Basic
import Mathlib.Data.List.Basic

/-!
# Reference frames of an encoder

The frames that the next frame may refer to, as a list of their indices.  A picture joins the list, an IDR picture
empties it first, and an invalidation takes frames out of it.  `Clear usable I`: no usable frame is in `I`.
-/

namespace MidnightSun.Lib

variable {ι : Type*}

inductive RefOp (ι : Type*) where
  | encode (i : ι) (idr : Bool)
  | invalidate (removed : List ι)

/-- The references after a picture or an invalidation. -/
def refStep [DecidableEq ι] (usable : List ι) : RefOp ι → List ι
  | .encode i true => [i]
  | .encode i false => i :: usable
  | .invalidate removed => usable.filter fun r => r ∉ removed

def Clear (usable : List ι) (I : Set ι) : Prop := ∀ r ∈ usable, r ∉ I

variable {usable : List ι} {I J : Set ι}

theorem clear_nil : Clear [] I := by simp [Clear]

theorem Clear.mono {usable' : List ι} (h : Clear usable I) (hsub : usable' ⊆ usable) : Clear usable' I :=
  fun r hr => h r (hsub hr)

theorem Clear.anti (h : Clear usable I) (hJ : J ⊆ I) : Clear usable J := fun r hr hrJ => h r hr (hJ hrJ)

section Steps

variable [DecidableEq ι]

theorem clear_encode_idr {i : ι} (hi : i ∉ I) : Clear (refStep usable (.encode i true)) I := by
  intro r hr
  obtain rfl : r = i := by simpa [refStep] using hr
  exact hi

theorem Clear.encode (h : Clear usable I) {i : ι} (hi : i ∉ I) (idr : Bool) :
    Clear (refStep usable (.encode i idr)) I := by
  cases idr with
  | true => exact clear_encode_idr hi
  | false =>
    intro r hr
    rcases List.mem_cons.mp hr with rfl | hr
    · exact hi
    · exact h r hr

theorem refStep_invalidate_subset (usable removed : List ι) : refStep usable (.invalidate removed) ⊆ usable :=
  fun _ h => List.mem_of_mem_filter h

theorem clear_invalidate {removed : List ι} (h : ∀ r ∈ usable, r ∈ I → r ∈ removed) :
    Clear (refStep usable (.invalidate removed)) I := by
  intro r hr hrI
  obtain ⟨hmem, hnot⟩ := List.mem_filter.mp hr
  exact (of_decide_eq_true hnot) (h r hmem hrI)

theorem mem_refStep_encode {i r : ι} {idr : Bool} (h : r ∈ refStep usable (.encode i idr)) :
    r = i ∨ (idr = false ∧ r ∈ usable) := by
  cases idr with
  | true => exact Or.inl (by simpa [refStep] using h)
  | false => exact (List.mem_cons.mp h).imp_right fun hr => ⟨rfl, hr⟩

end Steps

end MidnightSun.Lib

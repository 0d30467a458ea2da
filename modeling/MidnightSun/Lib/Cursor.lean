import Mathlib.Algebra.Order.Ring.Int
import Mathlib.Data.List.Basic

/-!
# A cursor in a list

A list that is not empty, with the position of the element that is selected.
-/

namespace MidnightSun.Lib

structure Cursor (α : Type*) where
  items : List α
  index : ℕ
  lt : index < items.length

namespace Cursor

variable {α : Type*}

def selected (c : Cursor α) : α := c.items.get ⟨c.index, c.lt⟩

lemma items_ne_nil (c : Cursor α) : c.items ≠ [] := List.ne_nil_of_length_pos (Nat.zero_lt_of_lt c.lt)

lemma getElem?_index (c : Cursor α) : c.items[c.index]? = some c.selected := List.getElem?_eq_getElem c.lt

/-- The first element that is `a`, or the first of all. -/
def find [BEq α] [LawfulBEq α] (items : List α) (hne : items ≠ []) (a : α) : Cursor α where
  items := items
  index := (items.idxOf? a).getD 0
  lt := by
    cases hidx : items.idxOf? a with
    | none => exact List.length_pos_iff.mpr hne
    | some i => exact (List.idxOf?_eq_some_iff.mp hidx).1

/-- The element at this position, or the nearest one. -/
def move (c : Cursor α) (i : ℤ) : Cursor α where
  items := c.items
  index := if i < 0 then 0 else min i.toNat (c.items.length - 1)
  lt := by
    have := c.lt
    split_ifs <;> omega

variable [BEq α] [LawfulBEq α] {items : List α} {hne : items ≠ []} {a : α}

lemma find_index : (find items hne a).index = (items.idxOf? a).getD 0 := rfl

/-- What is there is found. -/
theorem selected_find (h : a ∈ items) : (find items hne a).selected = a := by
  have hsome := getElem?_index (find items hne a)
  rw [find_index] at hsome
  cases hidx : items.idxOf? a with
  | none => exact absurd h (List.idxOf?_eq_none_iff.mp hidx)
  | some i =>
    obtain ⟨hi, hget, -⟩ := List.idxOf?_eq_some_iff.mp hidx
    have hitem : items[i]? = some a := by rw [List.getElem?_eq_getElem hi, hget]
    rw [hidx, Option.getD_some] at hsome
    exact Option.some.inj (hsome.symm.trans hitem)

end Cursor

end MidnightSun.Lib

import Mathlib.Data.Int.Notation
import Mathlib.Tactic.Ring

/-!
# Reads within a buffer

A pointer and a length may describe a region that does not lie in the buffer.  Only a read of it goes wrong, and the
computation then ends with a fault; so it does when an exception is thrown.
-/

namespace MidnightSun.Lib

variable {α β : Type}

/-- How a computation goes wrong. -/
inductive Fault where
  /-- bytes outside the buffer are read -/
  | outOfBounds
  /-- an exception is thrown -/
  | exception
  deriving DecidableEq

/-- The computation comes to its end. -/
def Returns (x : Except Fault α) : Prop := ∃ a, x = .ok a

lemma returns_ok (a : α) : Returns (.ok a) := ⟨a, rfl⟩

lemma not_returns_error (e : Fault) : ¬Returns (.error e : Except Fault α) := by
  rintro ⟨a, ⟨⟩⟩

lemma bind_eq_ok_iff {x : Except Fault α} {f : α → Except Fault β} {b : β} :
    x.bind f = .ok b ↔ ∃ a, x = .ok a ∧ f a = .ok b := by
  cases x with
  | error e =>
    refine iff_of_false nofun ?_
    rintro ⟨a, ⟨⟩, -⟩
  | ok a =>
    constructor
    · intro h
      exact ⟨a, rfl, h⟩
    · rintro ⟨a', heq, h⟩
      cases heq
      exact h

lemma returns_bind_iff {x : Except Fault α} {f : α → Except Fault β} :
    Returns (x.bind f) ↔ ∃ a, x = .ok a ∧ Returns (f a) := by
  constructor
  · rintro ⟨b, hb⟩
    obtain ⟨a, ha, hb⟩ := bind_eq_ok_iff.mp hb
    exact ⟨a, ha, b, hb⟩
  · rintro ⟨a, ha, b, hb⟩
    exact ⟨b, bind_eq_ok_iff.mpr ⟨a, ha, hb⟩⟩

lemma ok_bind (a : α) (f : α → Except Fault β) : (Except.ok a : Except Fault α).bind f = f a := rfl

lemma bind_ok_bind {γ : Type} (x : Except Fault α) (g : α → β) (f : β → Except Fault γ) :
    (x.bind fun a => .ok (g a)).bind f = x.bind fun a => f (g a) := by
  cases x with
  | error e => rfl
  | ok a => rfl

lemma returns_ite_error_iff {p : Prop} [Decidable p] {e : Fault} {x : Except Fault α} :
    Returns (if p then .error e else x) ↔ ¬p ∧ Returns x := by
  split_ifs with h
  · exact iff_of_false (not_returns_error e) fun h' => h'.1 h
  · exact (and_iff_right h).symm

lemma returns_ite_iff {p : Prop} [Decidable p] {x y : Except Fault α} (hx : Returns x) :
    Returns (if p then x else y) ↔ p ∨ Returns y := by
  split_ifs with h
  · exact iff_of_true hx (Or.inl h)
  · exact (or_iff_right h).symm

instance (x : Except Fault α) : Decidable (Returns x) :=
  match x with
  | .ok a => isTrue ⟨a, rfl⟩
  | .error e => isFalse (not_returns_error e)

/-- A pointer into a buffer and the length of what it is said to point to. -/
structure View (α : Type) where
  buffer : List α
  offset : ℤ := 0
  size : ℕ

namespace View

variable (v : View α)

/-- The whole of a buffer. -/
def whole (buffer : List α) : View α where
  buffer := buffer
  size := buffer.length

/-- The pointer moved by some bytes, with another length. -/
def shift (n : ℤ) (size : ℕ) : View α where
  buffer := v.buffer
  offset := v.offset + n
  size := size

/-- A read of `n` bytes from the position `pos` on stays in the buffer. -/
def Within (pos : ℤ) (n : ℕ) : Prop := n = 0 ∨ (0 ≤ v.offset + pos ∧ v.offset + pos + n ≤ v.buffer.length)

instance (pos : ℤ) (n : ℕ) : Decidable (v.Within pos n) := by
  unfold Within
  infer_instance

/-- What is there. -/
def slice (pos : ℤ) (n : ℕ) : List α := (v.buffer.drop (v.offset + pos).toNat).take n

def read (pos : ℤ) (n : ℕ) : Except Fault (List α) :=
  if v.Within pos n then .ok (v.slice pos n) else .error .outOfBounds

/-- A read of all that the view is said to hold. -/
def readAll : Except Fault (List α) := v.read 0 v.size

variable {v} {pos : ℤ} {n : ℕ} {f : List α → Except Fault β}

lemma read_eq_ok (h : v.Within pos n) : v.read pos n = .ok (v.slice pos n) := if_pos h

lemma eq_slice_of_read {a : List α} (h : v.read pos n = .ok a) : a = v.slice pos n := by
  rw [read] at h
  split_ifs at h
  cases h
  rfl

theorem returns_read_bind_iff :
    Returns ((v.read pos n).bind f) ↔ v.Within pos n ∧ Returns (f (v.slice pos n)) := by
  rw [read]
  split_ifs with h
  · exact (and_iff_right h).symm
  · exact iff_of_false (not_returns_error _) fun h' => h h'.1

lemma within_of_le {buffer : List α} {offset pos n size : ℕ} (h : offset + pos + n ≤ buffer.length) :
    View.Within ⟨buffer, offset, size⟩ pos n := by
  right
  constructor <;> dsimp only <;> omega

lemma within_whole_iff {buffer : List α} {pos n : ℕ} (hn : 0 < n) :
    (whole buffer).Within pos n ↔ pos + n ≤ buffer.length := by
  rw [Within, whole]
  dsimp only
  omega

end View

end MidnightSun.Lib

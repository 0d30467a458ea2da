import Mathlib.Data.List.Basic

/-!
# Reading and writing a buffer

A block of a list is overwritten, or read, at an offset.
-/

namespace MidnightSun.Lib.Buffer

variable {α : Type*}

/-- `block` copied over what is at the offset. -/
def write (buffer : List α) (offset : ℕ) (block : List α) : List α :=
  buffer.take offset ++ block ++ buffer.drop (offset + block.length)

/-- `n` elements from the offset on. -/
def read (buffer : List α) (offset n : ℕ) : List α := (buffer.drop offset).take n

variable {buffer block : List α} {offset position n : ℕ}

lemma length_write (h : offset + block.length ≤ buffer.length) :
    (write buffer offset block).length = buffer.length := by
  simp only [write, List.length_append, List.length_take, List.length_drop]
  omega

theorem read_write (h : offset + block.length ≤ buffer.length) :
    read (write buffer offset block) offset block.length = block := by
  have htake : (buffer.take offset).length = offset := by
    rw [List.length_take]
    omega
  unfold read write
  rw [List.append_assoc, List.drop_append_of_le_length (by omega), List.drop_eq_nil_of_le (by omega), List.nil_append]
  exact List.take_left

/-- Nothing else is touched. -/
theorem read_write_of_disjoint (h : offset + block.length ≤ buffer.length)
    (hdisjoint : position + n ≤ offset ∨ offset + block.length ≤ position) :
    read (write buffer offset block) position n = read buffer position n := by
  have htake : (buffer.take offset).length = offset := by
    rw [List.length_take]
    omega
  have hfront : (buffer.take offset ++ block).length = offset + block.length := by
    rw [List.length_append, htake]
  unfold read write
  rcases hdisjoint with hbefore | hbehind
  · rw [List.append_assoc, List.drop_append_of_le_length (by omega), List.take_append_of_le_length
      (by rw [List.length_drop]; omega), List.drop_take, List.take_take, Nat.min_eq_left (by omega)]
  · rw [List.drop_append, List.drop_eq_nil_of_le (by omega), List.nil_append, List.drop_drop]
    congr 2
    omega

theorem read_write_within (h : offset + block.length ≤ buffer.length) (hn : position + n ≤ block.length) :
    read (write buffer offset block) (offset + position) n = (block.drop position).take n := by
  have htake : (buffer.take offset).length = offset := by
    rw [List.length_take]
    omega
  unfold read write
  rw [List.append_assoc, List.drop_append, List.drop_eq_nil_of_le (by omega), List.nil_append, htake,
    Nat.add_sub_cancel_left, List.drop_append_of_le_length (by omega),
    List.take_append_of_le_length (by rw [List.length_drop]; omega)]

/-- Two blocks, one after the other. -/
theorem write_write {block' : List α} (h : offset + block.length ≤ buffer.length) :
    write (write buffer offset block) (offset + block.length) block' = write buffer offset (block ++ block') := by
  have htake : (buffer.take offset).length = offset := by
    rw [List.length_take]
    omega
  have hfront : (buffer.take offset ++ block).length = offset + block.length := by
    rw [List.length_append, htake]
  unfold write
  rw [List.take_left' hfront, List.drop_append, List.drop_eq_nil_of_le (by omega), List.nil_append, List.drop_drop,
    hfront, List.length_append, List.append_assoc (buffer.take offset)]
  congr 2
  omega

theorem read_add (buffer : List α) (offset m n : ℕ) :
    read buffer offset (m + n) = read buffer offset m ++ read buffer (offset + m) n := by
  unfold read
  rw [List.take_add, List.drop_drop]

end MidnightSun.Lib.Buffer

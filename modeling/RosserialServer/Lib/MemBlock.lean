import Mathlib.Data.List.Basic

/-!
# Reading and overwriting a block of memory

A block is a list of cells. `slice` reads `n` cells at an offset, `overwrite`
replaces as many cells as it is given; between them they are what `memcpy` and
`memmove` do inside one allocation.
-/

namespace MemBlock

variable {α : Type*}

/-- The `n` cells at offset `off`. -/
def slice (mem : List α) (off n : Nat) : List α := (mem.drop off).take n

/-- Replace the cells from offset `off` on by `cells`. -/
def overwrite (mem : List α) (off : Nat) (cells : List α) : List α :=
  mem.take off ++ cells ++ mem.drop (off + cells.length)

theorem length_slice {mem : List α} {off n : Nat} (h : off + n ≤ mem.length) :
    (slice mem off n).length = n := by
  simp only [slice, List.length_take, List.length_drop]; omega

@[simp] theorem slice_zero (mem : List α) (off : Nat) : slice mem off 0 = [] := by
  simp [slice]

theorem length_overwrite {mem cells : List α} {off : Nat} (h : off + cells.length ≤ mem.length) :
    (overwrite mem off cells).length = mem.length := by
  simp only [overwrite, List.length_append, List.length_take, List.length_drop]; omega

/-- Two neighbouring slices are one. -/
theorem slice_add (mem : List α) (off m n : Nat) :
    slice mem off (m + n) = slice mem off m ++ slice mem (off + m) n := by
  simp only [slice, List.take_add, List.drop_drop]

/-- A slice of a slice. -/
theorem take_slice (mem : List α) (off : Nat) {m n : Nat} (h : m ≤ n) :
    (slice mem off n).take m = slice mem off m := by
  rw [slice, List.take_take, Nat.min_eq_left h, slice]

theorem drop_slice (mem : List α) (off m n : Nat) :
    (slice mem off n).drop m = slice mem (off + m) (n - m) := by
  rw [slice, List.drop_take, List.drop_drop, slice]

/-- What was written is read back. -/
theorem slice_overwrite_self {mem cells : List α} {off : Nat} (h : off ≤ mem.length) :
    slice (overwrite mem off cells) off cells.length = cells := by
  simp only [slice, overwrite, List.append_assoc]
  rw [List.drop_append_of_le_length (by simp [h])]
  simp

/-- Cells below the written ones keep their contents. -/
theorem slice_overwrite_below {mem cells : List α} {off a n : Nat} (h : a + n ≤ off)
    (hoff : off ≤ mem.length) : slice (overwrite mem off cells) a n = slice mem a n := by
  have hlen : (mem.take off).length = off := by simp [hoff]
  simp only [slice, overwrite, List.append_assoc]
  rw [List.drop_append_of_le_length (by omega), List.take_append_of_le_length (by
    simp only [List.length_drop]; omega), List.drop_take, List.take_take, Nat.min_eq_left (by omega)]

@[simp] theorem overwrite_nil (mem : List α) (off : Nat) : overwrite mem off [] = mem := by
  simp [overwrite]

/-- Cells written behind others just written are written with them. -/
theorem overwrite_overwrite (mem : List α) (off : Nat) (cells more : List α) :
    overwrite (overwrite mem off cells) (off + cells.length) more
      = overwrite mem off (cells ++ more) := by
  by_cases h : off ≤ mem.length
  · have hfront : (mem.take off ++ cells).length = off + cells.length := by
      rw [List.length_append, List.length_take_of_le h]
    unfold overwrite
    rw [List.take_left' hfront, ← List.drop_drop, List.drop_left' hfront, List.drop_drop,
      List.length_append]
    simp only [List.append_assoc, Nat.add_assoc]
  · -- the cells land behind the block, wherever that ends
    have hbehind : ∀ n, mem.drop (off + n) = [] := fun n => List.drop_eq_nil_of_le (by omega)
    have hall : mem.take off = mem := List.take_of_length_le (by omega)
    have hlen : (mem ++ cells).length ≤ off + cells.length := by
      rw [List.length_append]
      omega
    unfold overwrite
    rw [hall, hbehind, hbehind, List.append_nil, List.append_nil, List.take_of_length_le hlen,
      List.drop_eq_nil_of_le (by omega), List.append_nil, List.append_assoc]

end MemBlock

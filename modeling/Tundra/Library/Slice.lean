import Mathlib.Data.List.Basic

set_option autoImplicit false

/- Index arithmetic on contiguous storage: windows of a list, copies into it and
resizing of it, as a vector's user sees them. -/
namespace Library

variable {α : Type*}

/-- The elements at the indices `lo ≤ i < hi`. -/
def slice (xs : List α) (lo hi : Nat) : List α := (xs.take hi).drop lo

/-- The list after `ys` has been copied to the indices from `start` on. -/
def overwrite (xs : List α) (start : Nat) (ys : List α) : List α :=
  xs.take start ++ ys ++ xs.drop (start + ys.length)

/-- Cut to `size` elements, or filled up to `size` with `fill`. -/
def resize (xs : List α) (size : Nat) (fill : α) : List α :=
  xs.take size ++ List.replicate (size - xs.length) fill

theorem slice_length (xs : List α) (lo hi : Nat) (inside : hi ≤ xs.length) :
    (slice xs lo hi).length = hi - lo := by
  simp only [slice, List.length_drop, List.length_take]
  omega

@[simp] theorem slice_self (xs : List α) (i : Nat) : slice xs i i = [] := by
  apply List.drop_eq_nil_of_le
  simp only [List.length_take]
  omega

theorem slice_drop (xs : List α) (lo hi k : Nat) :
    (slice xs lo hi).drop k = slice xs (lo + k) hi := by
  simp only [slice, List.drop_drop]

/-- Two slices that meet. -/
theorem slice_append (xs : List α) (lo middle hi : Nat) (lower : lo ≤ middle)
    (upper : middle ≤ hi) : slice xs lo hi = slice xs lo middle ++ slice xs middle hi := by
  have front : (slice xs lo hi).take (middle - lo) = slice xs lo middle := by
    unfold slice
    rw [List.take_drop, List.take_take, Nat.add_sub_cancel' lower, Nat.min_eq_left upper]
  have back : (slice xs lo hi).drop (middle - lo) = slice xs middle hi := by
    rw [slice_drop, Nat.add_sub_cancel' lower]
  rw [← front, ← back, List.take_append_drop]

theorem overwrite_length (xs ys : List α) (start : Nat) (fits : start + ys.length ≤ xs.length) :
    (overwrite xs start ys).length = xs.length := by
  simp only [overwrite, List.length_append, List.length_take, List.length_drop]
  omega

/-- A copy ends the window that reaches up to its start. -/
theorem slice_overwrite_end (xs ys : List α) (lo start : Nat) (lower : lo ≤ start)
    (inside : start ≤ xs.length) :
    slice (overwrite xs start ys) lo (start + ys.length) = slice xs lo start ++ ys := by
  have reach : (xs.take start ++ ys).length = start + ys.length := by
    simp only [List.length_append, List.length_take]
    omega
  unfold slice overwrite
  rw [← reach, List.take_left,
    List.drop_append_of_le_length (by simp only [List.length_take]; omega)]

/-- The copied elements are found where they were copied to. -/
theorem slice_overwrite_self (xs ys : List α) (start : Nat) (inside : start ≤ xs.length) :
    slice (overwrite xs start ys) start (start + ys.length) = ys := by
  rw [slice_overwrite_end xs ys start start (Nat.le_refl _) inside, slice_self, List.nil_append]

/-- A copy changes no window in front of it. -/
theorem slice_overwrite_before (xs ys : List α) (lo hi start : Nat) (front : hi ≤ start)
    (inside : start ≤ xs.length) : slice (overwrite xs start ys) lo hi = slice xs lo hi := by
  have reach : hi ≤ (xs.take start).length := by
    rw [List.length_take]
    omega
  unfold slice overwrite
  rw [List.append_assoc, List.take_append_of_le_length reach, List.take_take,
    Nat.min_eq_left front]

/-- A copy changes no window behind it. -/
theorem slice_overwrite_after (xs ys : List α) (lo hi start : Nat)
    (behind : start + ys.length ≤ lo) (inside : start ≤ xs.length) :
    slice (overwrite xs start ys) lo hi = slice xs lo hi := by
  have reach : (xs.take start ++ ys).length = start + ys.length := by
    simp only [List.length_append, List.length_take]
    omega
  unfold slice overwrite
  rw [List.drop_take, List.drop_take, List.drop_append, List.drop_eq_nil_of_le (by omega),
    List.nil_append, List.drop_drop, reach, Nat.add_sub_cancel' behind]

theorem resize_length (xs : List α) (size : Nat) (fill : α) :
    (resize xs size fill).length = size := by
  simp only [resize, List.length_append, List.length_take, List.length_replicate]
  omega

/-- Growing keeps every window of the old elements. -/
theorem slice_resize (xs : List α) (lo hi size : Nat) (fill : α) (inside : hi ≤ xs.length)
    (grown : hi ≤ size) : slice (resize xs size fill) lo hi = slice xs lo hi := by
  unfold slice resize
  rw [List.take_append_of_le_length (by simp only [List.length_take]; omega), List.take_take,
    Nat.min_eq_left grown]

end Library

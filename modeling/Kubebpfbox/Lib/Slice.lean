import Mathlib.Data.List.Basic

/-!
# Go slices

A slice is a piece of an array: the cells from its first element to the end of the array, and how
many of them are in it.  `append` writes into the array when there is a cell left, and copies the
elements into a larger array otherwise; `truncate` is `s[:n]` and leaves the cells as they are, so
that a later `append` writes over them.

`toList_append` and `toList_truncate` say what that means for the elements: the reuse of cells is
not seen.
-/

namespace Golang

/-- `[]α`. -/
structure Slice (α : Type*) where
  array : List α
  len : ℕ
  len_le : len ≤ array.length

namespace Slice

variable {α : Type*}

/-- The elements. -/
def toList (s : Slice α) : List α := s.array.take s.len

/-- `cap(s)`. -/
def cap (s : Slice α) : ℕ := s.array.length

/-- The nil slice. -/
instance : EmptyCollection (Slice α) := ⟨⟨[], 0, Nat.le_refl 0⟩⟩

@[simp] theorem toList_empty : (∅ : Slice α).toList = [] := rfl

/-- `append(s, x)`.  A new array has `room` cells more than it needs, with the zero value in them;
how many is up to the runtime. -/
def append [Inhabited α] (s : Slice α) (x : α) (room : ℕ) : Slice α :=
  if h : s.len < s.cap then
    { array := s.array.set s.len x
      len := s.len + 1
      len_le := by
        rw [List.length_set]
        exact h }
  else
    { array := s.toList ++ x :: List.replicate room default
      len := s.len + 1
      len_le := by
        have hle : s.len ≤ s.array.length := s.len_le
        rw [List.length_append, List.length_cons, toList, List.length_take]
        omega }

/-- `s[:n]`. -/
def truncate (s : Slice α) (n : ℕ) (h : n ≤ s.cap) : Slice α where
  array := s.array
  len := n
  len_le := h

theorem length_toList (s : Slice α) : s.toList.length = s.len := by
  rw [toList, List.length_take, Nat.min_eq_left s.len_le]

@[simp] theorem toList_append [Inhabited α] (s : Slice α) (x : α) (room : ℕ) :
    (s.append x room).toList = s.toList ++ [x] := by
  unfold append
  split_ifs with h
  · -- the cell behind the last element takes the new one
    show (s.array.set s.len x).take (s.len + 1) = s.array.take s.len ++ [x]
    have hset : s.len < (s.array.set s.len x).length := by
      rw [List.length_set]
      exact h
    rw [List.take_succ_eq_append_getElem hset, List.getElem_set_self,
      List.take_set_of_le (Nat.le_refl _)]
  · show (s.toList ++ x :: List.replicate room default).take (s.len + 1) = _
    rw [← length_toList s, List.take_length_add_append]
    rfl

@[simp] theorem toList_truncate (s : Slice α) {n : ℕ} (h : n ≤ s.cap) :
    (s.truncate n h).toList = s.array.take n := rfl

end Slice

end Golang

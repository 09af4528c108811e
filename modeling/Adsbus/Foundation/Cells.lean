import Mathlib.Data.List.Basic
import Mathlib.Data.List.TakeDrop

/-! # Fixed arrays

An array of a fixed number of cells, read by slices and written by overwriting a
range. Every operation keeps the number of cells, so a value of `Cells α size`
is always an array of `size` cells; writing past the end stores nothing there.
-/

/-- An array of exactly `size` cells. -/
structure Cells (α : Type) (size : Nat) where
  toList : List α
  length_eq : toList.length = size
  deriving DecidableEq

namespace Cells

variable {α : Type} {size : Nat}

/-- The array with the same value in every cell. -/
def fill (size : Nat) (value : α) : Cells α size :=
  ⟨List.replicate size value, List.length_replicate⟩

/-- The array listing a function's values. -/
def tabulate (size : Nat) (value : Nat → α) : Cells α size :=
  ⟨(List.range size).map value, by rw [List.length_map, List.length_range]⟩

/-- `count` cells from index `start` on. -/
def slice (cells : Cells α size) (start count : Nat) : List α :=
  (cells.toList.drop start).take count

/-- The cell at an index; the default outside the array. -/
def get [Inhabited α] (cells : Cells α size) (index : Nat) : α :=
  cells.toList.getD index default

/-- Store a list of values from index `start` on, dropping those past the end. -/
def overwrite (cells : Cells α size) (start : Nat) (values : List α) : Cells α size where
  toList := cells.toList.take start ++ values.take (size - start) ++
    cells.toList.drop (start + values.length)
  length_eq := by
    have length := cells.length_eq
    simp only [List.length_append, List.length_take, List.length_drop, length]
    omega

/-- Apply a function to every cell. -/
def map {β : Type} (f : α → β) (cells : Cells α size) : Cells β size :=
  ⟨cells.toList.map f, by rw [List.length_map, cells.length_eq]⟩

theorem ext_toList {first second : Cells α size} (same : first.toList = second.toList) :
    first = second := by
  cases first
  cases second
  cases same
  rfl

theorem slice_length (cells : Cells α size) (start count : Nat)
    (inside : start + count ≤ size) : (cells.slice start count).length = count := by
  simp only [slice, List.length_take, List.length_drop, cells.length_eq]
  omega

@[simp] theorem slice_zero (cells : Cells α size) (start : Nat) : cells.slice start 0 = [] :=
  List.take_zero

/-- A slice splits at any point. -/
theorem slice_add (cells : Cells α size) (start first second : Nat) :
    cells.slice start (first + second) =
      cells.slice start first ++ cells.slice (start + first) second := by
  simp only [slice, List.take_add, List.drop_drop]

theorem slice_all (cells : Cells α size) : cells.slice 0 size = cells.toList := by
  simp only [slice, List.drop_zero]
  exact List.take_of_length_le (Nat.le_of_eq cells.length_eq)

theorem take_slice (cells : Cells α size) (start count taken : Nat) (within : taken ≤ count) :
    (cells.slice start count).take taken = cells.slice start taken := by
  rw [slice, List.take_take, Nat.min_eq_left within, slice]

theorem drop_slice (cells : Cells α size) (start count dropped : Nat) :
    (cells.slice start count).drop dropped = cells.slice (start + dropped) (count - dropped) := by
  rw [slice, List.drop_take, List.drop_drop, slice]

/-- The cells before an overwritten range are unchanged. -/
theorem slice_overwrite_before (cells : Cells α size) (start count first : Nat)
    (values : List α) (before : first + count ≤ start) (inside : start ≤ size) :
    (cells.overwrite start values).slice first count = cells.slice first count := by
  have length := cells.length_eq
  have taken : (cells.toList.take start).length = start := by
    rw [List.length_take]
    omega
  simp only [slice, overwrite, List.append_assoc]
  rw [List.drop_append_of_le_length (by omega),
    List.take_append_of_le_length (by rw [List.length_drop]; omega),
    List.drop_take, List.take_take, Nat.min_eq_left (by omega)]

/-- The overwritten range holds the stored values. -/
theorem slice_overwrite_same (cells : Cells α size) (start : Nat) (values : List α)
    (inside : start + values.length ≤ size) :
    (cells.overwrite start values).slice start values.length = values := by
  have length := cells.length_eq
  have taken : (cells.toList.take start).length = start := by
    rw [List.length_take]
    omega
  simp only [slice, overwrite]
  rw [List.take_of_length_le (by omega : values.length ≤ size - start), List.append_assoc,
    List.drop_append_of_le_length (by omega), List.drop_of_length_le (by omega),
    List.nil_append, List.take_left]

/-- Storing values right behind a slice extends the slice by them. -/
theorem slice_overwrite_append (cells : Cells α size) (start count : Nat) (values : List α)
    (inside : start + count + values.length ≤ size) :
    (cells.overwrite (start + count) values).slice start (count + values.length) =
      cells.slice start count ++ values := by
  rw [slice_add, slice_overwrite_before _ _ _ _ _ (Nat.le_refl _) (by omega),
    slice_overwrite_same _ _ _ inside]

theorem toList_overwrite_zero (cells : Cells α size) (values : List α)
    (inside : values.length ≤ size) :
    (cells.overwrite 0 values).toList = values ++ cells.toList.drop values.length := by
  simp only [overwrite, List.take_zero, List.nil_append, Nat.sub_zero, Nat.zero_add,
    List.take_of_length_le inside]

/-- What an index holds after a list of values is stored from `start` on. -/
theorem getElem?_overwrite (cells : Cells α size) (start index : Nat) (values : List α)
    (inside : start + values.length ≤ size) :
    (cells.overwrite start values).toList[index]? =
      if start ≤ index ∧ index < start + values.length then values[index - start]?
      else cells.toList[index]? := by
  have length := cells.length_eq
  have taken : (cells.toList.take start).length = start := by
    rw [List.length_take]
    omega
  simp only [overwrite]
  rw [List.take_of_length_le (by omega : values.length ≤ size - start), List.append_assoc]
  by_cases before : index < start
  · rw [List.getElem?_append_left (by omega), List.getElem?_take_of_lt before, if_neg (by omega)]
  · rw [List.getElem?_append_right (by omega), taken]
    by_cases within : index < start + values.length
    · rw [List.getElem?_append_left (by omega), if_pos (by omega)]
    · rw [List.getElem?_append_right (by omega), List.getElem?_drop, if_neg (by omega)]
      congr 1
      omega

@[simp] theorem overwrite_nil (cells : Cells α size) (start : Nat) :
    cells.overwrite start [] = cells := by
  apply ext_toList
  simp only [overwrite, List.take_nil, List.append_nil, List.length_nil, Nat.add_zero,
    List.take_append_drop]

/-- Storing values right behind stored values stores their concatenation. -/
theorem overwrite_overwrite_append (cells : Cells α size) (start : Nat) (first second : List α)
    (inside : start + first.length + second.length ≤ size) :
    (cells.overwrite start first).overwrite (start + first.length) second =
      cells.overwrite start (first ++ second) := by
  apply ext_toList
  apply List.ext_getElem?
  intro index
  rw [getElem?_overwrite _ _ _ _ inside, getElem?_overwrite _ _ _ _ (by omega),
    getElem?_overwrite _ _ _ _ (by rw [List.length_append]; omega), List.length_append,
    List.getElem?_append]
  by_cases early : index < start + first.length
  · rw [if_neg (by omega)]
    by_cases before : index < start
    · rw [if_neg (by omega), if_neg (by omega)]
    · rw [if_pos (by omega), if_pos (by omega), if_pos (by omega)]
  · by_cases within : index < start + first.length + second.length
    · rw [if_pos (by omega), if_pos (by omega), if_neg (by omega), Nat.sub_sub]
    · rw [if_neg (by omega), if_neg (by omega), if_neg (by omega)]

theorem get_eq_of_lt [Inhabited α] (cells : Cells α size) (index : Nat) (inside : index < size) :
    cells.toList[index]? = some (cells.get index) := by
  have bound : index < cells.toList.length := by rw [cells.length_eq]; exact inside
  simp only [get, List.getD_eq_getElem?_getD, List.getElem?_eq_getElem bound, Option.getD_some]

@[simp] theorem map_slice {β : Type} (f : α → β) (cells : Cells α size) (start count : Nat) :
    (cells.map f).slice start count = (cells.slice start count).map f := by
  simp only [slice, map, List.map_take, List.map_drop]

@[simp] theorem map_overwrite {β : Type} (f : α → β) (cells : Cells α size) (start : Nat)
    (values : List α) :
    (cells.map f).overwrite start (values.map f) = (cells.overwrite start values).map f := by
  apply ext_toList
  simp only [overwrite, map, List.map_append, List.map_take, List.map_drop, List.length_map]

end Cells

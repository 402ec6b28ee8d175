import Mathlib.Data.List.OfFn
import Mathlib.Data.List.FinRange

/-!
# `SerialRpc.Lib.Slots`: a list in an array of fixed size

`Slots α n` is an array of `n` cells and the count of those in use, which come first. A cell
behind them was never written, and `used` says that no cell in use is one of these, so that
`get` needs no default. `toList` is the list that the cells hold, and each operation is one
on lists:

* `length_toList`: the count is the length;
* `toList_set`: a cell in use is overwritten;
* `toList_push`: a cell is taken into use, while there is one;
* `map_find`, `map_val_find`: a loop over the cells in use finds what the list finds.
-/

set_option autoImplicit false

namespace SerialRpc

/-- `n` cells, and the count of those in use. -/
structure Slots (α : Type*) (n : Nat) where
  cells : Vector (Option α) n
  count : Nat
  count_le : count ≤ n
  used : ∀ i : Fin count, (cells[i.castLE count_le]).isSome

namespace Slots

variable {α : Type*} {n : Nat}

/-- No cell is in use. -/
def empty (α : Type*) (n : Nat) : Slots α n where
  cells := Vector.replicate n none
  count := 0
  count_le := Nat.zero_le n
  used i := i.elim0

/-- The value in a cell. -/
def get (s : Slots α n) (i : Fin s.count) : α :=
  (s.cells[i.castLE s.count_le]).get (s.used i)

/-- A cell in use gets another value. -/
def set (s : Slots α n) (i : Fin s.count) (a : α) : Slots α n where
  cells := s.cells.set i.val (some a) (Nat.lt_of_lt_of_le i.isLt s.count_le)
  count := s.count
  count_le := s.count_le
  used j := by
    rw [Fin.getElem_fin, Vector.getElem_set]
    split
    · rfl
    · exact s.used j

/-- The next cell is taken into use. -/
def push (s : Slots α n) (h : s.count < n) (a : α) : Slots α n where
  cells := s.cells.set s.count (some a) h
  count := s.count + 1
  count_le := h
  used j := by
    rw [Fin.getElem_fin, Vector.getElem_set]
    split
    · rfl
    · -- The cell was in use before.
      rename_i hother
      exact s.used ⟨j.val, by have := j.isLt; simp only [Fin.val_castLE] at hother; omega⟩

/-- The first cell in use whose value satisfies `p`. -/
def find (s : Slots α n) (p : α → Bool) : Option (Fin s.count) :=
  Fin.find? fun i => p (s.get i)

/-- The values in the cells in use. -/
def toList (s : Slots α n) : List α := List.ofFn s.get

/-- Empty slots hold nothing. -/
@[simp]
theorem toList_empty : (empty α n).toList = [] := rfl

/-- As many as are counted. -/
@[simp]
theorem length_toList (s : Slots α n) : s.toList.length = s.count := List.length_ofFn

/-- The list has them in the order of the cells. -/
theorem getElem_toList (s : Slots α n) (i : Nat) (h : i < s.toList.length) :
    s.toList[i] = s.get ⟨i, s.length_toList ▸ h⟩ := List.getElem_ofFn h

/-- The value in a cell is what the array holds there. -/
theorem cell_get (s : Slots α n) (i : Fin s.count) : s.cells[i.val]? = some (some (s.get i)) := by
  rw [Vector.getElem?_eq_getElem (Nat.lt_of_lt_of_le i.isLt s.count_le), get, Option.some_get]
  rfl

/-- What a cell in use holds. -/
theorem get_of_cell {s : Slots α n} {i : Fin s.count} {a : α}
    (h : s.cells[i.val]? = some (some a)) : s.get i = a := by
  rw [cell_get] at h
  exact Option.some.inj (Option.some.inj h)

/-- A cell that was set. -/
theorem get_set (s : Slots α n) (i j : Fin s.count) (a : α) :
    (s.set i a).get j = if i.val = j.val then a else s.get j := by
  apply get_of_cell
  show (s.cells.set i.val (some a) (Nat.lt_of_lt_of_le i.isLt s.count_le))[j.val]? = _
  rw [Vector.getElem?_set]
  by_cases hij : i.val = j.val
  · rw [if_pos hij, if_pos hij]
  · rw [if_neg hij, if_neg hij]
    exact s.cell_get j

/-- A cell in use is set in the list. -/
theorem toList_set (s : Slots α n) (i : Fin s.count) (a : α) :
    (s.set i a).toList = s.toList.set i.val a := by
  apply List.ext_getElem
  · rw [List.length_set, length_toList, length_toList]
    rfl
  · intro j h _
    rw [List.getElem_set, getElem_toList, getElem_toList]
    exact s.get_set i ⟨j, (s.set i a).length_toList ▸ h⟩ a

/-- A new one comes last. -/
theorem toList_push (s : Slots α n) (h : s.count < n) (a : α) :
    (s.push h a).toList = s.toList ++ [a] := by
  apply List.ext_getElem
  · rw [List.length_append, length_toList, length_toList]
    rfl
  · intro j hj _
    have hlength : (s.push h a).toList.length = s.count + 1 := length_toList _
    rw [getElem_toList]
    apply get_of_cell
    show (s.cells.set s.count (some a) h)[j]? = _
    rw [Vector.getElem?_set]
    by_cases hlast : s.count = j
    · subst hlast
      simp
    · -- An earlier cell, which is left as it was.
      have hearlier : j < s.toList.length := by
        rw [length_toList]
        omega
      rw [if_neg hlast, List.getElem_append_left hearlier, getElem_toList]
      exact s.cell_get ⟨j, s.length_toList ▸ hearlier⟩

/-- The loop over the cells finds what the list finds. -/
theorem map_find (s : Slots α n) (p : α → Bool) : (s.find p).map s.get = s.toList.find? p := by
  rw [find, Fin.find?_eq_find?_finRange, toList, List.ofFn_eq_map, List.find?_map]
  rfl

/-- The first cell that is found is the first in the list. -/
theorem map_val_find (s : Slots α n) (p : α → Bool) :
    (s.find p).map Fin.val = s.toList.findIdx? p := by
  cases hfind : s.find p with
  | none =>
      have hnone := Fin.find?_eq_none_iff.mp hfind
      rw [Option.map_none, eq_comm, List.findIdx?_eq_none_iff]
      intro a ha
      obtain ⟨i, rfl⟩ := List.mem_ofFn.mp ha
      exact hnone i
  | some i =>
      obtain ⟨hfound, hearlier⟩ := Fin.find?_eq_some_iff.mp hfind
      rw [Option.map_some, eq_comm, List.findIdx?_eq_some_iff_getElem]
      have hi : i.val < s.toList.length := s.length_toList.symm ▸ i.isLt
      refine ⟨hi, ?_, ?_⟩
      · rw [getElem_toList]
        exact hfound
      · intro j hji
        rw [getElem_toList]
        simpa using hearlier ⟨j, Nat.lt_trans hji i.isLt⟩ hji

end Slots

end SerialRpc

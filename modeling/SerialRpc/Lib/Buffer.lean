import Mathlib.Data.List.Basic

/-!
# `SerialRpc.Lib.Buffer`: memory written from its front

A writer that fills a caller's buffer front to back leaves `overwrite base acc`: the bytes
written so far, then what was there before. The lemmas say what one more write does, what
a read behind the written part gives, and that the buffer keeps its length.
-/

set_option autoImplicit false

namespace Buffer

variable {α : Type*}

/-- Overwriting the element behind a prefix. -/
theorem set_append_cons (front back : List α) (old new : α) :
    (front ++ old :: back).set front.length new = front ++ new :: back := by
  simp

/-- `base` with `acc` written over its front. -/
def overwrite (base acc : List α) : List α := acc ++ base.drop acc.length

/-- Nothing is written over. -/
@[simp] theorem overwrite_nil (base : List α) : overwrite base [] = base := by
  simp [overwrite]

/-- Writing right behind the overwritten part extends it. -/
theorem overwrite_set {base acc : List α} (x : α) (h : acc.length < base.length) :
    (overwrite base acc).set acc.length x = overwrite base (acc ++ [x]) := by
  rw [overwrite, List.drop_eq_getElem_cons h, set_append_cons]
  simp [overwrite]

/-- Behind the overwritten part the memory is the old one. -/
theorem overwrite_getElem? {base acc : List α} {i : Nat} (h : acc.length ≤ i) :
    (overwrite base acc)[i]? = base[i]? := by
  simp [overwrite, List.getElem?_append_right h, h]

/-- Behind what was written the old contents stand. -/
theorem overwrite_drop {base acc : List α} {n : Nat} (h : acc.length ≤ n) :
    (overwrite base acc).drop n = base.drop n := by
  obtain ⟨k, rfl⟩ := Nat.exists_eq_add_of_le h
  rw [overwrite, List.drop_length_add_append, List.drop_drop]

/-- More memory behind. -/
theorem overwrite_append {base acc : List α} (h : acc.length ≤ base.length) (beyond : List α) :
    overwrite (base ++ beyond) acc = overwrite base acc ++ beyond := by
  rw [overwrite, List.drop_append_of_le_length h, overwrite, List.append_assoc]

/-- The front is what was written. -/
@[simp] theorem overwrite_take (base acc : List α) :
    (overwrite base acc).take acc.length = acc := by
  simp [overwrite]

/-- A write that fits leaves the size as it is. -/
@[simp] theorem overwrite_length {base acc : List α} (h : acc.length ≤ base.length) :
    (overwrite base acc).length = base.length := by
  simp [overwrite]
  omega

end Buffer

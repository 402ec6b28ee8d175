import Mathlib.Tactic.Common

/-!
# `SerialRpc.Lib.Flags`: fields of a word of flags

A field is the bits under a mask. Clearing and setting bits outside of a field leaves it as it is,
and clearing a field and setting bits inside of it leaves those bits there.
-/

set_option autoImplicit false

namespace Flags

variable {w : Nat} (x : BitVec w) {bits field : BitVec w}

/-- Bits are cleared outside of the field. -/
theorem clear_field (h : bits &&& field = 0#w) : (x &&& ~~~bits) &&& field = x &&& field := by
  ext i hi
  have hbit := congrArg (fun y : BitVec w => y[i]) h
  simp only [BitVec.getElem_and, BitVec.getElem_not, BitVec.getElem_zero] at hbit ⊢
  cases hbits : bits[i] <;> cases hfield : field[i] <;> simp_all

/-- Bits are set outside of the field. -/
theorem set_field (h : bits &&& field = 0#w) : (x ||| bits) &&& field = x &&& field := by
  ext i hi
  have hbit := congrArg (fun y : BitVec w => y[i]) h
  simp only [BitVec.getElem_and, BitVec.getElem_or, BitVec.getElem_zero] at hbit ⊢
  cases hbits : bits[i] <;> cases hfield : field[i] <;> simp_all

/-- Bits are set inside of the field. -/
theorem set_inside (h : bits &&& field = bits) :
    (x ||| bits) &&& field = (x &&& field) ||| bits := by
  ext i hi
  have hbit := congrArg (fun y : BitVec w => y[i]) h
  simp only [BitVec.getElem_and, BitVec.getElem_or] at hbit ⊢
  cases hbits : bits[i] <;> cases hfield : field[i] <;> simp_all

/-- The whole field is cleared. -/
theorem clear_inside (h : field &&& ~~~bits = 0#w) : (x &&& ~~~bits) &&& field = 0#w := by
  ext i hi
  have hbit := congrArg (fun y : BitVec w => y[i]) h
  simp only [BitVec.getElem_and, BitVec.getElem_not, BitVec.getElem_zero] at hbit ⊢
  cases hbits : bits[i] <;> cases hfield : field[i] <;> simp_all

/-- The whole field is set. -/
theorem set_self : (x ||| field) &&& field = field := by
  ext i hi
  simp only [BitVec.getElem_and, BitVec.getElem_or]
  cases field[i] <;> simp

/-- Words that are alike under a mask are alike under a smaller one. -/
theorem field_of_mask {y mask : BitVec w} (h : x &&& mask = y &&& mask)
    (hinside : mask &&& field = field) : x &&& field = y &&& field := by
  rw [← hinside, ← BitVec.and_assoc, h, BitVec.and_assoc]

end Flags

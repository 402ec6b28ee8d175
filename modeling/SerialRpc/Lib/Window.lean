import Mathlib.Data.List.Basic

/-!
# `SerialRpc.Lib.Window`: a buffer between two cursors

A queue in a buffer: its elements stand between a head and a tail. `view` reads them off, and the
lemmas say what moving the cursors and writing behind the tail do to them.

`Conserves before ins outs after` is the law of a queue: what was in it and what went in is what
came out and what is left, in this order. `Conserves.trans` puts two spans of time together.
-/

set_option autoImplicit false

namespace Window

variable {α : Type*}

/-- The elements between the cursors. -/
def view (head tail : Nat) (buf : List α) : List α := (buf.drop head).take (tail - head)

/-- An empty window shows nothing. -/
@[simp] theorem view_self (head : Nat) (buf : List α) : view head head buf = [] := by
  simp [view]

/-- A window shows what is between its two ends. -/
theorem view_length {head tail : Nat} {buf : List α} (htail : tail ≤ buf.length) :
    (view head tail buf).length = tail - head := by
  rw [view, List.length_take, List.length_drop]
  omega

/-- The head moves over what it leaves behind. -/
theorem view_drop (head tail n : Nat) (buf : List α) :
    view (head + n) tail buf = (view head tail buf).drop n := by
  rw [view, view, List.drop_take, List.drop_drop, Nat.sub_sub]

/-- The first element, and what the head sees behind it. -/
theorem view_cons {head tail : Nat} {buf : List α} (hhead : head < tail)
    (hbound : head < buf.length) : view head tail buf = buf[head] :: view (head + 1) tail buf := by
  obtain ⟨k, hk⟩ := Nat.exists_eq_add_of_lt hhead
  have hsub : tail - head = k + 1 := by omega
  have hnext : tail - (head + 1) = k := by omega
  rw [view, view, List.drop_eq_getElem_cons hbound, hsub, hnext, List.take_succ_cons]

/-- Elements written behind the tail. -/
theorem view_write {head tail : Nat} {buf : List α} (hhead : head ≤ tail)
    (htail : tail ≤ buf.length) (new : List α) :
    view head (tail + new.length) (buf.take tail ++ new ++ buf.drop (tail + new.length))
      = view head tail buf ++ new := by
  have hfront : (buf.take tail).length = tail := by
    rw [List.length_take]
    omega
  have hroom : head ≤ (buf.take tail).length := by omega
  have hview : ((buf.take tail).drop head).length = tail - head := by
    rw [List.length_drop, hfront]
  have hcount : tail + new.length - head = (tail - head) + new.length := by omega
  rw [view, List.append_assoc, List.drop_append_of_le_length hroom, hcount, ← hview,
    List.take_length_add_append, List.take_left, view, List.drop_take]

/-- Writing does not change the size of the buffer. -/
theorem write_length {tail : Nat} {buf new : List α} (htail : tail ≤ buf.length)
    (hnew : new.length ≤ buf.length - tail) :
    (buf.take tail ++ new ++ buf.drop (tail + new.length)).length = buf.length := by
  rw [List.length_append, List.length_append, List.length_take, List.length_drop]
  omega

/-- The law of a queue. -/
def Conserves (before ins outs after : List α) : Prop := before ++ ins = outs ++ after

/-- One stretch behind another: what goes in goes out, in order. -/
theorem Conserves.trans {a b c ins ins' outs outs' : List α} (h : Conserves a ins outs b)
    (h' : Conserves b ins' outs' c) : Conserves a (ins ++ ins') (outs ++ outs') c := by
  unfold Conserves at h h' ⊢
  rw [← List.append_assoc, h, List.append_assoc, h', List.append_assoc]

end Window

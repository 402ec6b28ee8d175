import Mathlib.Tactic.Linarith

/-!
# `SerialRpc.Lib.Waiting`: waiting up to a deadline

A call that waits several times, and before each time works out what is left until its deadline.
However often it is woken up, the waits together take no longer than there was at the beginning
(`total_le`). That needs two things: the clock does not go back, and no wait ends behind the
deadline by more than some slack.
-/

set_option autoImplicit false

namespace Waiting

/-- A wait, from when until when. -/
structure Wait where
  start : Int
  finish : Int

/-- How long the waits take together. -/
def total (ws : List Wait) : Int := (ws.map fun w => w.finish - w.start).sum

/-- No waits take no time. -/
@[simp] theorem total_nil : total [] = 0 := rfl

/-- The first wait, and then the rest. -/
@[simp] theorem total_cons (w : Wait) (ws : List Wait) :
    total (w :: ws) = w.finish - w.start + total ws := rfl

/-- The waits are one behind the other, and behind `now`. -/
def Ordered (now : Int) : List Wait → Prop
  | [] => True
  | w :: ws => now ≤ w.start ∧ w.start ≤ w.finish ∧ Ordered w.finish ws

/-- A wait begins no earlier than `now`. -/
theorem Ordered.le_start {now : Int} {ws : List Wait} (h : Ordered now ws) {w : Wait}
    (hw : w ∈ ws) : now ≤ w.start := by
  induction ws generalizing now with
  | nil => cases hw
  | cons v ws ih =>
      obtain ⟨hstart, hfinish, hrest⟩ := h
      rcases List.mem_cons.mp hw with rfl | hw
      · exact hstart
      · have hlater := ih hrest hw
        omega

/-- Waits that end by the deadline, each up to some slack. A wait that begins behind the deadline
takes the slack at most. -/
theorem total_le {now deadline slack : Int} {ws : List Wait} (hslack : 0 ≤ slack)
    (hordered : Ordered now ws) (hends : ∀ w ∈ ws, w.finish ≤ max w.start deadline + slack) :
    total ws ≤ max now deadline - now + slack * ws.length := by
  induction ws generalizing now with
  | nil =>
      rw [total_nil, List.length_nil, Nat.cast_zero, Int.mul_zero]
      omega
  | cons w ws ih =>
      obtain ⟨hstart, hfinish, hrest⟩ := hordered
      have hw := hends w List.mem_cons_self
      have hlater := ih hrest fun v hv => hends v (List.mem_cons_of_mem w hv)
      rw [total_cons, List.length_cons, Nat.cast_succ, Int.mul_add, Int.mul_one]
      omega

end Waiting

import Mathlib.Data.List.Basic

/-!
# `SerialRpc.Lib.Mealy`: machines that read a stream one input at a time

A `Mealy σ ι ο` reads one input and answers with the next state and one output. `run`
feeds a list of inputs and collects the outputs, one per input, so the output at index
`k` is what the machine said at the `k`-th input.

The rules:

* `final_append` and `outputs_append`: feeding `is ++ js` is feeding `is`, then `js` from
  the state reached. So the result does not depend on how a stream is cut.
* `history_invariant`: a property of the inputs read so far and the state, kept by each
  step, holds after every run.
* `outputs_getElem?`: the output at index `k` is the one step made from the state after
  the first `k` inputs. `outputs_split` finds the input that made a given output, and
  `exists_chunk` the chunk it came in.
* `Simulation`: a relation that each step keeps, with the outputs of one machine a
  function of the outputs of the other. `Simulation.final` and `Simulation.outputs` carry
  it to whole runs.
-/

set_option autoImplicit false

/-- A machine that answers each input with a new state and an output. -/
structure Mealy (σ ι ο : Type*) where
  /-- One step: the state and the input give the next state and the output. -/
  step : σ → ι → σ × ο

namespace Mealy

variable {σ τ ι ο ο' : Type*} (M : Mealy σ ι ο)

/-- Feeds a list of inputs: the state reached and the outputs, one per input. -/
def run (s : σ) : List ι → σ × List ο
  | [] => (s, [])
  | i :: is =>
      let next := M.step s i
      let rest := run next.1 is
      (rest.1, next.2 :: rest.2)

/-- The state after feeding `is`. -/
def final (s : σ) (is : List ι) : σ := (M.run s is).1

/-- The outputs of feeding `is`, in order. -/
def outputs (s : σ) (is : List ι) : List ο := (M.run s is).2

/-- No inputs change nothing. -/
@[simp] theorem final_nil (s : σ) : M.final s [] = s := rfl

/-- The first input, and then the rest. -/
@[simp] theorem final_cons (s : σ) (i : ι) (is : List ι) :
    M.final s (i :: is) = M.final (M.step s i).1 is := rfl

/-- No inputs have no outputs. -/
@[simp] theorem outputs_nil (s : σ) : M.outputs s [] = [] := rfl

/-- The output of the first input comes first. -/
@[simp] theorem outputs_cons (s : σ) (i : ι) (is : List ι) :
    M.outputs s (i :: is) = (M.step s i).2 :: M.outputs (M.step s i).1 is := rfl

/-- Feeding `is ++ js` ends where feeding `js` ends from the state after `is`. -/
theorem final_append (s : σ) (is js : List ι) :
    M.final s (is ++ js) = M.final (M.final s is) js := by
  induction is generalizing s with
  | nil => rfl
  | cons i is ih => exact ih (M.step s i).1

/-- The outputs of `is ++ js` are those of `is`, then those of `js`. -/
theorem outputs_append (s : σ) (is js : List ι) :
    M.outputs s (is ++ js) = M.outputs s is ++ M.outputs (M.final s is) js := by
  induction is generalizing s with
  | nil => rfl
  | cons i is ih => simp [ih]

/-- One output per input. -/
@[simp] theorem outputs_length (s : σ) (is : List ι) :
    (M.outputs s is).length = is.length := by
  induction is generalizing s with
  | nil => rfl
  | cons i is ih => simp [ih]

/-- The output at index `k` is made by one step from the state after the first `k`
inputs. -/
theorem outputs_getElem? (s : σ) (is : List ι) (k : Nat) :
    (M.outputs s is)[k]? = is[k]?.map fun i => (M.step (M.final s (is.take k)) i).2 := by
  induction is generalizing s k with
  | nil => simp
  | cons i is ih =>
      cases k with
      | zero => simp
      | succ k => simp [ih]

/-- The output of the last input of a non-empty stream. -/
theorem outputs_concat (s : σ) (is : List ι) (i : ι) :
    M.outputs s (is ++ [i]) = M.outputs s is ++ [(M.step (M.final s is) i).2] := by
  rw [outputs_append, outputs_cons, outputs_nil]

/-- One output singled out: the inputs split with the outputs. -/
theorem outputs_split (s : σ) (is : List ι) {before after : List ο} {o : ο}
    (h : M.outputs s is = before ++ o :: after) :
    ∃ front i back, is = front ++ i :: back ∧ M.outputs s front = before ∧
      (M.step (M.final s front) i).2 = o ∧
      M.outputs (M.step (M.final s front) i).1 back = after := by
  induction before generalizing s is with
  | nil =>
      cases is with
      | nil => cases h
      | cons i is =>
          rw [outputs_cons, List.nil_append, List.cons.injEq] at h
          exact ⟨[], i, is, rfl, rfl, h.1, h.2⟩
  | cons p before ih =>
      cases is with
      | nil => cases h
      | cons i is =>
          rw [outputs_cons, List.cons_append, List.cons.injEq] at h
          obtain ⟨front, j, back, rfl, hfront, hj, hback⟩ := ih _ is h.2
          exact ⟨i :: front, j, back, rfl, by rw [outputs_cons, h.1, hfront], hj, hback⟩

/-! ### Invariants -/

/-- A property of the inputs read so far and the state, kept by every step, holds after
every run. -/
theorem history_invariant {P : List ι → σ → Prop}
    (hstep : ∀ past s i, P past s → P (past ++ [i]) (M.step s i).1)
    (past : List ι) (s : σ) (is : List ι) (h : P past s) : P (past ++ is) (M.final s is) := by
  induction is generalizing past s with
  | nil => simpa using h
  | cons i is ih =>
      have hnext := ih (past ++ [i]) (M.step s i).1 (hstep past s i h)
      simpa using hnext

/-! ### Streams cut into chunks -/

/-- The chunk that holds one element of the stream. -/
theorem exists_chunk {chunks : List (List ι)} {before after : List ι} {i : ι}
    (h : chunks.flatten = before ++ i :: after) :
    ∃ earlier front back later, chunks = earlier ++ (front ++ i :: back) :: later ∧
      before = earlier.flatten ++ front ∧ after = back ++ later.flatten := by
  obtain ⟨earlier, rest, rfl, rfl, hrest⟩ | ⟨earlier, front, j, back, later, rfl, rfl, hrest⟩ :=
    List.flatten_eq_append_iff.mp h
  · -- A chunk starts with it, behind chunks that may be empty.
    obtain ⟨empty, back, later, rfl, hempty, rfl⟩ := List.flatten_eq_cons_iff.mp hrest.symm
    refine ⟨earlier ++ empty, [], back, later, by simp, ?_, rfl⟩
    rw [List.flatten_append, List.flatten_eq_nil_iff.mpr hempty]
    simp
  · rw [List.cons_append, List.cons.injEq] at hrest
    obtain ⟨rfl, rfl⟩ := hrest
    exact ⟨earlier, front, back, later, rfl, rfl, rfl⟩

/-! ### Simulation -/

/-- `R` relates states of `M` to states of `N` step by step, and `M` says `f` of what `N`
says. -/
structure Simulation (M : Mealy σ ι ο) (N : Mealy τ ι ο') (R : σ → τ → Prop)
    (f : ο' → ο) : Prop where
  /-- Related states step to related states. -/
  state : ∀ s t i, R s t → R (M.step s i).1 (N.step t i).1
  /-- Related states give related outputs. -/
  output : ∀ s t i, R s t → (M.step s i).2 = f (N.step t i).2

namespace Simulation

variable {M : Mealy σ ι ο} {N : Mealy τ ι ο'} {R : σ → τ → Prop} {f : ο' → ο}

/-- Related states stay related along a run. -/
theorem final (h : Simulation M N R f) {s : σ} {t : τ} (hR : R s t) (is : List ι) :
    R (M.final s is) (N.final t is) := by
  induction is generalizing s t with
  | nil => exact hR
  | cons i is ih => exact ih (h.state s t i hR)

/-- The outputs of a whole run correspond, index by index. -/
theorem outputs (h : Simulation M N R f) {s : σ} {t : τ} (hR : R s t) (is : List ι) :
    M.outputs s is = (N.outputs t is).map f := by
  induction is generalizing s t with
  | nil => rfl
  | cons i is ih =>
      rw [outputs_cons, outputs_cons, List.map_cons, h.output s t i hR,
        ih (h.state s t i hR)]

end Simulation

end Mealy

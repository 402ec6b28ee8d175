/-!
# `SerialRpc.Lib.Loop`: steps in a row, up to the first that ends the loop

`step` takes a state and an input to a state and a verdict. The verdict `again` lets the loop go
on with the next input, and any other one ends it: `run`. `Along P` says that `P` holds of the
inputs that a run comes to, each with the state in front of it.

* `along_append`: two parts of the inputs, one behind the other.
* `Along.invariant`, `along_iff`: what each step keeps, a run keeps, and what is the same at each
  step under an invariant is the same along a run.
* `run_ends_with`: a run ends with the verdict of its last step.
-/

set_option autoImplicit false

namespace SerialRpc

namespace Loop

variable {σ ι ω : Type} {step : σ → ι → σ × ω} {again : ω}

/-- The steps on some inputs. -/
def run (step : σ → ι → σ × ω) (again : ω) [∀ o, Decidable (o = again)] (s : σ) : List ι → σ × ω
  | [] => (s, again)
  | i :: is => if (step s i).2 = again then run step again (step s i).1 is else step s i

/-- `P` holds of the inputs that a run comes to. -/
def Along (step : σ → ι → σ × ω) (again : ω) (P : σ → ι → Prop) : σ → List ι → Prop
  | _, [] => True
  | s, i :: is => P s i ∧ ((step s i).2 = again → Along step again P (step s i).1 is)

/-- What comes to the same at each step does so along a run. -/
theorem along_iff {I : σ → Prop} (hstep : ∀ s i, I s → I (step s i).1) {P Q : σ → ι → Prop}
    (hsame : ∀ s i, I s → (P s i ↔ Q s i)) {s : σ} (hI : I s) (is : List ι) :
    Along step again P s is ↔ Along step again Q s is := by
  induction is generalizing s with
  | nil => exact Iff.rfl
  | cons i is ih =>
      rw [Along, Along, hsame s i hI, ih (hstep s i hI)]

/-- What holds along a run also holds weakened. -/
theorem Along.imp {P Q : σ → ι → Prop} (h : ∀ s i, P s i → Q s i) {s : σ} {is : List ι}
    (hP : Along step again P s is) : Along step again Q s is := by
  induction is generalizing s with
  | nil => trivial
  | cons i is ih => exact ⟨h s i hP.1, fun hagain => ih (hP.2 hagain)⟩

variable [∀ o, Decidable (o = again)]

/-- A turn after which the loop goes on. -/
theorem run_cons_again {s : σ} {i : ι} (h : (step s i).2 = again) (is : List ι) :
    run step again s (i :: is) = run step again (step s i).1 is := by
  rw [run, if_pos h]

/-- A turn that ends the loop. -/
theorem run_cons_ended {s : σ} {i : ι} (h : (step s i).2 ≠ again) (is : List ι) :
    run step again s (i :: is) = step s i := by
  rw [run, if_neg h]

/-- A loop of one turn. -/
theorem run_singleton (s : σ) (i : ι) : run step again s [i] = step s i := by
  rcases hstep : step s i with ⟨s', o⟩
  by_cases h : o = again
  · rw [run_cons_again (by rw [hstep]; exact h), hstep, run, h]
  · rw [run_cons_ended (by rw [hstep]; exact h), hstep]

/-- The inputs behind some others. -/
theorem run_append (s : σ) (is js : List ι) :
    run step again s (is ++ js)
      = if (run step again s is).2 = again then run step again (run step again s is).1 js
        else run step again s is := by
  induction is generalizing s with
  | nil => rw [run, if_pos rfl, List.nil_append]
  | cons i is ih =>
      rw [List.cons_append]
      by_cases h : (step s i).2 = again
      · rw [run_cons_again h, run_cons_again h]
        exact ih (step s i).1
      · rw [run_cons_ended h, run_cons_ended h, if_neg h]

/-- What holds along the inputs holds along the first part, and along the second if the run comes
to it. -/
theorem along_append {P : σ → ι → Prop} (s : σ) (is js : List ι) :
    Along step again P s (is ++ js) ↔
      Along step again P s is ∧
        ((run step again s is).2 = again → Along step again P (run step again s is).1 js) := by
  induction is generalizing s with
  | nil => exact ⟨fun h => ⟨trivial, fun _ => h⟩, fun h => h.2 rfl⟩
  | cons i is ih =>
      rw [List.cons_append, Along, Along]
      by_cases h : (step s i).2 = again
      · rw [run_cons_again h, ih]
        exact ⟨fun hall => ⟨⟨hall.1, fun _ => (hall.2 h).1⟩, (hall.2 h).2⟩,
          fun hall => ⟨hall.1.1, fun _ => ⟨hall.1.2 h, hall.2⟩⟩⟩
      · rw [run_cons_ended h]
        exact ⟨fun hall => ⟨⟨hall.1, fun hagain => absurd hagain h⟩, fun hagain => absurd hagain h⟩,
          fun hall => ⟨hall.1.1, fun hagain => absurd hagain h⟩⟩

/-- An invariant of the steps that meet a condition. -/
theorem Along.invariant {P : σ → ι → Prop} {I : σ → Prop}
    (hstep : ∀ s i, I s → P s i → I (step s i).1) {s : σ} (hI : I s) {is : List ι}
    (h : Along step again P s is) : I (run step again s is).1 := by
  induction is generalizing s with
  | nil => exact hI
  | cons i is ih =>
      have hnext := hstep s i hI h.1
      by_cases hagain : (step s i).2 = again
      · rw [run_cons_again hagain]
        exact ih hnext (h.2 hagain)
      · rw [run_cons_ended hagain]
        exact hnext

/-- A run that ends before its inputs do ends with one of its steps. -/
theorem run_ends_with {s : σ} {is : List ι} {o : ω} (ho : o ≠ again)
    (hended : (run step again s is).2 = o) :
    ¬ Along step again (fun s i => (step s i).2 ≠ o) s is := by
  induction is generalizing s with
  | nil => exact fun _ => ho hended.symm
  | cons i is ih =>
      intro hnever
      by_cases h : (step s i).2 = again
      · rw [run_cons_again h] at hended
        exact ih hended (hnever.2 h)
      · rw [run_cons_ended h] at hended
        exact hnever.1 hended

end Loop

end SerialRpc

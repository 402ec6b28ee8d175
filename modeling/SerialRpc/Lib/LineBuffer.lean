import SerialRpc.Lib.Mealy
import Mathlib.Data.List.Basic

/-!
# `SerialRpc.Lib.LineBuffer`: a bounded buffer that cuts a stream into lines

A line buffer collects what it reads until a line ends, and then gives the line out. It has
room for `cap` elements. When it is full and the line goes on, it gives out what it has and
starts again.

`given_eq` says what comes out of a stream: its lines (`List.splitOnP`), each in `chunks` of
`cap` elements. Of the line that has not ended, the last chunk is still in the buffer.
-/

set_option autoImplicit false

namespace LineBuffer

variable {α : Type} (ignored ends : α → Bool) (cap : Nat)

/-- The buffer as a machine. It ignores some of the stream. -/
def machine : Mealy (List α) α (Option (List α)) where
  step line a :=
    if ignored a then (line, none)
    else if ends a then ([], some line)
    else if cap ≤ line.length then ([a], some line)
    else (line ++ [a], none)

/-- What the buffer gives out. -/
def given (line as : List α) : List (List α) :=
  ((machine ignored ends cap).outputs line as).filterMap id

/-- A line in chunks. A line that is empty is one chunk. -/
def chunks (line : List α) : List (List α) :=
  if cap = 0 ∨ line.length ≤ cap then [line]
  else line.take cap :: chunks (line.drop cap)
termination_by line.length
decreasing_by
  simp only [List.length_drop]
  omega

/-- The chunks of some lines that are complete. The last line has not ended: of its chunks
those are complete that another one follows. -/
def complete (lines : List (List α)) : List (List α) :=
  lines.dropLast.flatMap (chunks cap) ++ (chunks cap (lines.getLastD [])).dropLast

/-- The complete chunks of a stream. -/
noncomputable def pieces (as : List α) : List (List α) := complete cap (as.splitOnP ends)

variable {ignored ends cap}

/-! ### Chunks -/

/-- A line that fits is one chunk. -/
theorem chunks_short {line : List α} (h : line.length ≤ cap) : chunks cap line = [line] := by
  rw [chunks, if_pos (Or.inr h)]

/-- A chunk that is full, and more. -/
theorem chunks_append {line more : List α} (hcap : 0 < cap) (hfull : line.length = cap)
    (hmore : more ≠ []) : chunks cap (line ++ more) = line :: chunks cap more := by
  have hpos := List.length_pos_iff.mpr hmore
  have hlong : ¬ (cap = 0 ∨ (line ++ more).length ≤ cap) := by
    rw [List.length_append]
    omega
  rw [chunks, if_neg hlong, ← hfull, List.take_left, List.drop_left]

/-- Every line has a chunk, the empty one too. -/
theorem chunks_ne_nil (line : List α) : chunks cap line ≠ [] := by
  rw [chunks]
  split <;> exact List.cons_ne_nil _ _

/-- A line that has ended gives all its chunks. -/
theorem complete_cons {lines : List (List α)} (line : List α) (h : lines ≠ []) :
    complete cap (line :: lines) = chunks cap line ++ complete cap lines := by
  have hlast : (line :: lines).getLastD [] = lines.getLastD [] := by
    cases lines with
    | nil => exact absurd rfl h
    | cons other lines => rfl
  rw [complete, complete, List.dropLast_cons_of_ne_nil h, List.flatMap_cons, hlast,
    List.append_assoc]

/-- Of a line that has not ended, all chunks but the last are complete. -/
theorem complete_single (line : List α) :
    complete cap [line] = (chunks cap line).dropLast := rfl

/-- A full chunk in front of the first line. -/
theorem complete_full {chunk line : List α} {lines : List (List α)} (hcap : 0 < cap)
    (hfull : chunk.length = cap) (hline : line ≠ []) :
    complete cap ((chunk ++ line) :: lines) = chunk :: complete cap (line :: lines) := by
  have hchunks := chunks_append hcap hfull hline
  cases lines with
  | nil =>
      rw [complete_single, complete_single, hchunks,
        List.dropLast_cons_of_ne_nil (chunks_ne_nil line)]
  | cons other lines =>
      rw [complete_cons _ (List.cons_ne_nil _ _), complete_cons _ (List.cons_ne_nil _ _), hchunks,
        List.cons_append]

/-! ### The buffer -/

/-- What is given out for the first byte comes first. -/
theorem given_cons (line : List α) (a : α) (as : List α) :
    given ignored ends cap line (a :: as)
      = ((machine ignored ends cap).step line a).2.toList ++
        given ignored ends cap ((machine ignored ends cap).step line a).1 as := by
  rw [given, Mealy.outputs_cons]
  cases ((machine ignored ends cap).step line a).2 <;> rfl

/-- A stream that starts within a line. -/
theorem splitOnP_within {line : List α} (hline : ∀ x ∈ line, ends x = false) (as : List α) :
    (line ++ as).splitOnP ends = (as.splitOnP ends).modifyHead (line ++ ·) := by
  induction line with
  | nil =>
      rw [List.nil_append]
      cases as.splitOnP ends <;> rfl
  | cons a line ih =>
      have ha : ends a = false := hline a List.mem_cons_self
      have hrest := ih fun x hx => hline x (List.mem_cons_of_mem a hx)
      rw [List.cons_append, List.splitOnP_cons_eq_if_modifyHead, ha, hrest]
      cases as.splitOnP ends <;> rfl

/-- What comes out of a stream that starts within a line of at most `cap` elements. -/
theorem given_within (hcap : 0 < cap) {line : List α} (hline : ∀ x ∈ line, ends x = false)
    (hroom : line.length ≤ cap) (as : List α) :
    given ignored ends cap line as
      = pieces ends cap (line ++ as.filter fun a => !ignored a) := by
  -- By induction on the elements, with the line that has been collected.
  induction as generalizing line with
  | nil =>
      rw [List.filter_nil, List.append_nil, pieces, List.splitOnP_eq_singleton hline,
        complete_single, chunks_short hroom]
      rfl
  | cons a as ih =>
      rw [given_cons]
      by_cases hignored : ignored a = true
      · -- Nothing happens.
        have hstep : (machine ignored ends cap).step line a = (line, none) := by
          simp [machine, hignored]
        rw [hstep, List.filter_cons_of_neg (by simp [hignored])]
        exact ih hline hroom
      · rw [List.filter_cons_of_pos (by simpa using hignored)]
        by_cases hend : ends a = true
        · -- The line ends.
          have hstep : (machine ignored ends cap).step line a = ([], some line) := by
            simp [machine, hignored, hend]
          have hempty : ∀ x ∈ ([] : List α), ends x = false := by simp
          have hrest := ih hempty (Nat.zero_le _)
          rw [hstep, pieces, List.splitOnP_append_cons_of_forall_mem hline a hend,
            complete_cons _ (List.splitOnP_ne_nil _ _), chunks_short hroom]
          exact congrArg (line :: ·) hrest
        · have ha : ends a = false := by simpa using hend
          by_cases hfull : cap ≤ line.length
          · -- The buffer is full, and the line goes on with `a`.
            have hstep : (machine ignored ends cap).step line a = ([a], some line) := by
              simp [machine, hignored, hend, hfull]
            have hnew : ∀ x ∈ [a], ends x = false := by simpa using ha
            have hrest := ih hnew hcap
            have hlen : line.length = cap := Nat.le_antisymm hroom hfull
            obtain ⟨first, others, hsplit⟩ := List.exists_cons_of_ne_nil
              (List.splitOnP_ne_nil ends (as.filter fun a => !ignored a))
            rw [hstep]
            rw [pieces, splitOnP_within hnew, hsplit] at hrest
            rw [pieces, splitOnP_within hline, List.splitOnP_cons_eq_if_modifyHead, ha, hsplit]
            refine (congrArg (line :: ·) hrest).trans (complete_full hcap hlen ?_).symm
            exact List.cons_ne_nil a first
          · -- There is room.
            have hstep : (machine ignored ends cap).step line a = (line ++ [a], none) := by
              simp [machine, hignored, hend, hfull]
            have hlonger : ∀ x ∈ line ++ [a], ends x = false := by
              intro x hx
              rcases List.mem_append.mp hx with hx | hx
              · exact hline x hx
              · rwa [List.mem_singleton.mp hx]
            have hrest := ih hlonger (by rw [List.length_append, List.length_singleton]; omega)
            rw [List.append_assoc, List.singleton_append] at hrest
            rw [hstep]
            exact hrest

/-- An empty buffer gives out the complete chunks of the stream. -/
theorem given_eq (hcap : 0 < cap) (as : List α) :
    given ignored ends cap [] as = pieces ends cap (as.filter fun a => !ignored a) :=
  given_within hcap (by simp) (Nat.zero_le _) as

end LineBuffer

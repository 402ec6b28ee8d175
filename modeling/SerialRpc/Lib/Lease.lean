import Mathlib.Data.List.Induction

/-!
# `SerialRpc.Lib.Lease`: a lease that is renewed, and checked now and then

A lease is granted for a term. A sign of life renews it, and a check ends it when the term has
passed since the last sign. A lease whose term is 0 does not expire. `Lease.run` is what
becomes of a lease over the signals of a run, each with its true time.

The rules:

* `run_kept` and `run_lost`: without a new grant the lease is held exactly as long as nobody
  gives it back or withdraws it, and every check comes in time (`Kept`).
* `counted_of_apart`: checks less than `M - term` apart never find a lease whose last sign of
  life is `M` ago or more. So a clock that counts modulo `M` measures that time exactly
  (`elapsed_mod`).
-/

set_option autoImplicit false

namespace SerialRpc

/-- A lease that is held: its term, and the time of the last sign of life. -/
structure Lease where
  term : Nat
  since : Nat
deriving DecidableEq

namespace Lease

/-- What happens to a lease. -/
inductive Signal where
  | grant (term : Nat)
  | renew
  /-- The holder gives it back, which is a sign of life too. -/
  | release
  | withdraw
  | check
  | idle
deriving DecidableEq

/-- One signal at the true time `now`. -/
def step (held : Option Lease) (now : Nat) : Signal → Option Lease
  | .grant term => some ⟨term, now⟩
  | .renew => held.map fun lease => { lease with since := now }
  | .release => none
  | .withdraw => none
  | .check => held.filter fun lease => lease.term = 0 ∨ now < lease.since + lease.term
  | .idle => held

/-- A check that comes in time keeps the lease. -/
theorem step_check_kept {lease : Lease} {now : Nat}
    (h : lease.term = 0 ∨ now < lease.since + lease.term) :
    step (some lease) now .check = some lease := by
  simp [step, Option.filter, h]

/-- A check that comes late ends it. -/
theorem step_check_ended {lease : Lease} {now : Nat}
    (h : ¬ (lease.term = 0 ∨ now < lease.since + lease.term)) :
    step (some lease) now .check = none := by
  simp [step, Option.filter, h]

/-- The lease after some signals. -/
def run (held : Option Lease) (signals : List (Nat × Signal)) : Option Lease :=
  signals.foldl (fun held x => step held x.1 x.2) held

/-- No signals change nothing. -/
@[simp] theorem run_nil (held : Option Lease) : run held [] = held := rfl

/-- The first signal, and then the rest. -/
@[simp] theorem run_cons (held : Option Lease) (x : Nat × Signal)
    (signals : List (Nat × Signal)) :
    run held (x :: signals) = run (step held x.1 x.2) signals := rfl

/-- The last signal comes behind all others. -/
theorem run_concat (held : Option Lease) (signals : List (Nat × Signal)) (x : Nat × Signal) :
    run held (signals ++ [x]) = step (run held signals) x.1 x.2 := by
  rw [run, List.foldl_append]
  rfl

/-! ### Signs of life -/

/-- Whether a signal is a sign of life. -/
def Signal.isSign : Signal → Bool
  | .grant _ => true
  | .renew => true
  | .release => true
  | _ => false

/-- The last sign of life, from an earlier one at `since` on. -/
def lastSign (since : Nat) (signals : List (Nat × Signal)) : Nat :=
  signals.foldl (fun since x => if x.2.isSign then x.1 else since) since

/-- Without a signal the holder was last heard of when the lease began. -/
@[simp] theorem lastSign_nil (since : Nat) : lastSign since [] = since := rfl

/-- A sign of life is the last one when it comes last. -/
theorem lastSign_concat (since : Nat) (signals : List (Nat × Signal)) (x : Nat × Signal) :
    lastSign since (signals ++ [x]) = if x.2.isSign then x.1 else lastSign since signals := by
  rw [lastSign, List.foldl_append]
  rfl

/-! ### Keeping a lease -/

/-- Each check comes less than `term` after the last sign of life. -/
def InTime (term since : Nat) (signals : List (Nat × Signal)) : Prop :=
  ∀ before now after, signals = before ++ (now, .check) :: after →
    now < lastSign since before + term

/-- The lease is neither given back nor withdrawn. -/
def Unbroken (signals : List (Nat × Signal)) : Prop :=
  ∀ x ∈ signals, x.2 ≠ .release ∧ x.2 ≠ .withdraw

/-- There is no new grant. -/
def Ungranted (signals : List (Nat × Signal)) : Prop := ∀ x ∈ signals, ∀ term, x.2 ≠ .grant term

/-- Nothing ends the lease. -/
structure Kept (term since : Nat) (signals : List (Nat × Signal)) : Prop where
  unbroken : Unbroken signals
  inTime : 0 < term → InTime term since signals

/-- The last signal breaks the lease, or one before it. -/
theorem unbroken_concat {signals : List (Nat × Signal)} {x : Nat × Signal} :
    Unbroken (signals ++ [x]) ↔ Unbroken signals ∧ x.2 ≠ .release ∧ x.2 ≠ .withdraw := by
  unfold Unbroken
  rw [List.forall_mem_append, List.forall_mem_singleton]

/-- The same for a new grant. -/
theorem ungranted_concat {signals : List (Nat × Signal)} {x : Nat × Signal} :
    Ungranted (signals ++ [x]) ↔ Ungranted signals ∧ ∀ term, x.2 ≠ .grant term := by
  unfold Ungranted
  rw [List.forall_mem_append, List.forall_mem_singleton]

/-- The last signal matters if it is a check. -/
theorem inTime_concat {term since : Nat} {signals : List (Nat × Signal)} {x : Nat × Signal} :
    InTime term since (signals ++ [x]) ↔
      InTime term since signals ∧ (x.2 = .check → x.1 < lastSign since signals + term) := by
  constructor
  · intro h
    refine ⟨?_, ?_⟩
    · intro before now after hsplit
      exact h before now (after ++ [x]) (by rw [hsplit, List.append_assoc, List.cons_append])
    · intro hcheck
      exact h signals x.1 [] (by rw [← hcheck])
  · rintro ⟨hearlier, hlast⟩ before now after hsplit
    -- The check is the last signal, or one of the others.
    rcases List.eq_nil_or_concat after with rfl | ⟨later, y, rfl⟩
    · obtain ⟨hbefore, hx⟩ := List.append_inj' hsplit rfl
      cases hx
      cases hbefore
      exact hlast rfl
    · have hsignals : signals ++ [x] = (before ++ (now, .check) :: later) ++ [y] := by
        rw [hsplit, List.concat_eq_append, List.append_assoc, List.cons_append]
      exact hearlier before now later (List.append_inj' hsignals rfl).1

/-- No check comes too late when there is none. -/
theorem inTime_nil (term since : Nat) : InTime term since [] := by
  intro before now after hsplit
  cases before <;> cases hsplit

/-- A lease is kept before the first signal. -/
theorem kept_nil (term since : Nat) : Kept term since [] where
  unbroken x hx := by cases hx
  inTime _ := inTime_nil term since

/-- The last signal keeps the lease when it does not end it, and is in time if it is a check. -/
theorem kept_concat {term since : Nat} {signals : List (Nat × Signal)} {x : Nat × Signal} :
    Kept term since (signals ++ [x]) ↔
      Kept term since signals ∧ (x.2 ≠ .release ∧ x.2 ≠ .withdraw) ∧
        (x.2 = .check → 0 < term → x.1 < lastSign since signals + term) := by
  constructor
  · intro h
    obtain ⟨hunbroken, hends⟩ := unbroken_concat.mp h.unbroken
    refine ⟨⟨hunbroken, ?_⟩, hends, ?_⟩
    · intro hterm
      exact (inTime_concat.mp (h.inTime hterm)).1
    · intro hcheck hterm
      exact (inTime_concat.mp (h.inTime hterm)).2 hcheck
  · rintro ⟨hkept, hends, hlast⟩
    refine ⟨unbroken_concat.mpr ⟨hkept.unbroken, hends⟩, ?_⟩
    intro hterm
    exact inTime_concat.mpr ⟨hkept.inTime hterm, fun hcheck => hlast hcheck hterm⟩

/-- Without a new grant a lease is kept by what `Kept` says, and lost otherwise. -/
theorem run_granted (term since : Nat) {signals : List (Nat × Signal)}
    (hungranted : Ungranted signals) :
    (Kept term since signals ∧
        run (some ⟨term, since⟩) signals = some ⟨term, lastSign since signals⟩) ∨
      (¬ Kept term since signals ∧ run (some ⟨term, since⟩) signals = none) := by
  induction signals using List.reverseRecOn with
  | nil => exact Or.inl ⟨kept_nil term since, rfl⟩
  | append_singleton signals x ih =>
      obtain ⟨now, signal⟩ := x
      obtain ⟨hearlier, hnew⟩ := ungranted_concat.mp hungranted
      rw [run_concat, lastSign_concat, kept_concat]
      -- A lease that was held before the last signal is decided by that signal.
      rcases ih hearlier with ⟨hkept, hrun⟩ | ⟨hlost, hrun⟩
      · rw [hrun]
        cases signal with
        | grant term' => exact absurd rfl (hnew term')
        | renew => exact Or.inl ⟨⟨hkept, by simp, by simp⟩, rfl⟩
        | release => exact Or.inr ⟨fun h => h.2.1.1 rfl, rfl⟩
        | withdraw => exact Or.inr ⟨fun h => h.2.1.2 rfl, rfl⟩
        | idle => exact Or.inl ⟨⟨hkept, by simp, by simp⟩, rfl⟩
        | check =>
            by_cases hin : term = 0 ∨ now < lastSign since signals + term
            · refine Or.inl ⟨⟨hkept, by simp, ?_⟩, ?_⟩
              · intro _ hterm
                exact hin.resolve_left (by omega)
              · exact step_check_kept hin
            · refine Or.inr ⟨?_, step_check_ended hin⟩
              rintro ⟨-, -, hlast⟩
              exact hin (Or.inr (hlast rfl (by omega)))
      · -- A lease that is lost stays lost.
        rw [hrun]
        refine Or.inr ⟨fun h => hlost h.1, ?_⟩
        cases signal with
        | grant term' => exact absurd rfl (hnew term')
        | _ => rfl

/-- A lease that is kept is held, since the last sign of life. -/
theorem run_kept {term since : Nat} {signals : List (Nat × Signal)}
    (hungranted : Ungranted signals) (hkept : Kept term since signals) :
    run (some ⟨term, since⟩) signals = some ⟨term, lastSign since signals⟩ := by
  rcases run_granted term since hungranted with ⟨-, hrun⟩ | ⟨hlost, -⟩
  · exact hrun
  · exact absurd hkept hlost

/-- A lease that is not kept is lost for good, until it is granted anew. -/
theorem run_lost {term since : Nat} {signals : List (Nat × Signal)}
    (hungranted : Ungranted signals) (hlost : ¬ Kept term since signals) :
    run (some ⟨term, since⟩) signals = none := by
  rcases run_granted term since hungranted with ⟨hkept, -⟩ | ⟨-, hrun⟩
  · exact absurd hkept hlost
  · exact hrun

/-- So the lease is held exactly as long as it is kept. -/
theorem isSome_run {term since : Nat} {signals : List (Nat × Signal)}
    (hungranted : Ungranted signals) :
    (run (some ⟨term, since⟩) signals).isSome = true ↔ Kept term since signals := by
  constructor
  · intro hsome
    by_contra hlost
    rw [run_lost hungranted hlost] at hsome
    cases hsome
  · intro hkept
    rw [run_kept hungranted hkept]
    rfl

/-! ### A clock that wraps -/

/-- Each check comes less than `gap` after the one before, and the first less than `gap` after
`last`. -/
def ChecksWithin (gap : Nat) : Nat → List (Nat × Signal) → Prop
  | _, [] => True
  | last, (now, .check) :: signals => now < last + gap ∧ ChecksWithin gap now signals
  | last, _ :: signals => ChecksWithin gap last signals

/-- Whenever a lease with a term is checked, its last sign of life is less than `M` ago. -/
def Counted (M : Nat) : Option Lease → List (Nat × Signal) → Prop
  | _, [] => True
  | held, (now, signal) :: signals =>
      (signal = .check → ∀ lease ∈ held, 0 < lease.term →
        lease.since ≤ now ∧ now < lease.since + M) ∧
      Counted M (step held now signal) signals

/-- Nothing is checked when nothing is held. -/
theorem counted_none (M : Nat) {signals : List (Nat × Signal)} (hungranted : Ungranted signals) :
    Counted M none signals := by
  induction signals with
  | nil => trivial
  | cons x signals ih =>
      obtain ⟨now, signal⟩ := x
      obtain ⟨hnew, hlater⟩ := List.forall_mem_cons.mp hungranted
      have hnone : step none now signal = none := by
        cases signal with
        | grant term => exact absurd rfl (hnew term)
        | _ => rfl
      refine ⟨?_, ?_⟩
      · intro _ lease hlease
        cases hlease
      · rw [hnone]
        exact ih hlater

/-- A lease without a term is not measured. -/
theorem counted_forever (M since : Nat) {signals : List (Nat × Signal)}
    (hungranted : Ungranted signals) : Counted M (some ⟨0, since⟩) signals := by
  induction signals generalizing since with
  | nil => trivial
  | cons x signals ih =>
      obtain ⟨now, signal⟩ := x
      obtain ⟨hnew, hlater⟩ := List.forall_mem_cons.mp hungranted
      refine ⟨?_, ?_⟩
      · rintro - lease ⟨⟩ hterm
        exact absurd hterm (Nat.lt_irrefl 0)
      · cases signal with
        | grant term => exact absurd rfl (hnew term)
        | renew => exact ih now hlater
        | release => exact counted_none M hlater
        | withdraw => exact counted_none M hlater
        | check => exact ih since hlater
        | idle => exact ih since hlater

/-- Checks less than `M - term` apart. The check before came in time, so at each check the last
sign of life is less than `M` ago. -/
theorem counted_of_apart {M term since last start : Nat} {signals : List (Nat × Signal)}
    (hungranted : Ungranted signals) (hpositive : 0 < term) (hterm : term ≤ M)
    (hsince : since ≤ start) (hlater : last ≤ start) (hlast : last < since + term)
    (htimes : (start :: signals.map Prod.fst).Pairwise (· ≤ ·))
    (happart : ChecksWithin (M - term) last signals) :
    Counted M (some ⟨term, since⟩) signals := by
  induction signals generalizing since last start with
  | nil => trivial
  | cons x signals ih =>
      obtain ⟨now, signal⟩ := x
      obtain ⟨hnew, hrest⟩ := List.forall_mem_cons.mp hungranted
      obtain ⟨hstart, htimes⟩ := List.pairwise_cons.mp htimes
      have hnow : start ≤ now := hstart now (by simp)
      have hsinceNow : since ≤ now := Nat.le_trans hsince hnow
      have hlastNow : last ≤ now := Nat.le_trans hlater hnow
      cases signal with
      | grant term' => exact absurd rfl (hnew term')
      | renew =>
          -- The check before came no later than this sign of life.
          have hin : last < now + term := by omega
          exact ⟨by simp, ih hrest (Nat.le_refl now) hlastNow hin htimes happart⟩
      | release => exact ⟨by simp, counted_none M hrest⟩
      | withdraw => exact ⟨by simp, counted_none M hrest⟩
      | idle => exact ⟨by simp, ih hrest hsinceNow hlastNow hlast htimes happart⟩
      | check =>
          obtain ⟨hgap, happart⟩ := happart
          refine ⟨?_, ?_⟩
          · rintro - lease ⟨⟩ -
            refine ⟨hsinceNow, ?_⟩
            -- The check before was less than `term` behind the sign, and this one is less than
            -- `M - term` behind that check.
            show now < since + M
            omega
          · by_cases hin : now < since + term
            · rw [step_check_kept (Or.inr hin)]
              exact ih hrest hsinceNow (Nat.le_refl now) hin htimes happart
            · have hlate : ¬ (term = 0 ∨ now < since + term) := by omega
              rw [step_check_ended hlate]
              exact counted_none M hrest

/-- Less than `M` between two moments: readings modulo `M` tell how much. -/
theorem elapsed_mod {M earlier later : Nat} (hle : earlier ≤ later) (hlt : later < earlier + M) :
    (M - earlier % M + later % M) % M = later - earlier := by
  have hM : 0 < M := by omega
  have hearlier := Nat.mod_lt earlier hM
  obtain ⟨passed, rfl⟩ := Nat.exists_eq_add_of_le hle
  have hsum : (M - earlier % M + (earlier + passed) % M) % M
      = (M - earlier % M + (earlier + passed)) % M := Nat.add_mod_mod _ _ _
  have hwhole : M - earlier % M + (earlier + passed) = passed + M * (earlier / M + 1) := by
    have hdiv := Nat.div_add_mod earlier M
    rw [Nat.mul_add]
    omega
  rw [hsum, hwhole, Nat.add_mul_mod_self_left, Nat.mod_eq_of_lt (by omega)]
  omega

end Lease

end SerialRpc

import Mathlib.Data.List.Nodup

/-!
# `SerialRpc.Lib.Custody`: a ledger of resources

Resources are acquired, used and released. A ledger is in order when it never has something
acquired that is held, and never has something used or released that is not (`runs`). From a ledger
in order one can count: a resource that is not held was released as often as it was acquired
(`count_balance`).

What is held has an owner, and only one (`Kept`). Owners come and go with what they own, and one may
hand it to another, which is no entry of the ledger.
-/

set_option autoImplicit false

namespace Custody

variable {α : Type} [DecidableEq α]

/-- An entry of the ledger. -/
inductive Deed (α : Type) where
  | acquired (a : α)
  | used (a : α)
  | released (a : α)
deriving DecidableEq, Repr

/-- What is held behind an entry, if the entry is in order. -/
def Deed.run (held : List α) : Deed α → Option (List α)
  | .acquired a => if a ∈ held then none else some (a :: held)
  | .used a => if a ∈ held then some held else none
  | .released a => if a ∈ held then some (held.erase a) else none

/-- What is held behind a ledger, if the ledger is in order. -/
def runs (held : List α) : List (Deed α) → Option (List α)
  | [] => some held
  | deed :: deeds => (deed.run held).bind fun held => runs held deeds

/-- No deeds change nothing. -/
@[simp] theorem runs_nil (held : List α) : runs held [] = some held := rfl

/-- The first deed, and then the rest. -/
theorem runs_cons (held : List α) (deed : Deed α) (deeds : List (Deed α)) :
    runs held (deed :: deeds) = (deed.run held).bind fun held => runs held deeds := rfl

/-- A ledger in two parts. -/
theorem runs_append (held : List α) (deeds more : List (Deed α)) :
    runs held (deeds ++ more) = (runs held deeds).bind fun held => runs held more := by
  induction deeds generalizing held with
  | nil => rfl
  | cons deed deeds ih =>
      rw [List.cons_append, runs_cons, runs_cons, Option.bind_assoc]
      congr 1
      funext held'
      exact ih held'

/-- The ledger goes on. -/
theorem runs_concat {held held' : List α} {deeds : List (Deed α)} (h : runs held deeds = some held')
    (deed : Deed α) : runs held (deeds ++ [deed]) = deed.run held' := by
  rw [runs_append, h, Option.bind_some, runs_cons]
  cases deed.run held' <;> rfl

section
variable {held held' : List α} {a : α}

/-- What nobody holds may be acquired. -/
theorem run_acquired (h : a ∉ held) : (Deed.acquired a).run held = some (a :: held) := if_neg h

/-- What is held may be used. -/
theorem run_used (h : a ∈ held) : (Deed.used a).run held = some held := if_pos h

/-- What is held may be released. -/
theorem run_released (h : a ∈ held) : (Deed.released a).run held = some (held.erase a) := if_pos h

/-- What an entry in order does. -/
theorem run_cases {deed : Deed α} (h : deed.run held = some held') :
    (∃ a, deed = .acquired a ∧ a ∉ held ∧ held' = a :: held) ∨
      (∃ a, deed = .used a ∧ a ∈ held ∧ held' = held) ∨
      (∃ a, deed = .released a ∧ a ∈ held ∧ held' = held.erase a) := by
  -- Each deed runs on one side of the membership test, and is refused on the other.
  cases deed with
  | acquired a =>
      by_cases hmem : a ∈ held
      · rw [Deed.run, if_pos hmem] at h
        cases h
      · rw [run_acquired hmem] at h
        exact .inl ⟨a, rfl, hmem, (Option.some.inj h).symm⟩
  | used a =>
      by_cases hmem : a ∈ held
      · rw [run_used hmem] at h
        exact .inr (.inl ⟨a, rfl, hmem, (Option.some.inj h).symm⟩)
      · rw [Deed.run, if_neg hmem] at h
        cases h
  | released a =>
      by_cases hmem : a ∈ held
      · rw [run_released hmem] at h
        exact .inr (.inr ⟨a, rfl, hmem, (Option.some.inj h).symm⟩)
      · rw [Deed.run, if_neg hmem] at h
        cases h

/-- Nothing is held twice. -/
theorem run_nodup {deed : Deed α} (h : deed.run held = some held') (hnodup : held.Nodup) :
    held'.Nodup := by
  rcases run_cases h with ⟨a, -, hfree, rfl⟩ | ⟨a, -, -, rfl⟩ | ⟨a, -, -, rfl⟩
  · exact List.nodup_cons.mpr ⟨hfree, hnodup⟩
  · exact hnodup
  · exact hnodup.erase a

/-- Nothing is ever held twice. -/
theorem runs_nodup {deeds : List (Deed α)} (h : runs held deeds = some held')
    (hnodup : held.Nodup) : held'.Nodup := by
  induction deeds generalizing held with
  | nil =>
      cases h
      exact hnodup
  | cons deed deeds ih =>
      obtain ⟨between, hfirst, hlater⟩ := Option.bind_eq_some_iff.mp h
      exact ih hlater (run_nodup hfirst hnodup)

/-- One entry keeps the balance. -/
theorem run_balance {deed : Deed α} (h : deed.run held = some held') (a : α) :
    [deed].count (.acquired a) + held.count a = [deed].count (.released a) + held'.count a := by
  rcases run_cases h with ⟨b, rfl, -, rfl⟩ | ⟨b, rfl, -, rfl⟩ | ⟨b, rfl, hmem, rfl⟩
  · by_cases hsame : b = a
    · subst hsame
      simp [Nat.add_comm]
    · simp [hsame]
  · simp
  · by_cases hsame : b = a
    · subst hsame
      have hpos := List.count_pos_iff.mpr hmem
      simp
      omega
    · simp [hsame, List.count_erase_of_ne fun h => hsame h.symm]

/-- **The balance.** What is held at first and what is acquired is released or held in the end. -/
theorem count_balance {deeds : List (Deed α)} (h : runs held deeds = some held') (a : α) :
    deeds.count (.acquired a) + held.count a = deeds.count (.released a) + held'.count a := by
  induction deeds generalizing held with
  | nil =>
      cases h
      rfl
  | cons deed deeds ih =>
      obtain ⟨between, hfirst, hlater⟩ := Option.bind_eq_some_iff.mp h
      have hone := run_balance hfirst a
      have hrest := ih hlater
      rw [← List.singleton_append, List.count_append, List.count_append]
      omega

end

/-! ### Owners -/

section
variable {ν : Type}

/-- The ledger is in order, and each thing that is held has one owner. -/
structure Kept (ledger : List (Deed α)) (owner : ν → Option α) : Prop where
  held : ∃ held, runs [] ledger = some held ∧ ∀ a, a ∈ held ↔ ∃ x, owner x = some a
  alone : ∀ x y a, owner x = some a → owner y = some a → x = y

namespace Kept

variable {ledger : List (Deed α)} {owner : ν → Option α} {x : ν} {a : α}

/-- Nobody owns anything at first. -/
theorem start : Kept ([] : List (Deed α)) (fun _ : ν => none) where
  held := ⟨[], rfl, fun a => by simp⟩
  alone := by rintro x y a ⟨⟩

/-- The owner of a thing uses it. -/
theorem use (h : Kept ledger owner) (howner : owner x = some a) :
    Kept (ledger ++ [.used a]) owner where
  held := by
    obtain ⟨held, hruns, hheld⟩ := h.held
    refine ⟨held, ?_, hheld⟩
    rw [runs_concat hruns, run_used ((hheld a).mpr ⟨x, howner⟩)]
  alone := h.alone

/-- Several times in a row. -/
theorem uses (h : Kept ledger owner) (howner : owner x = some a) (n : Nat) :
    Kept (ledger ++ List.replicate n (.used a)) owner := by
  induction n with
  | zero =>
      rw [List.replicate_zero, List.append_nil]
      exact h
  | succ n ih =>
      rw [List.replicate_succ', ← List.append_assoc]
      exact ih.use howner

/-- Something free goes to one that owns nothing. -/
theorem acquire [DecidableEq ν] (h : Kept ledger owner) (hfree : ∀ y, owner y ≠ some a)
    (hnone : owner x = none) :
    Kept (ledger ++ [.acquired a]) (Function.update owner x (some a)) where
  held := by
    obtain ⟨held, hruns, hheld⟩ := h.held
    have hnew : a ∉ held := fun hmem => by
      obtain ⟨y, hy⟩ := (hheld a).mp hmem
      exact hfree y hy
    -- What is held afterwards is `a`, owned by `x`, and what the others own.
    refine ⟨a :: held, ?_, fun b => ?_⟩
    · rw [runs_concat hruns, run_acquired hnew]
    · rw [List.mem_cons, hheld]
      constructor
      · rintro (rfl | ⟨y, hy⟩)
        · exact ⟨x, Function.update_self ..⟩
        · have hother : y ≠ x := by
            rintro rfl
            rw [hnone] at hy
            cases hy
          exact ⟨y, by rw [Function.update_of_ne hother, hy]⟩
      · rintro ⟨y, hy⟩
        by_cases hsame : y = x
        · subst hsame
          rw [Function.update_self] at hy
          exact .inl (Option.some.inj hy).symm
        · rw [Function.update_of_ne hsame] at hy
          exact .inr ⟨y, hy⟩
  alone := by
    intro y z b hy hz
    by_cases hyx : y = x
    · subst hyx
      rw [Function.update_self] at hy
      cases hy
      by_contra hother
      rw [Function.update_of_ne (Ne.symm hother)] at hz
      exact hfree z hz
    · rw [Function.update_of_ne hyx] at hy
      by_cases hzx : z = x
      · subst hzx
        rw [Function.update_self] at hz
        cases hz
        exact absurd hy (hfree y)
      · rw [Function.update_of_ne hzx] at hz
        exact h.alone y z b hy hz

/-- The owner gives back what it has. -/
theorem release [DecidableEq ν] (h : Kept ledger owner) (howner : owner x = some a) :
    Kept (ledger ++ [.released a]) (Function.update owner x none) where
  held := by
    obtain ⟨held, hruns, hheld⟩ := h.held
    have hnodup := runs_nodup hruns List.nodup_nil
    -- Nobody but `x` owned `a`, so all the others keep what they have.
    refine ⟨held.erase a, ?_, fun b => ?_⟩
    · rw [runs_concat hruns, run_released ((hheld a).mpr ⟨x, howner⟩)]
    · rw [hnodup.mem_erase_iff, hheld]
      constructor
      · rintro ⟨hne, y, hy⟩
        have hother : y ≠ x := by
          rintro rfl
          rw [howner] at hy
          exact hne (Option.some.inj hy).symm
        exact ⟨y, by rw [Function.update_of_ne hother, hy]⟩
      · rintro ⟨y, hy⟩
        by_cases hsame : y = x
        · subst hsame
          rw [Function.update_self] at hy
          cases hy
        · rw [Function.update_of_ne hsame] at hy
          refine ⟨?_, y, hy⟩
          rintro rfl
          exact hsame (h.alone y x b hy howner)
  alone := by
    intro y z b hy hz
    by_cases hyx : y = x
    · subst hyx
      rw [Function.update_self] at hy
      cases hy
    · by_cases hzx : z = x
      · subst hzx
        rw [Function.update_self] at hz
        cases hz
      · rw [Function.update_of_ne hyx] at hy
        rw [Function.update_of_ne hzx] at hz
        exact h.alone y z b hy hz

/-- `y` hands what it owns to `x`. -/
theorem move [DecidableEq ν] (h : Kept ledger owner) (hnone : owner x = none) (y : ν) :
    Kept ledger (Function.update (Function.update owner y none) x (owner y)) := by
  by_cases hxy : x = y
  · subst hxy
    have hsame : Function.update (Function.update owner x none) x (owner x) = owner := by
      rw [Function.update_idem, Function.update_eq_self]
    rwa [hsame]
  -- Who owns `b` now: `x` if `y` did, and everybody else what they did.
  have howns (z : ν) (b : α) :
      Function.update (Function.update owner y none) x (owner y) z = some b ↔
        (z = x ∧ owner y = some b) ∨ (z ≠ x ∧ z ≠ y ∧ owner z = some b) := by
    by_cases hzx : z = x
    · subst hzx
      rw [Function.update_self]
      simp
    · rw [Function.update_of_ne hzx]
      by_cases hzy : z = y
      · subst hzy
        rw [Function.update_self]
        simp [hzx]
      · rw [Function.update_of_ne hzy]
        simp [hzx, hzy]
  constructor
  · obtain ⟨held, hruns, hheld⟩ := h.held
    refine ⟨held, hruns, fun b => ?_⟩
    rw [hheld]
    constructor
    · rintro ⟨z, hz⟩
      by_cases hzy : z = y
      · subst hzy
        exact ⟨x, (howns x b).mpr (.inl ⟨rfl, hz⟩)⟩
      · have hzx : z ≠ x := by
          rintro rfl
          rw [hnone] at hz
          cases hz
        exact ⟨z, (howns z b).mpr (.inr ⟨hzx, hzy, hz⟩)⟩
    · rintro ⟨z, hz⟩
      rcases (howns z b).mp hz with ⟨-, hy⟩ | ⟨-, -, hz⟩
      · exact ⟨y, hy⟩
      · exact ⟨z, hz⟩
  · intro z z' b hz hz'
    rcases (howns z b).mp hz with ⟨hzx, hy⟩ | ⟨-, hzy, hz⟩ <;>
      rcases (howns z' b).mp hz' with ⟨hzx', hy'⟩ | ⟨-, hzy', hz'⟩
    · rw [hzx, hzx']
    · exact absurd (h.alone z' y b hz' hy) hzy'
    · exact absurd (h.alone z y b hz hy') hzy
    · exact h.alone z z' b hz hz'

/-- What nobody owns was released as often as it was acquired. -/
theorem balanced (h : Kept ledger owner) (hnone : ∀ x, owner x ≠ some a) :
    ledger.count (.acquired a) = ledger.count (.released a) := by
  obtain ⟨held, hruns, hheld⟩ := h.held
  have hfree : a ∉ held := fun hmem => by
    obtain ⟨x, hx⟩ := (hheld a).mp hmem
    exact hnone x hx
  have hbalance := count_balance hruns a
  rwa [List.count_eq_zero_of_not_mem hfree, List.count_nil] at hbalance

end Kept

end

end Custody

import Mathlib.Data.List.Nodup

/-!
# `SerialRpc.Lib.OrderedMap`: entries in the order of their insertion

An ordered map is a list of entries. `assign` gives a key a value: a key that is there keeps
its place, and a new one goes behind all others.

* `assign_nodup`: no key is there twice.
* `assignAll_of_nodup`: new keys that differ are collected as they come.
-/

set_option autoImplicit false

namespace SerialRpc.OrderedMap

variable {κ α : Type*} [DecidableEq κ]

/-- The key gets the value. -/
def assign : List (κ × α) → κ → α → List (κ × α)
  | [], key, value => [(key, value)]
  | e :: entries, key, value =>
      if e.1 = key then (key, value) :: entries else e :: assign entries key value

/-- One key after the other. -/
def assignAll (entries : List (κ × α)) (more : List (κ × α)) : List (κ × α) :=
  more.foldl (fun entries e => assign entries e.1 e.2) entries

/-- A new key goes behind the others. -/
theorem assign_of_not_mem {entries : List (κ × α)} {key : κ} (h : key ∉ entries.map Prod.fst)
    (value : α) : assign entries key value = entries ++ [(key, value)] := by
  induction entries with
  | nil => rfl
  | cons e entries ih =>
      rw [List.map_cons, List.mem_cons, not_or] at h
      obtain ⟨hfirst, hrest⟩ := h
      rw [assign, if_neg (Ne.symm hfirst), ih hrest, List.cons_append]

/-- A key that is there keeps its place. -/
theorem assign_keys (entries : List (κ × α)) (key : κ) (value : α) :
    (assign entries key value).map Prod.fst
      = if key ∈ entries.map Prod.fst then entries.map Prod.fst
        else entries.map Prod.fst ++ [key] := by
  induction entries with
  | nil => rfl
  | cons e entries ih =>
      rw [assign]
      by_cases hfirst : e.1 = key
      · simp [hfirst]
      · simp only [if_neg hfirst, List.map_cons, ih, List.mem_cons, Ne.symm hfirst, false_or]
        split <;> rfl

/-- An assignment keeps the keys distinct. -/
theorem assign_nodup {entries : List (κ × α)} (h : (entries.map Prod.fst).Nodup) (key : κ)
    (value : α) : ((assign entries key value).map Prod.fst).Nodup := by
  rw [assign_keys]
  split
  · exact h
  · rename_i hnew
    rw [← List.concat_eq_append]
    exact h.concat hnew

/-- The entries behind an assignment are the new one and old ones. -/
theorem mem_assign {entries : List (κ × α)} {key : κ} {value : α} {e : κ × α}
    (h : e ∈ assign entries key value) : e = (key, value) ∨ e ∈ entries := by
  induction entries with
  | nil => exact Or.inl (List.mem_singleton.mp h)
  | cons first entries ih =>
      rw [assign] at h
      split at h
      · rcases List.mem_cons.mp h with hfirst | hrest
        · exact Or.inl hfirst
        · exact Or.inr (List.mem_cons_of_mem first hrest)
      · rcases List.mem_cons.mp h with hfirst | hrest
        · exact Or.inr (hfirst ▸ List.mem_cons_self)
        · exact (ih hrest).imp_right (List.mem_cons_of_mem first)

/-- New keys that differ are collected as they come. -/
theorem assignAll_of_nodup {entries more : List (κ × α)}
    (h : ((entries ++ more).map Prod.fst).Nodup) : assignAll entries more = entries ++ more := by
  induction more generalizing entries with
  | nil => rw [assignAll, List.foldl_nil, List.append_nil]
  | cons e more ih =>
      have hnew : e.1 ∉ entries.map Prod.fst := by
        rw [List.map_append, List.map_cons, List.nodup_append] at h
        intro hmem
        exact h.2.2 e.1 hmem e.1 List.mem_cons_self rfl
      have hrest : assignAll (entries ++ [e]) more = entries ++ [e] ++ more := by
        apply ih
        rwa [List.append_assoc, List.singleton_append]
      rw [assignAll, List.foldl_cons, assign_of_not_mem hnew]
      rw [assignAll] at hrest
      rw [hrest, List.append_assoc, List.singleton_append]

end SerialRpc.OrderedMap

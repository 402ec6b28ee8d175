import Mathlib.Data.List.Basic

/-!
# `SerialRpc.Lib.SortedMap`: a map kept in the order of its keys

A `SortedMap` is a list of entries that ascend in a comparison of the keys, so there are no
two entries with equivalent keys. `emplace` adds an entry unless its key is taken.

* `emplace_last`: a key behind all others is appended.
* `foldlM_emplace`: entries that come in order are collected as they are.
-/

set_option autoImplicit false

namespace SerialRpc

/-- A comparison of keys, as a sorted map needs it. -/
structure Compare (κ : Type) where
  less : κ → κ → Bool
  asymm : ∀ {a b : κ}, less a b = true → less b a = false
  trans : ∀ {a b c : κ}, less a b = true → less b c = true → less a c = true

/-- Entries with ascending keys. -/
structure SortedMap {κ : Type} (cmp : Compare κ) (α : Type) where
  entries : List (κ × α)
  ascending : entries.Pairwise fun a b => cmp.less a.1 b.1 = true

namespace SortedMap

variable {κ α β : Type} {cmp : Compare κ}

/-- A map is its entries. -/
theorem ext {m m' : SortedMap cmp α} (h : m.entries = m'.entries) : m = m' := by
  cases m
  cases m'
  cases h
  rfl

/-- No entries. -/
def empty : SortedMap cmp α := ⟨[], .nil⟩

/-- The same keys. -/
def map (f : α → β) (m : SortedMap cmp α) : SortedMap cmp β where
  entries := m.entries.map fun e => (e.1, f e.2)
  ascending := List.pairwise_map.mpr m.ascending

/-! ### Adding an entry -/

/-- The place of a new key is in front of the first larger one. A key that is equivalent to
one that is there is not added. -/
def insertEntry (cmp : Compare κ) (k : κ) (v : α) : List (κ × α) → List (κ × α)
  | [] => [(k, v)]
  | e :: es =>
      if cmp.less k e.1 then (k, v) :: e :: es
      else if cmp.less e.1 k then e :: insertEntry cmp k v es
      else e :: es

/-- The entries behind an insertion are the new one and old ones. -/
theorem mem_insertEntry {k : κ} {v : α} {es : List (κ × α)} {x : κ × α}
    (h : x ∈ insertEntry cmp k v es) : x = (k, v) ∨ x ∈ es := by
  induction es with
  | nil => exact Or.inl (List.mem_singleton.mp h)
  | cons e es ih =>
      rw [insertEntry] at h
      split at h
      · exact List.mem_cons.mp h
      · split at h
        · rcases List.mem_cons.mp h with rfl | h
          · exact Or.inr List.mem_cons_self
          · exact (ih h).imp_right (List.mem_cons_of_mem e)
        · exact Or.inr h

/-- Behind smaller keys the entry is appended. -/
theorem insertEntry_last {k : κ} {v : α} {es : List (κ × α)}
    (h : ∀ e ∈ es, cmp.less e.1 k = true) : insertEntry cmp k v es = es ++ [(k, v)] := by
  induction es with
  | nil => rfl
  | cons e es ih =>
      obtain ⟨hfirst, hrest⟩ := List.forall_mem_cons.mp h
      rw [insertEntry, cmp.asymm hfirst, if_neg Bool.false_ne_true, if_pos hfirst, ih hrest,
        List.cons_append]

/-- An insertion keeps the order of the keys. -/
theorem insertEntry_ascending {k : κ} {v : α} {es : List (κ × α)}
    (h : es.Pairwise fun a b => cmp.less a.1 b.1 = true) :
    (insertEntry cmp k v es).Pairwise fun a b => cmp.less a.1 b.1 = true := by
  induction es with
  | nil => exact List.pairwise_singleton _ _
  | cons e es ih =>
      obtain ⟨hfirst, hrest⟩ := List.pairwise_cons.mp h
      rw [insertEntry]
      -- The new entry stands before the first one, behind it, or in its place.
      split
      · rename_i hless
        refine List.pairwise_cons.mpr ⟨?_, h⟩
        intro x hx
        rcases List.mem_cons.mp hx with rfl | hx
        · exact hless
        · exact cmp.trans hless (hfirst x hx)
      · split
        · rename_i hgreater
          refine List.pairwise_cons.mpr ⟨?_, ih hrest⟩
          intro x hx
          rcases mem_insertEntry hx with rfl | hx
          · exact hgreater
          · exact hfirst x hx
        · exact h

/-- `std::map::emplace`: a key that is there keeps its value. -/
def emplace (m : SortedMap cmp α) (k : κ) (v : α) : SortedMap cmp α where
  entries := insertEntry cmp k v m.entries
  ascending := insertEntry_ascending m.ascending

/-- A key above all others comes last. -/
theorem emplace_last {m : SortedMap cmp α} {k : κ} (v : α)
    (h : ∀ e ∈ m.entries, cmp.less e.1 k = true) :
    (m.emplace k v).entries = m.entries ++ [(k, v)] :=
  insertEntry_last h

/-- Entries that are read one by one, in ascending order, are collected as they are. -/
theorem foldlM_emplace {ε : Type} {read : β → Except ε (κ × α)} {bs : List β} {es : List (κ × α)}
    (hread : bs.map read = es.map .ok) (m : SortedMap cmp α)
    (hascending : (m.entries ++ es).Pairwise fun a b => cmp.less a.1 b.1 = true) :
    bs.foldlM (fun out b => (read b).map fun e => out.emplace e.1 e.2) m
      = .ok ⟨m.entries ++ es, hascending⟩ := by
  induction bs generalizing m es with
  | nil =>
      cases es with
      | nil => exact congrArg Except.ok (ext (List.append_nil _).symm)
      | cons e es => cases hread
  | cons b bs ih =>
      cases es with
      | nil => cases hread
      | cons e es =>
          obtain ⟨hfirst, hrest⟩ := List.cons.inj hread
          -- The entries so far are all in front of the next one.
          have hlast := emplace_last (m := m) (k := e.1) e.2 fun x hx =>
            (List.pairwise_append.mp hascending).2.2 x hx e List.mem_cons_self
          have hentries : (m.emplace e.1 e.2).entries ++ es = m.entries ++ e :: es := by
            rw [hlast, List.append_assoc, List.singleton_append]
          rw [List.foldlM_cons, hfirst]
          show bs.foldlM _ (m.emplace e.1 e.2) = _
          rw [ih hrest _ (hentries ▸ hascending)]
          exact congrArg Except.ok (ext hentries)

end SortedMap

end SerialRpc

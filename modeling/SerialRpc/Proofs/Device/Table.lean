import Mathlib.Data.List.Dedup
import SerialRpc.Device.Server

/-!
# `SerialRpc.Proofs.Device.Table`: the handler table after a sequence of binds

`effective` says which binds count: all of them for the STL backend, and for the fixed one
those that find their name in the table or room for a new one. `latest` is the last of these
for a name. The table is searched from the front and holds each name once, and
`findHandler_binds` says that it gives the latest bind.
-/

set_option autoImplicit false

namespace SerialRpc

variable {w : SizeT} {σ : Type}

/-! ### The bind that counts -/

/-- A bind takes effect after those in `bound`. -/
def Takes (sz : ServerSize) (bound : List (Entry sz.sizeT σ)) (entry : Entry sz.sizeT σ) : Prop :=
  sz.useStl = true ∨ entry.name ∈ bound.map Entry.name ∨
    (bound.map Entry.name).dedup.length < sz.maxHandlers

instance (sz : ServerSize) (bound : List (Entry sz.sizeT σ)) (entry : Entry sz.sizeT σ) :
    Decidable (Takes sz bound entry) :=
  inferInstanceAs (Decidable (_ ∨ _ ∨ _))

/-- The binds of a sequence that take effect, in order. -/
def effective (sz : ServerSize) (entries : List (Entry sz.sizeT σ)) : List (Entry sz.sizeT σ) :=
  entries.foldl (fun bound entry => if Takes sz bound entry then bound ++ [entry] else bound) []

/-- The callable of the last bind of a name that took effect. -/
def latest (sz : ServerSize) (entries : List (Entry sz.sizeT σ)) (method : List UInt8) :
    Option (Handler sz.sizeT σ) :=
  ((effective sz entries).reverse.find? fun entry => entry.name = method).map Entry.fn

/-! ### Lookups -/

/-- A handler bound last is found only under a name no earlier entry has. -/
theorem findHandler_append (table : List (Entry w σ)) (entry : Entry w σ) (method : List UInt8) :
    findHandler (table ++ [entry]) method
      = (findHandler table method).or (if entry.name = method then some entry else none) := by
  simp [findHandler, List.find?_append, List.find?_singleton]

/-- The search fails exactly on a name that is in no entry of the table. -/
theorem findHandler_eq_none {table : List (Entry w σ)} {method : List UInt8} :
    findHandler table method = none ↔ method ∉ table.map Entry.name := by
  simp [findHandler, List.find?_eq_none]

/-- A name that is not in the table is not replaced. -/
theorem replaceEntry_eq_none {entry : Entry w σ} {table : List (Entry w σ)} :
    replaceEntry entry table = none ↔ entry.name ∉ table.map Entry.name := by
  induction table with
  | nil => simp [replaceEntry]
  | cons e table ih =>
      rw [replaceEntry]
      by_cases hname : e.name = entry.name
      · simp [hname]
      · simp [hname, ih, Ne.symm hname]

/-- A replaced entry keeps its place, and only its callable changes. -/
theorem replaceEntry_eq_some {entry : Entry w σ} {table table' : List (Entry w σ)}
    (h : replaceEntry entry table = some table') :
    table'.map Entry.name = table.map Entry.name ∧
      ∀ method, (findHandler table' method).map Entry.fn
        = if entry.name = method then some entry.fn
          else (findHandler table method).map Entry.fn := by
  -- By induction on the table, whose first entry of that name is replaced.
  induction table generalizing table' with
  | nil => cases h
  | cons e table ih =>
      rw [replaceEntry] at h
      split at h
      · -- It is the first entry.
        rename_i hname
        cases h
        refine ⟨rfl, fun method => ?_⟩
        by_cases hmethod : entry.name = method
        · simp [findHandler, hname, hmethod]
        · simp [findHandler, hname, hmethod]
      · -- It is further back.
        rename_i hname
        obtain ⟨table'', htail, rfl⟩ := Option.map_eq_some_iff.mp h
        obtain ⟨hnames, hfind⟩ := ih htail
        refine ⟨by simp [hnames], fun method => ?_⟩
        have hrest := hfind method
        simp only [findHandler, List.find?_cons] at hrest ⊢
        by_cases hmethod : e.name = method
        · simp [hmethod, show entry.name ≠ method by rintro rfl; exact hname hmethod]
        · simpa [hmethod] using hrest

/-- A replacement brings in no callable but the new one. -/
theorem replaceEntry_forall {p : Handler w σ → Prop} {entry : Entry w σ}
    (hnew : p entry.fn) {table table' : List (Entry w σ)} (htable : ∀ e ∈ table, p e.fn)
    (h : replaceEntry entry table = some table') : ∀ e ∈ table', p e.fn := by
  induction table generalizing table' with
  | nil => cases h
  | cons e table ih =>
      obtain ⟨hfirst, hrest⟩ := List.forall_mem_cons.mp htable
      rw [replaceEntry] at h
      split at h
      · cases h
        exact List.forall_mem_cons.mpr ⟨hnew, hrest⟩
      · obtain ⟨table'', htail, rfl⟩ := Option.map_eq_some_iff.mp h
        exact List.forall_mem_cons.mpr ⟨hfirst, ih hrest htail⟩

/-! ### One bind -/

/-- The table holds what the binds in `bound` left there. -/
structure Tabled (bound table : List (Entry w σ)) : Prop where
  nodup : (table.map Entry.name).Nodup
  names : ∀ name, name ∈ table.map Entry.name ↔ name ∈ bound.map Entry.name
  lookup : ∀ method, (findHandler table method).map Entry.fn
    = (bound.reverse.find? fun entry => entry.name = method).map Entry.fn

/-- The table has one entry for each name. -/
theorem Tabled.length {bound table : List (Entry w σ)} (h : Tabled bound table) :
    table.length = (bound.map Entry.name).dedup.length := by
  have hperm : (table.map Entry.name).Perm (bound.map Entry.name).dedup :=
    (List.perm_ext_iff_of_nodup h.nodup (List.nodup_dedup _)).mpr fun name => by
      rw [h.names, List.mem_dedup]
  simpa using hperm.length_eq

/-- The last bind of a name is found first from the back. -/
theorem find_reverse_append (bound : List (Entry w σ)) (entry : Entry w σ) (method : List UInt8) :
    ((bound ++ [entry]).reverse.find? fun e => e.name = method).map Entry.fn
      = if entry.name = method then some entry.fn
        else (bound.reverse.find? fun e => e.name = method).map Entry.fn := by
  by_cases hmethod : entry.name = method <;> simp [hmethod]

/-- A bind of a name in the table. -/
theorem Tabled.replace {bound table table' : List (Entry w σ)} (h : Tabled bound table)
    {entry : Entry w σ} (hreplace : replaceEntry entry table = some table') :
    Tabled (bound ++ [entry]) table' := by
  -- The entry replaced had the name of the new one.
  obtain ⟨hnames, hfind⟩ := replaceEntry_eq_some hreplace
  have hmem : entry.name ∈ bound.map Entry.name := by
    rw [← h.names]
    by_contra hnot
    rw [replaceEntry_eq_none.mpr hnot] at hreplace
    cases hreplace
  -- The names are the same, and the handler found is the last one bound.
  constructor
  · rw [hnames]
    exact h.nodup
  · intro name
    rw [hnames, h.names, List.map_append, List.mem_append]
    constructor
    · exact Or.inl
    · rintro (hname | hname)
      · exact hname
      · rw [List.map_singleton, List.mem_singleton] at hname
        rwa [hname]
  · intro method
    rw [hfind, find_reverse_append, h.lookup]

/-- A bind of a new name. -/
theorem Tabled.append {bound table : List (Entry w σ)} (h : Tabled bound table)
    {entry : Entry w σ} (hreplace : replaceEntry entry table = none) :
    Tabled (bound ++ [entry]) (table ++ [entry]) := by
  have hnew := replaceEntry_eq_none.mp hreplace
  constructor
  · rw [List.map_append, List.nodup_append]
    refine ⟨h.nodup, by simp, ?_⟩
    rintro name hname other hother rfl
    rw [List.map_singleton, List.mem_singleton] at hother
    exact hnew (hother ▸ hname)
  · intro name
    rw [List.map_append, List.map_append, List.mem_append, List.mem_append, h.names]
  · intro method
    rw [findHandler_append, find_reverse_append]
    by_cases hmethod : entry.name = method
    · have hnone : findHandler table method = none := by
        rw [findHandler_eq_none, ← hmethod]
        exact hnew
      simp [hmethod, hnone]
    · simp [hmethod, h.lookup]

namespace Server

variable {sz : ServerSize}

/-- Binds change the table, and count what has no room in it. -/
theorem binds_eq (s : Server sz σ) (entries : List (Entry sz.sizeT σ)) :
    entries.foldl bind s = { s with
      handlers := (entries.foldl bind s).handlers
      responseOverflowErrors := (entries.foldl bind s).responseOverflowErrors } := by
  have hbind (s : Server sz σ) (entry : Entry sz.sizeT σ) :
      s.bind entry = { s with
        handlers := (s.bind entry).handlers
        responseOverflowErrors := (s.bind entry).responseOverflowErrors } := by
    unfold bind
    split
    · rfl
    · split <;> rfl
  induction entries generalizing s with
  | nil => rfl
  | cons entry entries ih =>
      rw [List.foldl_cons, ih]
      generalize entries.foldl bind (s.bind entry) = t
      rw [hbind]

/-- What holds of every callable that is bound holds of every callable in the table. -/
theorem binds_forall {p : Handler sz.sizeT σ → Prop} {entries : List (Entry sz.sizeT σ)}
    (hentries : ∀ entry ∈ entries, p entry.fn) {s : Server sz σ}
    (hs : ∀ entry ∈ s.handlers, p entry.fn) :
    ∀ entry ∈ (entries.foldl bind s).handlers, p entry.fn := by
  -- By induction on the entries to bind.
  induction entries generalizing s with
  | nil => exact hs
  | cons e entries ih =>
      refine ih (fun entry hmem => hentries entry (List.mem_cons_of_mem e hmem)) ?_
      have hnew := hentries e List.mem_cons_self
      have happend : ∀ entry ∈ s.handlers ++ [e], p entry.fn := by
        intro entry hmem
        rcases List.mem_append.mp hmem with hmem | hmem
        · exact hs entry hmem
        · rwa [List.mem_singleton.mp hmem]
      -- Whichever of the two tables it is, the entry replaces one, is appended or is dropped.
      unfold bind addHandlerStl addHandlerFixed
      cases hreplace : replaceEntry e s.handlers with
      | some table =>
          have htable := replaceEntry_forall hnew hs hreplace
          split
          · exact htable
          · exact htable
      | none =>
          split
          · exact happend
          · by_cases hroom : s.handlers.length < sz.maxHandlers
            · simpa [hroom] using happend
            · simpa [hroom] using hs

/-- One bind, and what counts of it. -/
theorem bind_tabled {s : Server sz σ} {bound : List (Entry sz.sizeT σ)}
    (h : Tabled bound s.handlers) (entry : Entry sz.sizeT σ) :
    Tabled (if Takes sz bound entry then bound ++ [entry] else bound) (s.bind entry).handlers := by
  have hmem : entry.name ∈ bound.map Entry.name ↔ replaceEntry entry s.handlers ≠ none := by
    rw [← h.names, ne_eq, replaceEntry_eq_none, not_not]
  unfold bind
  -- The map of the STL build takes every entry.
  by_cases hstl : sz.useStl = true
  · have htakes : Takes sz bound entry := Or.inl hstl
    rw [if_pos hstl, if_pos htakes]
    cases hreplace : replaceEntry entry s.handlers with
    | none => simpa [addHandlerStl, hreplace] using h.append hreplace
    | some table => simpa [addHandlerStl, hreplace] using h.replace hreplace
  · rw [if_neg hstl]
    -- The fixed table takes one that is there already, or as many as there is room for.
    cases hreplace : replaceEntry entry s.handlers with
    | some table =>
        have htakes : Takes sz bound entry := Or.inr (Or.inl (hmem.mpr (by simp [hreplace])))
        rw [if_pos htakes]
        simpa [addHandlerFixed, hreplace] using h.replace hreplace
    | none =>
        have hnot : entry.name ∉ bound.map Entry.name := fun hbound => hmem.mp hbound hreplace
        have htakes : Takes sz bound entry ↔ s.handlers.length < sz.maxHandlers := by
          rw [Takes, h.length]
          simp [hstl, hnot]
        by_cases hroom : s.handlers.length < sz.maxHandlers
        · rw [if_pos (htakes.mpr hroom)]
          simpa [addHandlerFixed, hreplace, hroom] using h.append hreplace
        · rw [if_neg (mt htakes.mp hroom)]
          simpa [addHandlerFixed, hreplace, hroom] using h

/-- A sequence of binds. -/
theorem binds_tabled {s : Server sz σ} {bound : List (Entry sz.sizeT σ)}
    (h : Tabled bound s.handlers) (entries : List (Entry sz.sizeT σ)) :
    Tabled (entries.foldl (fun bound entry => if Takes sz bound entry then bound ++ [entry]
      else bound) bound) (entries.foldl bind s).handlers := by
  induction entries generalizing s bound with
  | nil => exact h
  | cons entry entries ih => exact ih (bind_tabled h entry)

/-- **The table gives the latest bind.** -/
theorem findHandler_binds {s : Server sz σ} (h : s.handlers = [])
    (entries : List (Entry sz.sizeT σ)) (method : List UInt8) :
    (findHandler (entries.foldl bind s).handlers method).map Entry.fn
      = latest sz entries method := by
  have hempty : Tabled ([] : List (Entry sz.sizeT σ)) s.handlers := by
    rw [h]
    exact ⟨by simp, by simp, fun _ => rfl⟩
  exact (binds_tabled hempty entries).lookup method

end Server

end SerialRpc

import SerialRpc.Host.Json
import SerialRpc.Lib.BigEndian

/-!
# `SerialRpc.Proofs.Host.Json`: which values survive the way through JSON

`value_to_json` makes an object of every map, and `json_to_value` a map of every object but
those that look like a blob: a single member `"$bin"` whose value is a string of pairs of
hexadecimal digits. A blob is written in this shape (`hexToBin_binToHex`), and a map that has
it is read back as a blob.

A value whose maps have distinct string keys survives exactly when no such map occurs in it
(`json_round_trip_iff`). `AllMaps` says that something holds of every map in a value, and both
conditions are of this form. Whatever the keys are, no object that is made has a key twice
(`valueToJson_uniqueKeys`).
-/

set_option autoImplicit false

namespace SerialRpc

/-! ### Hexadecimal text -/

/-- A hexadecimal digit, of either case. -/
def IsHexDigit (c : UInt8) : Prop :=
  (0x30 ≤ c ∧ c ≤ 0x39) ∨ (0x61 ≤ c ∧ c ≤ 0x66) ∨ (0x41 ≤ c ∧ c ≤ 0x46)

instance (c : UInt8) : Decidable (IsHexDigit c) := inferInstanceAs (Decidable (_ ∨ _ ∨ _))

/-- Pairs of hexadecimal digits. -/
def HexText (s : List UInt8) : Prop := s.length % 2 = 0 ∧ ∀ c ∈ s, IsHexDigit c

/-- A nibble is read from the hexadecimal digits and nothing else. -/
theorem nibble_isSome {c : UInt8} : (nibble c).isSome ↔ IsHexDigit c := by
  unfold nibble IsHexDigit
  split
  · rename_i hdigit
    exact iff_of_true rfl (Or.inl hdigit)
  · split
    · rename_i hlower
      exact iff_of_true rfl (Or.inr (Or.inl hlower))
    · split
      · rename_i hupper
        exact iff_of_true rfl (Or.inr (Or.inr hupper))
      · rename_i hdigit hlower hupper
        exact iff_of_false Bool.false_ne_true
          (not_or.mpr ⟨hdigit, not_or.mpr ⟨hlower, hupper⟩⟩)

/-- One turn of the loop. -/
theorem hexPairs_cons (hi lo : UInt8) (hex : List UInt8) :
    hexPairs (hi :: lo :: hex)
      = (nibble hi).bind fun h => (nibble lo).bind fun l =>
          (hexPairs hex).map ((h <<< 4 ||| l) :: ·) := by
  rw [hexPairs]
  cases nibble hi with
  | none => rfl
  | some h => cases nibble lo <;> rfl

/-- The loop gets through when every character is a digit. -/
theorem hexPairs_isSome : (s : List UInt8) → s.length % 2 = 0 →
    ((hexPairs s).isSome ↔ ∀ c ∈ s, IsHexDigit c)
  | [], _ => iff_of_true rfl (by simp)
  | [_], heven => absurd heven (by simp)
  | hi :: lo :: hex, heven => by
      have hrest : hex.length % 2 = 0 := by
        simp only [List.length_cons] at heven
        omega
      have ih := hexPairs_isSome hex hrest
      -- A digit that is none ends the loop, whatever comes behind it.
      rw [hexPairs_cons, List.forall_mem_cons, List.forall_mem_cons, ← nibble_isSome,
        ← nibble_isSome, ← ih]
      cases nibble hi with
      | none => simp
      | some h => cases nibble lo <;> simp

/-- Bytes are read from an even number of hexadecimal digits and nothing else. -/
theorem hexToBin_isSome {s : List UInt8} : (hexToBin s).isSome ↔ HexText s := by
  unfold hexToBin HexText
  by_cases heven : s.length % 2 = 0
  · rw [if_neg (not_not.mpr heven), hexPairs_isSome s heven]
    exact (and_iff_right heven).symm
  · rw [if_pos heven]
    exact iff_of_false Bool.false_ne_true fun h => heven h.1

/-- The high nibble of a byte. -/
theorem toNat_high (b : UInt8) : (b >>> 4).toNat = b.toNat / 16 := by
  rw [UInt8.toNat_shiftRight, Nat.shiftRight_eq_div_pow]
  rfl

/-- The low nibble of a byte. -/
theorem toNat_low (b : UInt8) : (b &&& 0x0f).toNat = b.toNat % 16 := by
  rw [UInt8.toNat_and]
  exact Nat.and_two_pow_sub_one_eq_mod b.toNat 4

/-- A byte from its halves. -/
theorem halves (b : UInt8) : b >>> 4 <<< 4 ||| b &&& 0x0f = b := by
  have hb := b.toNat_lt
  have hhigh : (b >>> 4 <<< 4).toNat = (b.toNat / 16) <<< 4 := by
    rw [UInt8.toNat_shiftLeft, toNat_high]
    show (b.toNat / 16) <<< 4 % 2 ^ 8 = _
    rw [Nat.shiftLeft_eq]
    omega
  apply UInt8.toNat_inj.mp
  rw [UInt8.toNat_or, hhigh, toNat_low, BigEndian.shiftLeft_or (by omega)]
  omega

/-- The two digits of a byte are read back. -/
theorem nibble_hexDigit (b : UInt8) :
    nibble (hexDigit (b >>> 4)) = some (b >>> 4) ∧
      nibble (hexDigit (b &&& 0x0f)) = some (b &&& 0x0f) := by
  have hdigit : ∀ n < 16, nibble (hexDigit (UInt8.ofNat n)) = some (UInt8.ofNat n) := by
    decide +kernel
  have hhalf {n : UInt8} (hn : n.toNat < 16) : nibble (hexDigit n) = some n := by
    have h := hdigit n.toNat hn
    rwa [UInt8.ofNat_toNat] at h
  have hb := b.toNat_lt
  have hhigh : (b >>> 4).toNat < 16 := by
    rw [toNat_high]
    omega
  have hlow : (b &&& 0x0f).toNat < 16 := by
    rw [toNat_low]
    omega
  exact ⟨hhalf hhigh, hhalf hlow⟩

/-- A blob is read back from its text. -/
theorem hexToBin_binToHex (bin : List UInt8) : hexToBin (binToHex bin) = some bin := by
  have hlength : (binToHex bin).length = 2 * bin.length := by
    induction bin with
    | nil => rfl
    | cons b bin ih =>
        rw [binToHex, List.flatMap_cons, List.length_append, ← binToHex, ih]
        simp only [List.length_cons, List.length_nil]
        omega
  have hpairs : hexPairs (binToHex bin) = some bin := by
    clear hlength
    induction bin with
    | nil => rfl
    | cons b bin ih =>
        obtain ⟨hhigh, hlow⟩ := nibble_hexDigit b
        rw [binToHex, List.flatMap_cons, ← binToHex, List.cons_append, List.cons_append,
          List.nil_append, hexPairs_cons, hhigh, hlow, ih]
        exact congrArg (fun b => some (b :: bin)) (halves b)
  rw [hexToBin, if_neg (by omega), hpairs]

/-! ### The maps in a value -/

namespace Value

/-- The first value occurs in the second. -/
inductive Within : Value → Value → Prop where
  | self (v : Value) : Within v v
  | elem {u e : Value} {elems : List Value} (hmem : e ∈ elems) (h : Within u e) :
      Within u (.array elems)
  | key {u : Value} {e : Value × Value} {entries : List (Value × Value)} (hmem : e ∈ entries)
      (h : Within u e.1) : Within u (.map entries)
  | mapped {u : Value} {e : Value × Value} {entries : List (Value × Value)} (hmem : e ∈ entries)
      (h : Within u e.2) : Within u (.map entries)

/-- Something holds of the entries of every map in a value. -/
def AllMaps (p : List (Value × Value) → Prop) (v : Value) : Prop :=
  ∀ entries, Within (.map entries) v → p entries

variable {p : List (Value × Value) → Prop}

/-- A value that holds no other has no map in it. -/
theorem allMaps_leaf {v : Value} (harray : ∀ elems, v ≠ .array elems)
    (hmap : ∀ entries, v ≠ .map entries) : AllMaps p v := by
  intro entries h
  cases h with
  | self => exact absurd rfl (hmap entries)
  | elem hmem h => exact absurd rfl (harray _)
  | key hmem h => exact absurd rfl (hmap _)
  | mapped hmem h => exact absurd rfl (hmap _)

/-- A string has no map in it. -/
@[simp]
theorem allMaps_str (s : List UInt8) : AllMaps p (.str s) :=
  allMaps_leaf (fun _ h => by cases h) (fun _ h => by cases h)

/-- Neither has a bin. -/
@[simp]
theorem allMaps_bin (bytes : List UInt8) : AllMaps p (.bin bytes) :=
  allMaps_leaf (fun _ h => by cases h) (fun _ h => by cases h)

/-- The maps of an array are those of its elements. -/
theorem allMaps_array {elems : List Value} :
    AllMaps p (.array elems) ↔ ∀ e ∈ elems, AllMaps p e := by
  constructor
  · intro h e hmem entries hwithin
    exact h entries (.elem hmem hwithin)
  · intro h entries hwithin
    cases hwithin with
    | elem hmem hwithin => exact h _ hmem entries hwithin

/-- The maps of a map are itself and those of its keys and values. -/
theorem allMaps_map {entries : List (Value × Value)} :
    AllMaps p (.map entries)
      ↔ p entries ∧ ∀ e ∈ entries, AllMaps p e.1 ∧ AllMaps p e.2 := by
  constructor
  · intro h
    refine ⟨h entries (.self _), fun e hmem => ⟨?_, ?_⟩⟩
    · intro inner hwithin
      exact h inner (.key hmem hwithin)
    · intro inner hwithin
      exact h inner (.mapped hmem hwithin)
  · intro h inner hwithin
    cases hwithin with
    | self => exact h.1
    | key hmem hwithin => exact (h.2 _ hmem).1 inner hwithin
    | mapped hmem hwithin => exact (h.2 _ hmem).2 inner hwithin

/-- Induction over a value with lists in it. -/
theorem induction {motive : Value → Prop}
    (leaf : ∀ v, (∀ elems, v ≠ .array elems) → (∀ entries, v ≠ .map entries) → motive v)
    (array : ∀ elems, (∀ e ∈ elems, motive e) → motive (.array elems))
    (map : ∀ entries, (∀ e ∈ entries, motive e.1 ∧ motive e.2) → motive (.map entries))
    (v : Value) : motive v := by
  refine @Value.rec motive (fun elems => ∀ e ∈ elems, motive e)
    (fun entries => ∀ e ∈ entries, motive e.1 ∧ motive e.2) (fun e => motive e.1 ∧ motive e.2)
    ?_ ?_ ?_ ?_ ?_ ?_ ?_ array map ?_ ?_ ?_ ?_ ?_ v
  · exact leaf _ (fun _ h => by cases h) (fun _ h => by cases h)
  · exact fun v => leaf _ (fun _ h => by cases h) (fun _ h => by cases h)
  · exact fun v => leaf _ (fun _ h => by cases h) (fun _ h => by cases h)
  · exact fun v => leaf _ (fun _ h => by cases h) (fun _ h => by cases h)
  · exact fun v => leaf _ (fun _ h => by cases h) (fun _ h => by cases h)
  · exact fun v => leaf _ (fun _ h => by cases h) (fun _ h => by cases h)
  · exact fun v => leaf _ (fun _ h => by cases h) (fun _ h => by cases h)
  · exact fun e hmem => absurd hmem List.not_mem_nil
  · exact fun e elems hfirst hrest => List.forall_mem_cons.mpr ⟨hfirst, hrest⟩
  · exact fun e hmem => absurd hmem List.not_mem_nil
  · exact fun e entries hfirst hrest => List.forall_mem_cons.mpr ⟨hfirst, hrest⟩
  · exact fun k v hk hv => ⟨hk, hv⟩

end Value

/-! ### The conditions -/

/-- The keys of a map are strings, and no two are the same. -/
def StringKeys (entries : List (Value × Value)) : Prop :=
  (∀ e ∈ entries, ∃ s, e.1 = .str s) ∧ (entries.map Prod.fst).Nodup

/-- A map that looks like the tag of a blob. -/
def LooksTagged (entries : List (Value × Value)) : Prop :=
  ∃ hex, entries = [(.str binKey, .str hex)] ∧ HexText hex

/-! ### Both ways, over lists -/

section

variable (g17 : UInt64 → List UInt8)

/-- The member that `value_to_json` makes of an entry. -/
def jsonMember (e : Value × Value) : List UInt8 × Json :=
  (e.1.jsonKey g17, valueToJson g17 e.2)

/-- The elements of an array are rendered one by one. -/
theorem elemsToJson_eq (elems : List Value) :
    elemsToJson g17 elems = elems.map (valueToJson g17) := by
  induction elems with
  | nil => rfl
  | cons e elems ih => rw [elemsToJson, ih, List.map_cons]

/-- The entries of a map are assigned to the object in order. -/
theorem entriesToJson_eq (obj : List (List UInt8 × Json)) (entries : List (Value × Value)) :
    entriesToJson g17 obj entries
      = OrderedMap.assignAll obj (entries.map (jsonMember g17)) := by
  induction entries generalizing obj with
  | nil => rfl
  | cons e entries ih =>
      rw [entriesToJson, ih]
      rfl

/-- The members of a map with distinct string keys. -/
theorem entriesToJson_stringKeys {entries : List (Value × Value)} (h : StringKeys entries) :
    entriesToJson g17 [] entries = entries.map (jsonMember g17) := by
  have hkeys : ((entries.map (jsonMember g17)).map Prod.fst).Nodup := by
    -- A string is its own key, so distinct keys stay distinct.
    have hinjective : ∀ k ∈ entries.map Prod.fst, ∀ k' ∈ entries.map Prod.fst,
        k.jsonKey g17 = k'.jsonKey g17 → k = k' := by
      intro k hk k' hk' hsame
      obtain ⟨e, he, rfl⟩ := List.mem_map.mp hk
      obtain ⟨e', he', rfl⟩ := List.mem_map.mp hk'
      obtain ⟨s, hs⟩ := h.1 e he
      obtain ⟨s', hs'⟩ := h.1 e' he'
      rw [hs, hs'] at hsame ⊢
      exact congrArg Value.str hsame
    have hnodup := h.2.map_on hinjective
    rwa [List.map_map] at hnodup ⊢
  rw [entriesToJson_eq, OrderedMap.assignAll_of_nodup (by rwa [List.nil_append]),
    List.nil_append]

end

/-- The elements of a JSON array are read one by one. -/
theorem elemsToValue_eq (elems : List Json) : elemsToValue elems = elems.map jsonToValue := by
  induction elems with
  | nil => rfl
  | cons j elems ih => rw [elemsToValue, ih, List.map_cons]

/-- The members of a JSON object are read in order, their names as strings. -/
theorem membersToValue_eq (members : List (List UInt8 × Json)) :
    membersToValue members = members.map fun m => (.str m.1, jsonToValue m.2) := by
  induction members with
  | nil => rfl
  | cons m members ih =>
      rw [membersToValue, ih]
      rfl

/-- What is read as a bin: the one member `$bin` with a hexadecimal text. -/
theorem taggedBin_eq_some {members : List (List UInt8 × Json)} {bytes : List UInt8} :
    taggedBin members = some bytes
      ↔ ∃ hex, members = [(binKey, .string hex)] ∧ hexToBin hex = some bytes := by
  constructor
  · intro h
    unfold taggedBin at h
    split at h
    · rename_i key hex
      split at h
      · rename_i hkey
        exact ⟨hex, by rw [hkey], h⟩
      · cases h
    · cases h
  · rintro ⟨hex, rfl, hbytes⟩
    simp [taggedBin, hbytes]

/-- Only a string becomes a string. -/
theorem valueToJson_string {g17 : UInt64 → List UInt8} {v : Value} {s : List UInt8} :
    valueToJson g17 v = .string s ↔ v = .str s := by
  cases v <;> simp [valueToJson]

/-- An object looks like a blob when the map did. -/
theorem taggedBin_isSome (g17 : UInt64 → List UInt8) {entries : List (Value × Value)}
    (h : StringKeys entries) :
    (taggedBin (entries.map (jsonMember g17))).isSome ↔ LooksTagged entries := by
  rw [Option.isSome_iff_exists]
  constructor
  · rintro ⟨bytes, htagged⟩
    obtain ⟨hex, hmembers, hbytes⟩ := taggedBin_eq_some.mp htagged
    obtain ⟨e, rfl, hmember⟩ := List.map_eq_singleton_iff.mp hmembers
    obtain ⟨hkey, hvalue⟩ := Prod.mk.inj hmember
    obtain ⟨s, hs⟩ := h.1 e List.mem_cons_self
    rw [hs] at hkey
    have hstring : e = (.str binKey, .str hex) :=
      Prod.ext (hs.trans (congrArg Value.str hkey)) (valueToJson_string.mp hvalue)
    refine ⟨hex, by rw [hstring], hexToBin_isSome.mp ?_⟩
    rw [hbytes]
    rfl
  · rintro ⟨hex, rfl, htext⟩
    obtain ⟨bytes, hbytes⟩ := Option.isSome_iff_exists.mp (hexToBin_isSome.mpr htext)
    exact ⟨bytes, taggedBin_eq_some.mpr ⟨hex, rfl, hbytes⟩⟩

/-! ### What is made is an ordered tree -/

/-- No object has a key twice. -/
inductive Json.UniqueKeys : Json → Prop where
  | leaf {j : Json} (harray : ∀ elems, j ≠ .array elems)
      (hobject : ∀ members, j ≠ .object members) : UniqueKeys j
  | array {elems : List Json} (h : ∀ j ∈ elems, UniqueKeys j) : UniqueKeys (.array elems)
  | object {members : List (List UInt8 × Json)} (hkeys : (members.map Prod.fst).Nodup)
      (h : ∀ m ∈ members, UniqueKeys m.2) : UniqueKeys (.object members)

/-- One assignment after the other keeps the keys apart. -/
theorem assignAll_uniqueKeys {obj more : List (List UInt8 × Json)}
    (hobj : Json.UniqueKeys (.object obj)) (hmore : ∀ m ∈ more, m.2.UniqueKeys) :
    Json.UniqueKeys (.object (OrderedMap.assignAll obj more)) := by
  induction more generalizing obj with
  | nil => exact hobj
  | cons m more ih =>
      obtain ⟨hfirst, hrest⟩ := List.forall_mem_cons.mp hmore
      refine ih ?_ hrest
      cases hobj with
      | leaf harray hobject => exact absurd rfl (hobject obj)
      | object hkeys hmembers =>
          refine .object (OrderedMap.assign_nodup hkeys m.1 m.2) ?_
          intro m' hmem
          rcases OrderedMap.mem_assign hmem with rfl | hmem
          · exact hfirst
          · exact hmembers m' hmem

/-- `value_to_json` makes no object with a key twice, whatever the keys of the maps are. -/
theorem valueToJson_uniqueKeys (g17 : UInt64 → List UInt8) (v : Value) :
    (valueToJson g17 v).UniqueKeys := by
  have hempty : Json.UniqueKeys (.object []) :=
    .object List.nodup_nil fun _ h => absurd h List.not_mem_nil
  -- A bin is the one leaf that becomes an object, with one key.
  induction v using Value.induction with
  | leaf v harray hmap =>
      cases v with
      | array elems => exact absurd rfl (harray elems)
      | map entries => exact absurd rfl (hmap entries)
      | bin bytes =>
          have htext : Json.UniqueKeys (.string (binToHex bytes)) :=
            .leaf (fun _ h => by cases h) (fun _ h => by cases h)
          have hmember : ∀ m ∈ [(binKey, Json.string (binToHex bytes))], m.2.UniqueKeys := by
            intro m hmem
            rw [List.mem_singleton.mp hmem]
            exact htext
          exact assignAll_uniqueKeys hempty hmember
      | _ => exact .leaf (fun _ h => by cases h) (fun _ h => by cases h)
  | array elems ih =>
      rw [valueToJson, elemsToJson_eq]
      refine .array ?_
      intro j hmem
      obtain ⟨e, he, rfl⟩ := List.mem_map.mp hmem
      exact ih e he
  -- The entries of a map are assigned one after the other, so a key that comes back is not added.
  | map entries ih =>
      rw [valueToJson, entriesToJson_eq]
      refine assignAll_uniqueKeys hempty ?_
      intro m hmem
      obtain ⟨e, he, rfl⟩ := List.mem_map.mp hmem
      exact (ih e he).2

/-! ### The way through JSON -/

/-- A list is mapped to itself when every element is. -/
theorem map_eq_self {α : Type} {f : α → α} {l : List α} :
    l.map f = l ↔ ∀ a ∈ l, f a = a := by
  induction l with
  | nil => simp
  | cons a l ih => rw [List.map_cons, List.cons.injEq, ih, List.forall_mem_cons]

/-- **What survives.** -/
theorem json_round_trip_iff (g17 : UInt64 → List UInt8) (v : Value)
    (h : v.AllMaps StringKeys) :
    jsonToValue (valueToJson g17 v) = v ↔ v.AllMaps fun entries => ¬ LooksTagged entries := by
  induction v using Value.induction with
  | leaf v harray hmap =>
      refine iff_of_true ?_ (Value.allMaps_leaf harray hmap)
      cases v with
      | array elems => exact absurd rfl (harray elems)
      | map entries => exact absurd rfl (hmap entries)
      | bin bytes =>
          -- A blob goes through an object of its own and comes back.
          have htagged : taggedBin [(binKey, .string (binToHex bytes))] = some bytes :=
            taggedBin_eq_some.mpr ⟨_, rfl, hexToBin_binToHex bytes⟩
          rw [valueToJson, jsonToValue, OrderedMap.assign, htagged]
      | _ => rfl
  | array elems ih =>
      rw [Value.allMaps_array] at h ⊢
      rw [valueToJson, jsonToValue, elemsToJson_eq, elemsToValue_eq, List.map_map,
        Value.array.injEq, map_eq_self]
      exact forall₂_congr fun e hmem => ih e hmem (h e hmem)
  | map entries ih =>
      rw [Value.allMaps_map] at h ⊢
      obtain ⟨hkeys, hentries⟩ := h
      rw [valueToJson, jsonToValue, entriesToJson_stringKeys g17 hkeys]
      cases htagged : taggedBin (entries.map (jsonMember g17)) with
      | some bytes =>
          -- The map comes back as a blob.
          have hlooks := (taggedBin_isSome g17 hkeys).mp (Option.isSome_of_eq_some htagged)
          exact iff_of_false (by simp) fun hnot => hnot.1 hlooks
      | none =>
          -- It comes back as a map, entry by entry.
          have hlooks : ¬ LooksTagged entries := by
            intro hlooks
            have hsome := (taggedBin_isSome g17 hkeys).mpr hlooks
            rw [htagged] at hsome
            cases hsome
          have hentry : ∀ e ∈ entries,
              (Value.str (e.1.jsonKey g17), jsonToValue (valueToJson g17 e.2)) = e ↔
                e.1.AllMaps (fun entries => ¬ LooksTagged entries) ∧
                  e.2.AllMaps fun entries => ¬ LooksTagged entries := by
            intro e hmem
            obtain ⟨s, hs⟩ := hkeys.1 e hmem
            have hleaf : e.1.AllMaps fun entries => ¬ LooksTagged entries := by
              rw [hs]
              exact Value.allMaps_str s
            have hkey : Value.str (e.1.jsonKey g17) = e.1 := by
              rw [hs]
              rfl
            rw [Prod.ext_iff, and_iff_right hkey, and_iff_right hleaf]
            exact (ih e hmem).2 (hentries e hmem).2
          rw [membersToValue_eq, List.map_map]
          show Value.map _ = _ ↔ _
          rw [Value.map.injEq, map_eq_self, and_iff_right hlooks]
          exact forall₂_congr hentry

/-- A blob under a key, and an odd number of digits under the key of a blob. -/
theorem json_round_trip_iff_witness :
    let v : Value := .map [(.str [0x61], .bin [0x00, 0xab]),
      (.str [0x62], .map [(.str binKey, .str [0x61])])]
    jsonToValue (valueToJson (fun _ => []) v) = v := by
  intro v
  have hkeys : v.AllMaps StringKeys := by
    simp [v, Value.allMaps_map, StringKeys]
  have huntagged : v.AllMaps fun entries => ¬ LooksTagged entries := by
    simp [v, Value.allMaps_map, LooksTagged, HexText]
  exact (json_round_trip_iff (fun _ => []) v hkeys).mpr huntagged

/-- The map `{"$bin": "ab"}` comes back as a blob. -/
theorem json_round_trip_fails :
    ¬ ∀ (g17 : UInt64 → List UInt8) (v : Value), v.AllMaps StringKeys →
      jsonToValue (valueToJson g17 v) = v := by
  intro h
  let entries : List (Value × Value) := [(.str binKey, .str [0x61, 0x62])]
  have hkeys : (Value.map entries).AllMaps StringKeys := by
    simp [entries, Value.allMaps_map, StringKeys]
  have hback : jsonToValue (valueToJson (fun _ => []) (.map entries)) = .bin [0xab] := by
    have hbytes : hexToBin [0x61, 0x62] = some [0xab] := by decide
    simp [entries, valueToJson, entriesToJson, OrderedMap.assign, jsonToValue, taggedBin,
      Value.jsonKey, hbytes]
  rw [h (fun _ => []) _ hkeys] at hback
  cases hback

end SerialRpc

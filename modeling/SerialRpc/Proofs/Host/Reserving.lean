import SerialRpc.Host.Reserving
import SerialRpc.Proofs.Host.Skipping

/-!
# `SerialRpc.Proofs.Host.Reserving`: which room `Value::decode` asks for

* `decodeNested_outcome`: recording the `reserve` calls changes nothing else.
* `mem_reserved_iff`: there is one call for each container header that the decoder comes
  to, with the count of the header and the bytes behind it.
-/

set_option autoImplicit false

namespace SerialRpc

open MsgPack Reader

namespace Decoding

variable {α β : Type}

/-! ### The record aside -/

/-- The outcome of two steps, with what they reserve left out. -/
theorem outcome_bind (x : Decoding α) (next : α → Decoding β) :
    (x >>= next).outcome = x.outcome >>= fun a => (next a).outcome := by
  show (x.andThen next).outcome = _
  unfold andThen
  cases x.outcome <;> rfl

/-- Many objects decode to what they decode to without the record. -/
theorem decodeMany_outcome {dec : Reader .host64 → Decoding (α × Reader .host64)}
    {dec' : Reader .host64 → Except ProtocolError (α × Reader .host64)}
    (h : ∀ r, (dec r).outcome = dec' r) (n : Nat) (r : Reader .host64) :
    (decodeMany dec n r).outcome = Value.decodeMany dec' n r := by
  induction n generalizing r with
  | zero => rfl
  | succ n ih =>
      rw [decodeMany, outcome_bind, Value.decodeMany, h]
      refine congrArg (dec' r >>= ·) (funext fun p => ?_)
      rw [outcome_bind, ih]
      rfl

/-- So do a key and its value. -/
theorem decodeEntry_outcome {dec : Reader .host64 → Decoding (Value × Reader .host64)}
    {dec' : Reader .host64 → Except ProtocolError (Value × Reader .host64)}
    (h : ∀ r, (dec r).outcome = dec' r) (r : Reader .host64) :
    (decodeEntry dec r).outcome = Value.decodeEntry dec' r := by
  rw [decodeEntry, outcome_bind, Value.decodeEntry, h]
  refine congrArg (dec' r >>= ·) (funext fun p => ?_)
  rw [outcome_bind, h]
  rfl

/-- So does what is read after a check of the reader. -/
theorem checked_outcome {γ : Type} (answer : Reader .host64 × γ)
    (next : γ → Reader .host64 → Decoding β) :
    (checked answer next).outcome
      = Value.checked answer fun v r => (next v r).outcome := by
  unfold checked Value.checked
  split <;> rfl

/-- The decoder with the record is the decoder. -/
theorem decodeNested_outcome (levels : Nat) (r : Reader .host64) :
    (decodeNested levels r).outcome = Value.decodeNested levels r := by
  -- By induction on the levels: a container decodes its parts one level further down.
  induction levels generalizing r with
  | zero =>
      rw [decodeNested, Value.decodeNested]
      split <;> rfl
  | succ levels ih =>
      rw [decodeNested]
      by_cases herror : r.error
      · rw [if_pos herror, Value.decodeNested, if_pos herror]
        rfl
      · rw [if_neg herror]
        cases htype : r.type with
        | array =>
            rw [Value.decodeNested, if_neg herror]
            simp only [htype, checked_outcome]
            refine congrArg (Value.checked (r.readArray 0)) (funext fun n => funext fun r => ?_)
            rw [outcome_bind]
            show (decodeMany (decodeNested levels) n r >>= _).outcome = _
            rw [outcome_bind, decodeMany_outcome ih]
            rfl
        | map =>
            rw [Value.decodeNested, if_neg herror]
            simp only [htype, checked_outcome]
            refine congrArg (Value.checked (r.readMap 0)) (funext fun n => funext fun r => ?_)
            rw [outcome_bind]
            show (decodeMany (decodeEntry (decodeNested levels)) n r >>= _).outcome = _
            rw [outcome_bind, decodeMany_outcome (decodeEntry_outcome ih)]
            rfl
        | _ => rfl

/-! ### The record -/

/-- The calls of the first decoder, and those of the second one if it is run. -/
theorem mem_reserved_bind {x : Decoding α} {next : α → Decoding β} {asked : Reservation} :
    asked ∈ (x >>= next).reserved ↔
      asked ∈ x.reserved ∨ ∃ a, x.outcome = .ok a ∧ asked ∈ (next a).reserved := by
  show asked ∈ (x.andThen next).reserved ↔ _
  unfold andThen
  cases x.outcome with
  | error e => simp
  | ok a => simp

/-- The outcome of a decoder and what is made of it. -/
theorem outcome_bind_ok {x : Decoding α} {next : α → Decoding β} {b : β} :
    (x >>= next).outcome = .ok b ↔ ∃ a, x.outcome = .ok a ∧ (next a).outcome = .ok b := by
  rw [outcome_bind]
  cases x.outcome with
  | error e => simp [bind, Except.bind]
  | ok a => simp [bind, Except.bind]

/-- A value that is at hand reserves nothing. -/
theorem mem_reserved_pure {a : α} {asked : Reservation} :
    ¬ asked ∈ (pure a : Decoding α).reserved := List.not_mem_nil

/-- What many objects reserve: what the first does, and what the rest do behind it. -/
theorem mem_reserved_many_succ {dec : Reader .host64 → Decoding (α × Reader .host64)} {n : Nat}
    {r : Reader .host64} {asked : Reservation} :
    asked ∈ (decodeMany dec (n + 1) r).reserved ↔
      asked ∈ (dec r).reserved ∨
        ∃ v r', (dec r).outcome = .ok (v, r') ∧ asked ∈ (decodeMany dec n r').reserved := by
  rw [decodeMany, mem_reserved_bind]
  simp only [Prod.exists, mem_reserved_bind, mem_reserved_pure, and_false, exists_false, or_false]

/-- An entry is two objects in a row. -/
theorem mem_reserved_entries {dec : Reader .host64 → Decoding (Value × Reader .host64)} (n : Nat)
    {r : Reader .host64} {asked : Reservation} :
    asked ∈ (decodeMany (decodeEntry dec) n r).reserved ↔
      asked ∈ (decodeMany dec (2 * n) r).reserved := by
  -- By induction on the entries. A key and its value are two objects in a row.
  induction n generalizing r with
  | zero => exact Iff.rfl
  | succ n ih =>
      rw [Nat.mul_succ]
      constructor
      · intro h
        rcases mem_reserved_many_succ.mp h with hentry | hrest
        · rcases mem_reserved_bind.mp hentry with hkey | hvalue
          · exact mem_reserved_many_succ.mpr (Or.inl hkey)
          · obtain ⟨⟨k, r'⟩, hkey, hvalue⟩ := hvalue
            refine mem_reserved_many_succ.mpr (Or.inr ⟨k, r', hkey, ?_⟩)
            rcases mem_reserved_bind.mp hvalue with hvalue | hend
            · exact mem_reserved_many_succ.mpr (Or.inl hvalue)
            · obtain ⟨_, _, hnone⟩ := hend
              exact absurd hnone mem_reserved_pure
        · obtain ⟨entry, r'', hentry, hrest⟩ := hrest
          obtain ⟨⟨k, r'⟩, hkey, hvalue⟩ := outcome_bind_ok.mp hentry
          obtain ⟨⟨v, r₂⟩, hvalue, hend⟩ := outcome_bind_ok.mp hvalue
          cases hend
          refine mem_reserved_many_succ.mpr (Or.inr ⟨k, r', hkey, ?_⟩)
          exact mem_reserved_many_succ.mpr (Or.inr ⟨v, r'', hvalue, ih.mp hrest⟩)
      · intro h
        rcases mem_reserved_many_succ.mp h with hkey | hrest
        · exact mem_reserved_many_succ.mpr (Or.inl (mem_reserved_bind.mpr (Or.inl hkey)))
        · obtain ⟨k, r', hkey, hrest⟩ := hrest
          rcases mem_reserved_many_succ.mp hrest with hvalue | hrest
          · refine mem_reserved_many_succ.mpr (Or.inl (mem_reserved_bind.mpr ?_))
            exact Or.inr ⟨(k, r'), hkey, mem_reserved_bind.mpr (Or.inl hvalue)⟩
          · obtain ⟨v, r'', hvalue, hrest⟩ := hrest
            refine mem_reserved_many_succ.mpr (Or.inr ⟨(k, v), r'', ?_, ih.mpr hrest⟩)
            exact outcome_bind_ok.mpr
              ⟨(k, r'), hkey, outcome_bind_ok.mpr ⟨(v, r''), hvalue, rfl⟩⟩

/-! ### One call for each container header -/

/-- The decoder on a reader without an error, and the grammar. -/
theorem decodeNested_ok_iff {levels : Nat} {r r' : Reader .host64} (herror : r.error = false) :
    (∃ v, (decodeNested levels r).outcome = .ok (v, r')) ↔
      ∃ k, PlainFront levels r.rest k ∧ r' = r.advance k := by
  simp only [decodeNested_outcome, Value.decodeNested_follows levels r herror, Value.atCursor,
    ← Value.parses_iff, Value.Parses]
  cases Value.parseNested levels r.rest with
  | error e => simp [Except.map]
  | ok p =>
      constructor
      · intro h
        obtain ⟨v, hv⟩ := h
        cases hv
        exact ⟨p.2, ⟨p.1, rfl⟩, rfl⟩
      · intro h
        obtain ⟨k, ⟨v, hv⟩, rfl⟩ := h
        cases hv
        exact ⟨v, rfl⟩

/-- The calls for so many objects in a row, given those for one. -/
theorem mem_reserved_many_iff {levels : Nat} {asked : Reservation}
    (ih : ∀ r : Reader .host64, r.error = false →
      (asked ∈ (decodeNested levels r).reserved ↔
        ContainerAt levels r.rest asked.count asked.left))
    (n : Nat) {r : Reader .host64} (herror : r.error = false) :
    asked ∈ (decodeMany (decodeNested levels) n r).reserved ↔
      ContainerAmong levels n r.rest asked.count asked.left := by
  -- By induction on the objects: what is reserved is in the first, or behind it.
  induction n generalizing r with
  | zero =>
      constructor
      · intro h
        exact absurd h mem_reserved_pure
      · intro h
        exact absurd h containerAmong_zero
  | succ n ihn =>
      rw [mem_reserved_many_succ, containerAmong_succ, ih r herror]
      refine or_congr Iff.rfl ?_
      constructor
      · intro h
        obtain ⟨v, r', hfirst, hrest⟩ := h
        obtain ⟨k, hfront, rfl⟩ := (decodeNested_ok_iff herror).mp ⟨v, hfirst⟩
        refine ⟨k, hfront, ?_⟩
        rw [← rest_advance]
        exact (ihn (r := r.advance k) herror).mp hrest
      · intro h
        obtain ⟨k, hfront, hrest⟩ := h
        obtain ⟨v, hfirst⟩ := (decodeNested_ok_iff herror).mpr ⟨k, hfront, rfl⟩
        rw [← rest_advance] at hrest
        exact ⟨v, r.advance k, hfirst, (ihn (r := r.advance k) herror).mpr hrest⟩

/-- A container whose header is read: the call for it, and those of its parts. -/
theorem mem_reserved_container {levels k n count : Nat} {asked : Reservation}
    {r : Reader .host64} {β : Type} {parts : Reader .host64 → Decoding β}
    {make : β → Value × Reader .host64}
    (hparts : asked ∈ (parts (r.advance k)).reserved ↔
      ContainerAmong levels count (r.advance k).rest asked.count asked.left) :
    asked ∈ (do
        reserve n (r.advance k)
        let b ← parts (r.advance k)
        return make b : Decoding (Value × Reader .host64)).reserved ↔
      asked.count = n ∧ asked.left = r.rest.length - k ∨
        ContainerAmong levels count (r.rest.drop k) asked.count asked.left := by
  -- The header itself reserves what it announces, and the rest is reserved behind it.
  have hcall : asked ∈ (reserve n (r.advance k)).reserved ↔
      asked.count = n ∧ asked.left = r.rest.length - k := by
    have hleft : (r.advance k).remaining = r.rest.length - k := by
      rw [remaining_eq, rest_advance, List.length_drop]
    rw [reserve, hleft, List.mem_singleton]
    obtain ⟨count, left⟩ := asked
    exact Reservation.mk.injEq .. ▸ Iff.rfl
  rw [rest_advance] at hparts
  rw [mem_reserved_bind]
  refine or_congr hcall ?_
  constructor
  · intro h
    obtain ⟨_, -, hbehind⟩ := h
    rcases mem_reserved_bind.mp hbehind with hbehind | hend
    · exact hparts.mp hbehind
    · obtain ⟨_, _, hnone⟩ := hend
      exact absurd hnone mem_reserved_pure
  · intro h
    exact ⟨(), rfl, mem_reserved_bind.mpr (Or.inl (hparts.mpr h))⟩

/-- An object that is no container asks for no room. -/
theorem reserved_of_no_container {levels : Nat} {r : Reader .host64} (herror : r.error = false)
    (harray : header (asArray .host64) r.rest = none)
    (hmap : header (asMap .host64) r.rest = none) :
    (decodeNested (levels + 1) r).reserved = [] := by
  rw [decodeNested, if_neg (by rw [herror]; decide)]
  cases htype : r.type with
  | array =>
      simp only [readArray_eq, store_answerOf, harray, checked, flagged, if_true]
      rfl
  | map =>
      simp only [readMap_eq, store_answerOf, hmap, checked, flagged, if_true]
      rfl
  | _ => rfl

/-- An array: a call for its elements, and then their calls. -/
theorem mem_reserved_array {levels len k : Nat} {asked : Reservation} {r : Reader .host64}
    (herror : r.error = false) (htoken : token r.rest = some (.array len, k))
    (hparts : asked ∈ (decodeMany (decodeNested levels) len (r.advance k)).reserved ↔
      ContainerAmong levels len (r.advance k).rest asked.count asked.left) :
    asked ∈ (decodeNested (levels + 1) r).reserved ↔
      asked.count = len ∧ asked.left = r.rest.length - k ∨
        ContainerAmong levels len (r.rest.drop k) asked.count asked.left := by
  have hlen := Value.asLength_header htoken (Nat.le_add_left len 0)
  have htype : r.type = .array :=
    (type_eq herror).trans (Value.typeAt_of_token htoken (by simp [Token.kind]))
  have hread : header (asArray .host64) r.rest = some (len, k) := by
    rw [header, htoken, Option.bind_some, asArray, hlen, Option.map_some]
  have hgoes : ¬ (r.advance k).error = true := by
    rw [show (r.advance k).error = false from herror]
    decide
  rw [decodeNested, if_neg (by rw [herror]; decide)]
  simp only [htype, readArray_eq, store_answerOf, hread, checked]
  rw [if_neg hgoes]
  exact mem_reserved_container hparts

/-- A map: a call for its entries, and then those of its keys and values. -/
theorem mem_reserved_map {levels len k : Nat} {asked : Reservation} {r : Reader .host64}
    (herror : r.error = false) (htoken : token r.rest = some (.map len, k))
    (hparts : asked ∈ (decodeMany (decodeNested levels) (2 * len) (r.advance k)).reserved ↔
      ContainerAmong levels (2 * len) (r.advance k).rest asked.count asked.left) :
    asked ∈ (decodeNested (levels + 1) r).reserved ↔
      asked.count = len ∧ asked.left = r.rest.length - k ∨
        ContainerAmong levels (2 * len) (r.rest.drop k) asked.count asked.left := by
  have hlen := Value.asLength_header htoken (show len ≤ 0 + 2 * len by omega)
  have htype : r.type = .map :=
    (type_eq herror).trans (Value.typeAt_of_token htoken (by simp [Token.kind]))
  have hread : header (asMap .host64) r.rest = some (len, k) := by
    rw [header, htoken, Option.bind_some, asMap, hlen, Option.map_some]
  have hgoes : ¬ (r.advance k).error = true := by
    rw [show (r.advance k).error = false from herror]
    decide
  rw [decodeNested, if_neg (by rw [herror]; decide)]
  simp only [htype, readMap_eq, store_answerOf, hread, checked]
  rw [if_neg hgoes]
  exact mem_reserved_container ((mem_reserved_entries len).trans hparts)

/-- The calls of a decoder are the container headers it comes to. -/
theorem mem_reserved_iff (levels : Nat) {asked : Reservation} {r : Reader .host64}
    (herror : r.error = false) :
    asked ∈ (decodeNested levels r).reserved ↔
      ContainerAt levels r.rest asked.count asked.left := by
  induction levels generalizing r with
  | zero =>
      rw [decodeNested, if_neg (by rw [herror]; decide)]
      constructor
      · intro h
        exact absurd h List.not_mem_nil
      · intro h
        cases h
  | succ levels ih =>
      have hmany (n k : Nat) : asked ∈ (decodeMany (decodeNested levels) n (r.advance k)).reserved ↔
          ContainerAmong levels n (r.advance k).rest asked.count asked.left :=
        mem_reserved_many_iff (fun r => ih (r := r)) n herror
      have hcount (len : Nat) : some len = some asked.count ↔ asked.count = len := by
        rw [Option.some.injEq, eq_comm]
      cases htoken : token r.rest with
      | none =>
          have hnone (f : Token → Option Nat) : header f r.rest = none := by
            rw [header, htoken, Option.bind_none]
          rw [reserved_of_no_container herror (hnone _) (hnone _)]
          constructor
          · intro h
            exact absurd h List.not_mem_nil
          · intro h
            exact absurd h (not_containerAt htoken)
      | some p =>
          obtain ⟨t, k⟩ := p
          rw [containerAt_iff htoken]
          -- A token that is no container header asks for nothing, and has no parts.
          have hno (hcount : t.count = none) (hchildren : t.children = 0)
              (harray : asArray .host64 t = none) (hmap : asMap .host64 t = none) :
              asked ∈ (decodeNested (levels + 1) r).reserved ↔
                t.count = some asked.count ∧ asked.left = r.rest.length - k ∨
                  ContainerAmong levels t.children (r.rest.drop k) asked.count asked.left := by
            have hheader (f : Token → Option Nat) (hf : f t = none) : header f r.rest = none := by
              rw [header, htoken, Option.bind_some, hf, Option.map_none]
            rw [reserved_of_no_container herror (hheader _ harray) (hheader _ hmap), hcount,
              hchildren]
            simp [containerAmong_zero]
          cases t with
          | array len =>
              rw [Token.count, hcount]
              exact mem_reserved_array herror htoken (hmany len k)
          | map len =>
              rw [Token.count, hcount]
              exact mem_reserved_map herror htoken (hmany (2 * len) k)
          | _ => exact hno rfl rfl rfl rfl

end Decoding

end SerialRpc

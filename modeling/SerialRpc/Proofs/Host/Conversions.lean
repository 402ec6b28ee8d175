import SerialRpc.Host.Conversions
import SerialRpc.Host.Rpc
import SerialRpc.Proofs.Host.Value

/-!
# `SerialRpc.Proofs.Host.Conversions`: typed values there and back

* `as_toValue`: without a `std::vector<uint8_t>`, `as` gives back what `to_value` took.
* `as_toValue_fails`: with one it throws. `to_value` makes an array of it, and `as` asks for
  a bin.
* `conversions_inverse_iff`: so for the round trip, directly and over the wire.
-/

set_option autoImplicit false

namespace SerialRpc

variable {abi : Abi}

/-! ### What the way of a value leaves alone -/

/-- A change to the `Value` leaves of an object. -/
def CppValue.mapValues (f : Value → Value) : (t : CppType) → CppValue abi t → CppValue abi t
  | .value, x => f x
  | .vector elem, (x : List (CppValue abi elem)) => x.map (mapValues f elem)
  | .map _ mapped, (x : SortedMap _ (CppValue abi mapped)) => x.map (mapValues f mapped)
  | .bool, x => x
  | .integral _, x => x
  | .double, x => x
  | .string, x => x

/-- No change. -/
theorem CppValue.mapValues_id (t : CppType) (x : CppValue abi t) : mapValues id t x = x := by
  induction t with
  | vector elem ih =>
      show List.map (mapValues id elem) x = x
      exact (List.map_congr_left fun e _ => ih e).trans (List.map_id _)
  | map cmp mapped ih =>
      refine SortedMap.ext ?_
      exact (List.map_congr_left fun e _ => congrArg (Prod.mk e.1) (ih e.2)).trans (List.map_id _)
  | _ => rfl

namespace Value

/-- A change to values that goes through containers and that conversions do not see. -/
structure Transparent (abi : Abi) (f : Value → Value) : Prop where
  bool : ∀ v, f (.bool v) = .bool v
  double : ∀ bits, f (.double bits) = .double bits
  str : ∀ s, f (.str s) = .str s
  array : ∀ elems, f (.array elems) = .array (elems.map f)
  map : ∀ entries, f (.map entries) = .map (entries.map (Prod.map f f))
  integral : ∀ (t : IntType) (i : abi.IntOf t),
    asIntegral abi t (f (integralToValue t i)) = .ok i

/-! ### Integers -/

/-- The limits of an integer type are limits of `int64_t` or `uint64_t`. -/
theorem limits (abi : Abi) (t : IntType) :
    if abi.signed t then -2 ^ 63 ≤ abi.min t ∧ abi.max t < 2 ^ 63
    else abi.min t = 0 ∧ abi.max t < 2 ^ 64 := by
  have hwide := abi.bits_le t
  have hhalf : 2 ^ (abi.bits t - 1) ≤ 2 ^ 63 := Nat.pow_le_pow_right (by omega) (by omega)
  have hfull : 2 ^ abi.bits t ≤ 2 ^ 64 := Nat.pow_le_pow_right (by omega) hwide
  rw [Abi.min, Abi.max]
  split
  · omega
  · omega

/-- A non-negative number as `uint64_t`. -/
theorem asIntegral_uint {t : IntType} (i : abi.IntOf t) (h : 0 ≤ i.val) :
    asIntegral abi t (.uint (UInt64.ofInt i.val)) = .ok i := by
  have hlimits := limits abi t
  have hrange := i.property
  have hsmall : i.val < 2 ^ 64 := by
    split at hlimits <;> omega
  have hnat : ((UInt64.ofInt i.val).toNat : Int) = i.val := by
    rw [UInt64.ofInt, UInt64.toNat_ofNat']
    omega
  rw [asIntegral, hnat, if_neg (by omega), Abi.staticCast_val]

/-- An integer as `to_value` has it. -/
theorem asIntegral_toValue (t : IntType) (i : abi.IntOf t) :
    asIntegral abi t (integralToValue t i) = .ok i := by
  have hlimits := limits abi t
  have hrange := i.property
  rw [integralToValue]
  split
  · rename_i hsigned
    rw [if_pos hsigned] at hlimits
    have hint : (Int64.ofInt i.val).toInt = i.val :=
      Int64.toInt_ofInt_of_le (by omega) (by omega)
    rw [asIntegral, if_pos hsigned, hint, if_neg (by omega), Abi.staticCast_val]
  · rename_i hsigned
    rw [if_neg hsigned] at hlimits
    exact asIntegral_uint i (by omega)

/-- An integer that was on the wire. -/
theorem asIntegral_normalized (t : IntType) (i : abi.IntOf t) :
    asIntegral abi t (integralToValue t i).normalized = .ok i := by
  have hlimits := limits abi t
  have hrange := i.property
  have hdirect := asIntegral_toValue t i
  rw [integralToValue] at hdirect ⊢
  split
  · rename_i hsigned
    rw [if_pos hsigned] at hlimits hdirect
    have hint : (Int64.ofInt i.val).toInt = i.val :=
      Int64.toInt_ofInt_of_le (by omega) (by omega)
    rw [normalized]
    split
    · -- The kind changes, and the number does not.
      rename_i hpos
      have hnonneg : 0 ≤ i.val := by
        rw [← hint]
        exact Int64.le_iff_toInt_le.mp hpos
      have hbits : (Int64.ofInt i.val).toUInt64 = UInt64.ofInt i.val := by
        rw [← UInt64.toNat_inj, Int64.toNat_toUInt64_of_le hpos, Int64.toNatClampNeg, hint,
          UInt64.ofInt, UInt64.toNat_ofNat']
        omega
      rw [hbits]
      exact asIntegral_uint i hnonneg
    · exact hdirect
  · rename_i hsigned
    rw [if_neg hsigned] at hdirect
    exact hdirect

/-! ### Values of every type -/

/-- Elements that are read back one by one. -/
theorem mapM_ok {α β γ ε : Type} {read : β → Except ε γ} {make : α → β} {result : α → γ}
    {xs : List α} (h : ∀ x ∈ xs, read (make x) = .ok (result x)) :
    (xs.map make).mapM read = .ok (xs.map result) := by
  induction xs with
  | nil => rfl
  | cons x xs ih =>
      obtain ⟨hfirst, hrest⟩ := List.forall_mem_cons.mp h
      rw [List.map_cons, List.mapM_cons, hfirst, ih hrest]
      rfl

/-- The first element that is not read back. -/
theorem mapM_fails {α β γ ε : Type} {read : β → Except ε γ} {make : α → β} {xs : List α} {x : α}
    (hx : x ∈ xs) (h : ∃ e, read (make x) = .error e) :
    ∃ e, (xs.map make).mapM read = .error e := by
  induction xs with
  | nil => cases hx
  | cons y ys ih =>
      rw [List.map_cons, List.mapM_cons]
      cases hfirst : read (make y) with
      | error e => exact ⟨e, rfl⟩
      | ok z =>
          rcases List.mem_cons.mp hx with rfl | hx
          · obtain ⟨e, he⟩ := h
            rw [he] at hfirst
            cases hfirst
          · obtain ⟨e, he⟩ := ih hx
            exact ⟨e, by rw [he]; rfl⟩

/-- The same in a loop that collects what it reads. -/
theorem foldlM_fails {α β γ ε σ : Type} {read : β → Except ε γ} {make : α → β} {xs : List α}
    {x : α} (collect : σ → γ → σ) (out : σ) (hx : x ∈ xs)
    (h : ∃ e, read (make x) = .error e) :
    ∃ e, (xs.map make).foldlM (fun out b => (read b).map (collect out)) out = .error e := by
  induction xs generalizing out with
  | nil => cases hx
  | cons y ys ih =>
      rw [List.map_cons, List.foldlM_cons]
      cases hfirst : read (make y) with
      | error e => exact ⟨e, rfl⟩
      | ok z =>
          rcases List.mem_cons.mp hx with rfl | hx
          · obtain ⟨e, he⟩ := h
            rw [he] at hfirst
            cases hfirst
          · exact ih (collect out z) hx

/-- A `std::vector<uint8_t>` occurs in the object. -/
def HoldsBytes : (t : CppType) → CppValue abi t → Prop
  | .vector elem, (x : List (CppValue abi elem)) =>
      elem = .integral .unsignedChar ∨ ∃ e ∈ x, HoldsBytes elem e
  | .map _ mapped, (x : SortedMap _ (CppValue abi mapped)) =>
      ∃ e ∈ x.entries, HoldsBytes mapped e.2
  | _, _ => False

/-- Any other vector is read from an array. -/
theorem asVector_of_ne {elem : CppType} (h : elem ≠ .integral .unsignedChar)
    (asElem : Value → Except TypeError (CppValue abi elem)) (v : Value) :
    v.asVector elem asElem = asArray asElem v := by
  cases elem with
  | integral t =>
      cases t with
      | unsignedChar => exact absurd rfl h
      | _ => rfl
  | _ => rfl

/-- A vector of another element type, if its elements are given back. -/
theorem asVector_toValue {f : Value → Value} (hf : Transparent abi f) {elem : CppType}
    (hbytes : elem ≠ .integral .unsignedChar) (xs : List (CppValue abi elem))
    (h : ∀ e ∈ xs, as abi elem (f (toValue elem e)) = .ok (e.mapValues f elem)) :
    asVector elem (as abi elem) (f (.array (xs.map (toValue elem))))
      = .ok (xs.map (CppValue.mapValues f elem)) := by
  rw [asVector_of_ne hbytes, hf.array, List.map_map]
  exact mapM_ok h

/-- A map, if its mapped objects are given back. -/
theorem asMap_toValue {f : Value → Value} (hf : Transparent abi f)
    {cmp : Compare (List UInt8)} {mapped : CppType} (m : SortedMap cmp (CppValue abi mapped))
    (h : ∀ e ∈ m.entries, as abi mapped (f (toValue mapped e.2)) = .ok (e.2.mapValues f mapped)) :
    asMap cmp (as abi mapped) (f (.map (m.entries.map fun kv => (.str kv.1, toValue mapped kv.2))))
      = .ok (m.map (CppValue.mapValues f mapped)) := by
  have hread : ∀ e ∈ m.entries,
      asEntry (as abi mapped) (Prod.map f f (.str e.1, toValue mapped e.2))
        = .ok (e.1, e.2.mapValues f mapped) := by
    intro e he
    rw [asEntry, Prod.map, hf.str, h e he]
    rfl
  have hentries : (m.entries.map (Prod.map f f ∘ fun kv => (.str kv.1, toValue mapped kv.2))).map
      (asEntry (as abi mapped)) = (m.map (CppValue.mapValues f mapped)).entries.map .ok := by
    rw [List.map_map]
    exact (List.map_congr_left hread).trans (List.map_map ..).symm
  rw [hf.map, List.map_map]
  exact SortedMap.foldlM_emplace hentries .empty (m.map _).ascending

/-- Without a `std::vector<uint8_t>`, `as` gives back what `to_value` took, also after a
change that conversions do not see. -/
theorem as_toValue {f : Value → Value} (hf : Transparent abi f) (t : CppType)
    (x : CppValue abi t) (h : ¬ HoldsBytes t x) :
    as abi t (f (toValue t x)) = .ok (x.mapValues f t) := by
  induction t with
  | bool => exact congrArg asBool (hf.bool x)
  | integral t => exact hf.integral t x
  | double => exact congrArg asDouble (hf.double x)
  | string => exact congrArg asStdString (hf.str x)
  | value => rfl
  | vector elem ih =>
      obtain ⟨hbytes, helems⟩ := not_or.mp h
      exact asVector_toValue hf hbytes x fun e he => ih e fun hholds => helems ⟨e, he, hholds⟩
  | map cmp mapped ih =>
      exact asMap_toValue hf x fun e he => ih e.2 fun hholds => h ⟨e, he, hholds⟩

/-- A vector of bytes is asked for as a bin. -/
theorem asVector_toValue_fails {elem : CppType} (xs : List (CppValue abi elem))
    (h : elem = .integral .unsignedChar ∨
      ∃ e ∈ xs, ∃ error, as abi elem (toValue elem e) = .error error) :
    ∃ error, asVector elem (as abi elem) (.array (xs.map (toValue elem))) = .error error := by
  by_cases hbytes : elem = .integral .unsignedChar
  · subst hbytes
    exact ⟨_, rfl⟩
  · obtain ⟨e, he, hfails⟩ := h.resolve_left hbytes
    rw [asVector_of_ne hbytes]
    exact mapM_fails he hfails

/-- With a `std::vector<uint8_t>`, `as` throws. -/
theorem as_toValue_fails (t : CppType) (x : CppValue abi t) (h : HoldsBytes t x) :
    ∃ error : TypeError, as abi t (toValue t x) = .error error := by
  induction t with
  | vector elem ih =>
      refine asVector_toValue_fails x (h.imp_right ?_)
      rintro ⟨e, he, hholds⟩
      exact ⟨e, he, ih e hholds⟩
  | map cmp mapped ih =>
      obtain ⟨e, he, hholds⟩ := h
      obtain ⟨error, herror⟩ := ih e.2 hholds
      refine foldlM_fails (fun (out : SortedMap cmp (CppValue abi mapped))
        (kv : List UInt8 × CppValue abi mapped) => out.emplace kv.1 kv.2) .empty he ⟨error, ?_⟩
      rw [asEntry, herror]
      rfl
  | _ => cases h

/-! ### Directly and over the wire -/

/-- Leaving a value alone is transparent. -/
theorem transparent_id : Transparent abi id where
  bool _ := rfl
  double _ := rfl
  str _ := rfl
  array elems := by rw [List.map_id]; rfl
  map entries := by rw [Prod.map_id, List.map_id]; rfl
  integral := asIntegral_toValue

/-- Normalizing elements is normalizing each of them. -/
theorem normalizedElems_eq (elems : List Value) : normalizedElems elems = elems.map normalized := by
  induction elems with
  | nil => rfl
  | cons e elems ih => rw [normalizedElems, ih, List.map_cons]

/-- Normalizing entries is normalizing the key and the value of each. -/
theorem normalizedEntries_eq (entries : List (Value × Value)) :
    normalizedEntries entries = entries.map (Prod.map normalized normalized) := by
  induction entries with
  | nil => rfl
  | cons e entries ih =>
      rw [normalizedEntries, ih, List.map_cons]
      rfl

/-- Normalizing is transparent: every conversion reads the same from the normalized value. -/
theorem transparent_normalized : Transparent abi normalized where
  bool _ := rfl
  double _ := rfl
  str _ := rfl
  array elems := by rw [normalized, normalizedElems_eq]
  map entries := by rw [normalized, normalizedEntries_eq]
  integral := asIntegral_normalized

/-- `as` gives back what `to_value` took, directly, and after the value was encoded behind
whatever a writer held and decoded. Over the wire a `Value` inside comes back normalized. -/
def RoundTrips (t : CppType) (x : CppValue abi t) : Prop :=
  as abi t (toValue t x) = .ok x ∧
    ∀ (buf : List UInt8) (cap : Nat) (before : List PackOp), cap ≤ buf.length →
      (toValue t x).Sized → (toValue t x).nesting ≤ kMaxDepth →
      let w := (Writer.new buf cap).packAll before
      let written := (toValue t x).encode w
      written.overflow = false →
        ∃ v r, decode ⟨written.data, w.size, false⟩ = .ok (v, r) ∧
          as abi t v = .ok (x.mapValues normalized t)

/-- **Typed conversions.** An object round-trips exactly if no `std::vector<uint8_t>` occurs
in it. -/
theorem conversions_inverse_iff (t : CppType) (x : CppValue abi t) :
    RoundTrips t x ↔ ¬ HoldsBytes t x := by
  constructor
  · rintro ⟨hdirect, -⟩ hholds
    obtain ⟨error, herror⟩ := as_toValue_fails t x hholds
    rw [herror] at hdirect
    cases hdirect
  · intro hholds
    constructor
    · have hdirect := as_toValue transparent_id t x hholds
      rw [CppValue.mapValues_id] at hdirect
      exact hdirect
    · intro buf cap before hcap hsized hnesting w written hfit
      have hwire := (value_round_trip (toValue t x) hsized buf cap hcap before).1 hnesting hfit
      exact ⟨_, _, hwire, as_toValue transparent_normalized t x hholds⟩

/-- `std::vector<uint8_t>{1, 2, 3}` becomes an array, which `as` does not take for a bin. -/
theorem conversions_inverse_fails :
    let bytes : CppType := .vector (.integral .unsignedChar)
    let x : CppValue .lp64 bytes := [1, 2, 3].map (Abi.staticCast .lp64 .unsignedChar)
    toValue bytes x = .array [.uint 1, .uint 2, .uint 3] ∧
      as .lp64 bytes (toValue bytes x)
        = .error (.isNot "serial_rpc::Value::as<Bin>(): value is not bin (" (toValue bytes x)) ∧
      ¬ RoundTrips bytes x := by
  intro bytes x
  have hthrows : as .lp64 bytes (toValue bytes x)
      = .error (.isNot "serial_rpc::Value::as<Bin>(): value is not bin (" (toValue bytes x)) := rfl
  refine ⟨rfl, hthrows, ?_⟩
  rintro ⟨hdirect, -⟩
  rw [hthrows] at hdirect
  cases hdirect

end Value

end SerialRpc

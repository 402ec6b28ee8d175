import SerialRpc.Proofs.Host.Parser
import SerialRpc.Proofs.Msgpack.Writer

/-!
# `SerialRpc.Proofs.Host.Value`: the round trip of values

* `encode_eq`: `encode` is the sequence of `pack` calls `ops`.
* `parseNested_bytes`: the parser reads the encoding of a value back, or runs out of levels.
* `value_round_trip`: `Value::decode` after `Value::encode`.
-/

set_option autoImplicit false

namespace SerialRpc

open MsgPack Reader

namespace Value

/-! ### What a round trip keeps -/

mutual

/-- The number of containers around the innermost object. -/
def nesting : Value → Nat
  | array elems => nestingElems elems
  | map entries => nestingEntries entries
  | _ => 0

/-- The same for the elements of an array, the array included. -/
def nestingElems : List Value → Nat
  | [] => 0
  | e :: elems => max (e.nesting + 1) (nestingElems elems)

/-- The same for the entries of a map, the map included. -/
def nestingEntries : List (Value × Value) → Nat
  | [] => 0
  | (k, v) :: entries => max (max (k.nesting + 1) (v.nesting + 1)) (nestingEntries entries)

end

mutual

/-- Every string, bin, array and map has fewer than `2 ^ 32` elements. -/
def Sized : Value → Prop
  | str s => s.length < 2 ^ 32
  | bin bytes => bytes.length < 2 ^ 32
  | array elems => elems.length < 2 ^ 32 ∧ SizedElems elems
  | map entries => entries.length < 2 ^ 32 ∧ SizedEntries entries
  | _ => True

def SizedElems : List Value → Prop
  | [] => True
  | e :: elems => e.Sized ∧ SizedElems elems

def SizedEntries : List (Value × Value) → Prop
  | [] => True
  | (k, v) :: entries => (k.Sized ∧ v.Sized) ∧ SizedEntries entries

end

mutual

/-- The value as the wire has it: a non-negative integer is unsigned. -/
def normalized : Value → Value
  | int v => if 0 ≤ v then uint v.toUInt64 else int v
  | array elems => array (normalizedElems elems)
  | map entries => map (normalizedEntries entries)
  | v => v

def normalizedElems : List Value → List Value
  | [] => []
  | e :: elems => e.normalized :: normalizedElems elems

def normalizedEntries : List (Value × Value) → List (Value × Value)
  | [] => []
  | (k, v) :: entries => (k.normalized, v.normalized) :: normalizedEntries entries

end

/-! ### Encoding -/

mutual

/-- The `pack` calls of `encode`. -/
def ops : Value → List PackOp
  | nil => [.nil]
  | bool v => [.bool v]
  | int v => [.int v]
  | uint v => [.uint v]
  | double bits => [.double bits]
  | str s => [.str s]
  | bin bytes => [.bin bytes]
  | array elems => .array elems.length :: opsElems elems
  | map entries => .map entries.length :: opsEntries entries

def opsElems : List Value → List PackOp
  | [] => []
  | e :: elems => e.ops ++ opsElems elems

def opsEntries : List (Value × Value) → List PackOp
  | [] => []
  | (k, v) :: entries => k.ops ++ v.ops ++ opsEntries entries

end

/-- One operation is packed by `pack`. -/
theorem packAll_single (w : Writer) (op : PackOp) : w.packAll [op] = w.pack op := rfl

/-- Two runs of operations are packed one behind the other. -/
theorem packAll_append (w : Writer) (as bs : List PackOp) :
    w.packAll (as ++ bs) = (w.packAll as).packAll bs :=
  List.foldl_append ..

mutual

/-- `encode` is a sequence of `pack` calls. -/
theorem encode_eq : ∀ (v : Value) (w : Writer), v.encode w = w.packAll v.ops
  | nil, w => rfl
  | bool v, w => rfl
  | int v, w => by rw [encode, ops, packAll_single, Writer.pack]
  | uint v, w => by rw [encode, ops, packAll_single, Writer.pack]
  | double bits, w => by rw [encode, ops, packAll_single, Writer.pack]
  | str s, w => rfl
  | bin bytes, w => rfl
  | array elems, w => by
      rw [encode, encodeElems_eq elems, ops]
      rfl
  | map entries, w => by
      rw [encode, encodeEntries_eq entries, ops]
      rfl

/-- The elements are packed by their operations. -/
theorem encodeElems_eq : ∀ (elems : List Value) (w : Writer),
    encodeElems elems w = w.packAll (opsElems elems)
  | [], w => rfl
  | e :: elems, w => by
      rw [encodeElems, encode_eq e, encodeElems_eq elems, opsElems, packAll_append]

/-- So are the entries. -/
theorem encodeEntries_eq : ∀ (entries : List (Value × Value)) (w : Writer),
    encodeEntries entries w = w.packAll (opsEntries entries)
  | [], w => rfl
  | (k, v) :: entries, w => by
      rw [encodeEntries, encode_eq k, encode_eq v, encodeEntries_eq entries, opsEntries,
        packAll_append, packAll_append]

end

/-- The bytes of a value. -/
def bytes (v : Value) : List UInt8 := PackOp.encodings v.ops

/-- Every value is written. -/
theorem length_le_opsElems (elems : List Value) : elems.length ≤ (opsElems elems).length := by
  induction elems with
  | nil => exact Nat.le_refl 0
  | cons e elems ih =>
      have hops : 0 < e.ops.length := by
        cases e <;> exact Nat.succ_pos _
      rw [opsElems, List.length_append, List.length_cons]
      omega

end Value

/-- The bytes of two runs of operations. -/
theorem PackOp.encodings_append (as bs : List PackOp) :
    PackOp.encodings (as ++ bs) = PackOp.encodings as ++ PackOp.encodings bs :=
  List.flatMap_append ..

/-- The bytes of an operation and of those behind it. -/
theorem PackOp.encodings_cons (op : PackOp) (ops : List PackOp) :
    PackOp.encodings (op :: ops) = op.encoding ++ PackOp.encodings ops :=
  List.flatMap_cons ..

/-- The bytes of one operation. -/
theorem PackOp.encodings_single (op : PackOp) : PackOp.encodings [op] = op.encoding := by
  simp [PackOp.encodings]

namespace Value

/-! ### One object of each kind -/

/-- The header of a `pack` call is read back by a parser that accepts it. -/
theorem header_encoding {α : Type} {f : Token → Option α} {op : PackOp} {x : α}
    (hvalid : op.token.Valid) (hf : f op.token = some x) (rest : List UInt8) :
    header f (op.encoding ++ rest) = some (x, (shortest op.token).length) := by
  rw [PackOp.encoding, List.append_assoc, header, token_shortest hvalid, Option.bind_some, hf]
  rfl

/-- A `pack` call with a body is read back whole. -/
theorem blob_encoding {f : Token → Option Nat} {op : PackOp}
    (hvalid : op.token.Valid) (hf : f op.token = some op.body.length) (rest : List UInt8) :
    ∃ sizes, blob f (op.encoding ++ rest) = some (sizes, op.encoding.length) ∧
      ((op.encoding ++ rest).drop sizes.1).take sizes.2 = op.body := by
  refine ⟨((shortest op.token).length, op.body.length), ?_, ?_⟩
  · rw [blob, header_encoding hvalid hf, Option.bind_some, if_pos]
    · simp [PackOp.encoding]
    · simp only [PackOp.encoding, List.length_append]
      omega
  · rw [PackOp.encoding, List.append_assoc, List.drop_left, List.take_left]

/-- The type of an object that is no integer follows from its kind. -/
theorem typeAt_of_token {bs : List UInt8} {t : Token} {k : Nat} (h : token bs = some (t, k))
    (hkind : t.kind ≠ .int) : typeAt bs = typeOfKind t.kind := by
  -- The type is read off the lead byte, whose family has the kind of the token.
  cases bs with
  | nil => cases h
  | cons b bs =>
      have hlead := token_kind h
      rw [typeAt]
      cases hcase : lead b with
      | reserved =>
          rw [hcase] at hlead
          cases hlead
      | value t' =>
          rw [hcase] at hlead
          have hsame : t'.kind = t.kind := Option.some.inj hlead
          rw [← hsame] at hkind ⊢
          cases t' with
          | int v => exact absurd rfl hkind
          | _ => rfl
      | sized family width =>
          rw [hcase] at hlead
          have hsame : family.kind = t.kind := Option.some.inj hlead
          rw [← hsame] at hkind ⊢
          cases family with
          | uint => exact absurd rfl hkind
          | _ => rfl

/-- The type of an integer is its sign, in all formats but the signed ones. -/
theorem typeAt_of_int {b : UInt8} {bs : List UInt8} {v : Int} {k : Nat}
    (h : token (b :: bs) = some (.int v, k))
    (hsigned : 0 ≤ v → ∀ width, lead b ≠ .sized .int width) :
    typeAt (b :: bs) = if 0 ≤ v then .uint else .int := by
  have hlead := token_kind h
  simp only [token] at h
  rw [typeAt]
  -- The two integer families agree with the sign, and the short forms carry the number itself.
  cases hcase : lead b with
  | reserved =>
      rw [hcase] at h
      cases h
  | value t =>
      rw [hcase] at h
      cases h
      rfl
  | sized family width =>
      rw [hcase] at h hlead
      cases family with
      | uint =>
          obtain ⟨n, -, hn⟩ := Option.map_eq_some_iff.mp h
          cases hn
          rw [if_pos (by omega)]
          rfl
      | int =>
          rw [if_neg fun hv => hsigned hv width hcase]
          rfl
      | _ => cases hlead

/-- The smallest header of an integer shows its sign. -/
theorem typeAt_shortestInt {v : Int} (hlow : -2 ^ 63 ≤ v) (hhigh : v < 2 ^ 64)
    (rest : List UInt8) :
    typeAt (shortestInt v ++ rest) = if 0 ≤ v then .uint else .int := by
  have htoken := token_shortestInt hlow hhigh rest
  cases hbytes : shortestInt v ++ rest with
  | nil =>
      rw [hbytes] at htoken
      cases htoken
  | cons b bs =>
      rw [hbytes] at htoken
      refine typeAt_of_int htoken fun hpos width hlead => ?_
      rw [shortestInt, if_pos hpos, shortestNat] at hbytes
      -- In the unsigned ladder no format byte belongs to the signed family.
      split at hbytes
      · rename_i hsmall
        have hbyte : (UInt8.ofNat v.toNat).toNat = v.toNat := by
          rw [UInt8.toNat_ofNat']
          omega
        cases hbytes
        rw [lead, if_pos (UInt8.lt_iff_toNat_lt.mpr (by rw [hbyte]; exact hsmall))] at hlead
        cases hlead
      · have huint {byte : UInt8} {n : Nat} (hbyte : lead byte = .sized .uint n) (hb : byte = b) :
            False := by
          rw [← hb, hbyte] at hlead
          cases hlead
        split at hbytes
        · exact huint (show lead 0xcc = .sized .uint 1 by decide) (List.cons.inj hbytes).1
        · split at hbytes
          · exact huint (show lead 0xcd = .sized .uint 2 by decide) (List.cons.inj hbytes).1
          · split at hbytes
            · exact huint (show lead 0xce = .sized .uint 4 by decide) (List.cons.inj hbytes).1
            · exact huint (show lead 0xcf = .sized .uint 8 by decide) (List.cons.inj hbytes).1

/-- The type of a `pack` call that writes no integer. -/
theorem typeAt_encoding (op : PackOp) (hvalid : op.token.Valid) (hkind : op.token.kind ≠ .int)
    (rest : List UInt8) : typeAt (op.encoding ++ rest) = typeOfKind op.token.kind := by
  have htoken := token_shortest hvalid (op.body ++ rest)
  rw [← List.append_assoc, ← PackOp.encoding] at htoken
  exact typeAt_of_token htoken hkind

/-- A 64-bit host accepts every length the format has. -/
theorem asLength_host64 {len : Nat} (h : len < 2 ^ 32) : asLength .host64 len = some len := by
  rw [asLength, if_pos]
  simp only [SizeT.max, SizeT.host64]
  omega

/-- An integer comes back as the format shows its sign. -/
theorem parseNested_int (levels : Nat) (op : PackOp) {v : Int} (htoken : op.token = .int v)
    (hbody : op.body = []) (hlow : -2 ^ 63 ≤ v) (hhigh : v < 2 ^ 64) (rest : List UInt8) :
    parseNested (levels + 1) (op.encoding ++ rest)
      = .ok (if 0 ≤ v then uint (.ofNat v.toNat) else int (.ofInt v), op.encoding.length) := by
  have hvalid : op.token.Valid := by
    rw [htoken]
    exact ⟨hlow, hhigh⟩
  have henc : op.encoding = shortest op.token := Writer.encoding_of_body_nil hbody
  have htype : typeAt (op.encoding ++ rest) = if 0 ≤ v then .uint else .int := by
    rw [henc, htoken]
    exact typeAt_shortestInt hlow hhigh rest
  rw [parseNested, htype]
  -- The sign chooses the reader, and both have the range that the value is in.
  by_cases hpos : 0 ≤ v
  · have haccept : Reader.asNat (maxUnsigned 64) op.token = some v.toNat := by
      rw [htoken, Reader.asNat, if_pos ⟨hpos, by simp only [maxUnsigned]; omega⟩]
    have hheader := header_encoding hvalid haccept rest
    simp only [if_pos hpos, hheader, parseLeaf]
    rw [henc]
  · have haccept : Reader.asInt (-(maxSigned 64 : Nat) - 1) (maxSigned 64) op.token = some v := by
      rw [htoken, Reader.asInt,
        if_pos ⟨by simp only [maxSigned]; omega, by simp only [maxSigned]; omega⟩]
    have hheader := header_encoding hvalid haccept rest
    simp only [if_neg hpos, hheader, parseLeaf]
    rw [henc]

/-- An object that is one header. -/
theorem parseLeaf_encoding {α : Type} (f : Token → Option α) (op : PackOp) {x : α}
    (hvalid : op.token.Valid) (hbody : op.body = []) (hf : f op.token = some x) (make : α → Value)
    (rest : List UInt8) :
    parseLeaf (header f (op.encoding ++ rest)) make = .ok (make x, op.encoding.length) := by
  rw [header_encoding hvalid hf, Writer.encoding_of_body_nil hbody]
  rfl

/-- An object that is a header and its body. -/
theorem parseBlob_encoding (f : Token → Option Nat) (op : PackOp) (hvalid : op.token.Valid)
    (hf : f op.token = some op.body.length) (make : List UInt8 → Value) (rest : List UInt8) :
    parseLeaf (blob f (op.encoding ++ rest))
        (fun sizes => make (((op.encoding ++ rest).drop sizes.1).take sizes.2))
      = .ok (make op.body, op.encoding.length) := by
  obtain ⟨sizes, hblob, hbody⟩ := blob_encoding hvalid hf rest
  simp only [hblob, parseLeaf, hbody]

/-- A container: a header, and then the parts it counts. -/
theorem parseCounted_spells {α : Type} {f : Token → Option Nat} {t : Token} {n : Nat}
    {head : List UInt8} (hhead : Spells t head) (hf : f t = some n)
    (parse : Nat → List UInt8 → Except ProtocolError (List α × Nat)) (make : List α → Value)
    (parts : List UInt8) :
    parseCounted (header f (head ++ parts)) (fun n k => parse n ((head ++ parts).drop k)) make
      = match parse n parts with
        | .ok (xs, j) => .ok (make xs, head.length + j)
        | .error e => .error e := by
  rw [header_of_spells hhead hf]
  cases hparts : parse n parts with
  | ok p => simp only [parseCounted, List.drop_left, hparts]
  | error e => simp only [parseCounted, List.drop_left, hparts]

/-- The header that `pack` writes for a container. -/
theorem spells_encoding (op : PackOp) (hvalid : op.token.Valid) (hbody : op.body = []) :
    Spells op.token op.encoding := by
  rw [Writer.encoding_of_body_nil hbody]
  exact spells_shortest hvalid

/-! ### The round trip -/

/-- A parser reads the encodings of so many values back, as `parseNested_bytes` says of one. -/
theorem parseMany_bytesElems {levels : Nat}
    (ih : ∀ v : Value, v.Sized → ∀ rest, parseNested levels (v.bytes ++ rest)
      = if v.nesting < levels then .ok (v.normalized, v.bytes.length)
        else .error nestingExceedsMaxDepth)
    (elems : List Value) (hsized : SizedElems elems) (rest : List UInt8) :
    parseMany (parseNested levels) elems.length (PackOp.encodings (opsElems elems) ++ rest)
      = if nestingElems elems ≤ levels then
          .ok (normalizedElems elems, (PackOp.encodings (opsElems elems)).length)
        else .error nestingExceedsMaxDepth := by
  -- By induction on the elements: the first one is too deep, or one of the others is.
  induction elems with
  | nil => rfl
  | cons e elems ihelems =>
      have hothers := ihelems hsized.2
      rw [opsElems, PackOp.encodings_append, List.append_assoc, List.length_cons, parseMany,
        ← bytes, ih e hsized.1, nestingElems, normalizedElems]
      by_cases hfirst : e.nesting < levels
      · rw [if_pos hfirst]
        simp only [List.drop_left, hothers]
        by_cases hrest : nestingElems elems ≤ levels
        · rw [if_pos hrest, if_pos (by omega), List.length_append]
        · rw [if_neg hrest, if_neg (by omega)]
      · rw [if_neg hfirst, if_neg (by omega)]

/-- A key and its value are read back. -/
theorem parseEntry_bytes {levels : Nat}
    (ih : ∀ v : Value, v.Sized → ∀ rest, parseNested levels (v.bytes ++ rest)
      = if v.nesting < levels then .ok (v.normalized, v.bytes.length)
        else .error nestingExceedsMaxDepth)
    {k v : Value} (hk : k.Sized) (hv : v.Sized) (rest : List UInt8) :
    parseEntry (parseNested levels) (k.bytes ++ v.bytes ++ rest)
      = if max (k.nesting + 1) (v.nesting + 1) ≤ levels then
          .ok ((k.normalized, v.normalized), (k.bytes ++ v.bytes).length)
        else .error nestingExceedsMaxDepth := by
  rw [List.append_assoc, parseEntry, ih k hk]
  by_cases hkey : k.nesting < levels
  · rw [if_pos hkey]
    simp only [List.drop_left, ih v hv]
    by_cases hvalue : v.nesting < levels
    · rw [if_pos hvalue, if_pos (by omega), List.length_append]
    · rw [if_neg hvalue, if_neg (by omega)]
  · rw [if_neg hkey, if_neg (by omega)]

/-- So many entries are read back. -/
theorem parseMany_bytesEntries {levels : Nat}
    (ih : ∀ v : Value, v.Sized → ∀ rest, parseNested levels (v.bytes ++ rest)
      = if v.nesting < levels then .ok (v.normalized, v.bytes.length)
        else .error nestingExceedsMaxDepth)
    (entries : List (Value × Value)) (hsized : SizedEntries entries) (rest : List UInt8) :
    parseMany (parseEntry (parseNested levels)) entries.length
        (PackOp.encodings (opsEntries entries) ++ rest)
      = if nestingEntries entries ≤ levels then
          .ok (normalizedEntries entries, (PackOp.encodings (opsEntries entries)).length)
        else .error nestingExceedsMaxDepth := by
  -- By induction on the entries: a key, its value or one of the others is too deep.
  induction entries with
  | nil => rfl
  | cons entry entries ihentries =>
      obtain ⟨k, v⟩ := entry
      have hothers := ihentries hsized.2
      rw [opsEntries, PackOp.encodings_append, PackOp.encodings_append, List.append_assoc,
        List.length_cons, parseMany, ← bytes, ← bytes, parseEntry_bytes ih hsized.1.1 hsized.1.2,
        nestingEntries, normalizedEntries]
      by_cases hfirst : max (k.nesting + 1) (v.nesting + 1) ≤ levels
      · rw [if_pos hfirst]
        simp only [List.drop_left, hothers]
        by_cases hrest : nestingEntries entries ≤ levels
        · rw [if_pos hrest, if_pos (by omega)]
          simp only [List.length_append]
        · rw [if_neg hrest, if_neg (by omega)]
      · rw [if_neg hfirst, if_neg (by omega)]

/-- The parser reads the encoding of a value back, or runs out of levels. -/
theorem parseNested_bytes (levels : Nat) : ∀ v : Value, v.Sized → ∀ rest,
    parseNested levels (v.bytes ++ rest)
      = if v.nesting < levels then .ok (v.normalized, v.bytes.length)
        else .error nestingExceedsMaxDepth := by
  induction levels with
  | zero =>
      intro v hsized rest
      rw [if_neg (Nat.not_lt_zero _)]
      rfl
  | succ levels ih =>
      intro v hsized rest
      cases v with
      | nil =>
          rw [if_pos (show nesting nil < levels + 1 from Nat.succ_pos _), bytes, ops,
            PackOp.encodings_single, parseNested, typeAt_encoding .nil trivial (by rintro ⟨⟩)]
          exact parseLeaf_encoding Reader.asNil .nil trivial rfl rfl _ rest
      | bool v =>
          rw [if_pos (show nesting (bool v) < levels + 1 from Nat.succ_pos _), bytes, ops,
            PackOp.encodings_single, parseNested, typeAt_encoding (.bool v) trivial (by rintro ⟨⟩)]
          exact parseLeaf_encoding Reader.asBool (.bool v) trivial rfl rfl _ rest
      | int v =>
          have hhigh : v.toInt < 2 ^ 64 := by
            have := v.toInt_lt
            omega
          have hpos : 0 ≤ v ↔ 0 ≤ v.toInt := Int64.le_iff_toInt_le
          rw [if_pos (show nesting (int v) < levels + 1 from Nat.succ_pos _), bytes, ops,
            PackOp.encodings_single, parseNested_int levels (.int v) rfl rfl v.le_toInt hhigh,
            normalized, Int64.ofInt_toInt]
          -- A non-negative integer comes back as a `uint64_t`.
          by_cases hv : 0 ≤ v
          · have hbits : UInt64.ofNat v.toInt.toNat = v.toUInt64 := by
              rw [← UInt64.toNat_inj, Int64.toNat_toUInt64_of_le hv, UInt64.toNat_ofNat']
              exact Nat.mod_eq_of_lt (by omega)
            rw [if_pos (hpos.mp hv), if_pos hv, hbits]
          · rw [if_neg (mt hpos.mpr hv), if_neg hv]
      | uint v =>
          have hhigh := v.toNat_lt
          rw [if_pos (show nesting (uint v) < levels + 1 from Nat.succ_pos _), bytes, ops,
            PackOp.encodings_single, parseNested_int levels (.uint v) rfl rfl (by omega) (by omega),
            if_pos (by omega), Int.toNat_natCast, UInt64.ofNat_toNat]
          rfl
      | double bits =>
          rw [if_pos (show nesting (double bits) < levels + 1 from Nat.succ_pos _), bytes, ops,
            PackOp.encodings_single, parseNested, typeAt_encoding (.double bits) bits.toNat_lt
              (by rintro ⟨⟩)]
          exact parseLeaf_encoding Reader.asDouble (.double bits) bits.toNat_lt rfl
            (by rw [PackOp.token, Reader.asDouble, UInt64.ofNat_toNat]) _ rest
      | str s =>
          rw [if_pos (show nesting (str s) < levels + 1 from Nat.succ_pos _), bytes, ops,
            PackOp.encodings_single, parseNested, typeAt_encoding (.str s) hsized (by rintro ⟨⟩)]
          exact parseBlob_encoding (Reader.asStr .host64) (.str s) hsized
            (asLength_host64 hsized) _ rest
      | bin b =>
          rw [if_pos (show nesting (bin b) < levels + 1 from Nat.succ_pos _), bytes, ops,
            PackOp.encodings_single, parseNested, typeAt_encoding (.bin b) hsized (by rintro ⟨⟩)]
          exact parseBlob_encoding (Reader.asBin .host64) (.bin b) hsized
            (asLength_host64 hsized) _ rest
      | array elems =>
          -- The elements have one level less, which is where the depth runs out.
          have hparts := parseMany_bytesElems ih elems hsized.2 rest
          rw [bytes, ops, PackOp.encodings_cons, parseNested, List.append_assoc,
            typeAt_encoding (.array elems.length) hsized.1 (by rintro ⟨⟩)]
          refine (parseCounted_spells (f := Reader.asArray .host64)
            (spells_encoding (.array elems.length) hsized.1 rfl) (asLength_host64 hsized.1) _ array
            _).trans ?_
          rw [hparts, nesting, normalized]
          by_cases hdeep : nestingElems elems ≤ levels
          · rw [if_pos hdeep, if_pos (by omega), List.length_append]
          · rw [if_neg hdeep, if_neg (by omega)]
      | map entries =>
          have hparts := parseMany_bytesEntries ih entries hsized.2 rest
          rw [bytes, ops, PackOp.encodings_cons, parseNested, List.append_assoc,
            typeAt_encoding (.map entries.length) hsized.1 (by rintro ⟨⟩)]
          refine (parseCounted_spells (f := Reader.asMap .host64)
            (spells_encoding (.map entries.length) hsized.1 rfl) (asLength_host64 hsized.1) _ map
            _).trans ?_
          rw [hparts, nesting, normalized]
          by_cases hdeep : nestingEntries entries ≤ levels
          · rw [if_pos hdeep, if_pos (by omega), List.length_append]
          · rw [if_neg hdeep, if_neg (by omega)]

/-- The elements of an array, behind any header that counts them. -/
theorem parseNested_array {levels : Nat} {elems : List Value} {head : List UInt8}
    (hhead : Spells (.array elems.length) head) (hlength : elems.length < 2 ^ 32)
    (hsized : SizedElems elems) (hdeep : nestingElems elems ≤ levels) (rest : List UInt8) :
    parseNested (levels + 1) (head ++ (PackOp.encodings (opsElems elems) ++ rest))
      = .ok (array (normalizedElems elems),
          head.length + (PackOp.encodings (opsElems elems)).length) := by
  have htype : typeAt (head ++ (PackOp.encodings (opsElems elems) ++ rest)) = .array :=
    typeAt_of_token (token_append hhead _) (by rintro ⟨⟩)
  have hparts := parseMany_bytesElems (parseNested_bytes levels) elems hsized rest
  rw [if_pos hdeep] at hparts
  rw [parseNested, htype]
  refine (parseCounted_spells (f := Reader.asArray .host64) hhead
    (asLength_host64 hlength) _ array _).trans ?_
  rw [hparts]

/-- A truncated encoding of a value that nests too deeply is refused as well. -/
theorem parseNested_prefix_of_deep (levels : Nat) {v : Value} (hsized : v.Sized)
    (hdeep : levels ≤ v.nesting) {front back : List UInt8} (hbytes : front ++ back = v.bytes) :
    ∃ e, parseNested levels front = .error e := by
  cases hparse : parseNested levels front with
  | error e => exact ⟨e, rfl⟩
  | ok p =>
      -- A success would carry over to the whole encoding.
      obtain ⟨-, hmore⟩ := parseNested_local levels front p.1 p.2 hparse
      have hwhole := parseNested_bytes levels v hsized []
      rw [List.append_nil, ← hbytes, hmore back, if_neg (by omega)] at hwhole
      cases hwhole

/-- What `encode` adds to a writer that was used before: a front of the encoding, and all of
it when nothing overflows. -/
theorem encode_data (v : Value) (buf : List UInt8) (cap : Nat) (hcap : cap ≤ buf.length)
    (before : List PackOp) :
    let w := (Writer.new buf cap).packAll before
    ∃ front back, front ++ back = v.bytes ∧ (v.encode w).data.drop w.size = front ∧
      ((v.encode w).overflow = false → back = [] ∧
        (v.encode w).data.length = w.size + front.length) := by
  intro w
  have hbefore := Writer.packAll_holds buf cap hcap before
  -- What was written before is a front of what is there now, as long as the buffer had room.
  have hafter := Writer.packAll_holds buf cap hcap (before ++ v.ops)
  rw [packAll_append, ← encode_eq, PackOp.encodings_append] at hafter
  have hsize : w.size = min (PackOp.encodings before).length cap := hbefore.size_eq
  have hdata : (v.encode w).data = (PackOp.encodings before ++ v.bytes).take cap := hafter.data_eq
  -- The value is cut where the capacity ends, and is whole if nothing overflowed.
  by_cases hroom : (PackOp.encodings before).length ≤ cap
  · have hfront : (v.encode w).data.drop w.size
        = v.bytes.take (cap - (PackOp.encodings before).length) := by
      rw [hdata, hsize, Nat.min_eq_left hroom, List.drop_take, List.drop_left]
    refine ⟨_, _, List.take_append_drop _ _, hfront, fun hfit => ?_⟩
    have hlen := (hafter.data_of_fits hfit).2
    rw [List.length_append] at hlen
    refine ⟨List.drop_eq_nil_of_le (by rw [bytes]; omega), ?_⟩
    rw [hdata, hsize, List.length_take, List.length_take, List.length_append]
    omega
  · refine ⟨[], v.bytes, rfl, ?_, fun hfit => ?_⟩
    · rw [hdata]
      refine List.drop_eq_nil_of_le ?_
      rw [hsize, List.length_take]
      omega
    · have hlen := (hafter.data_of_fits hfit).2
      rw [List.length_append] at hlen
      omega

/-- **The round trip of values.** A value is encoded behind whatever a writer holds already.
If nothing overflows and no object is nested too deeply, decoding gives the value back,
normalized, and stops at the end of the written bytes. If some object is nested too deeply,
decoding throws. -/
theorem value_round_trip (v : Value) (hsized : v.Sized) (buf : List UInt8) (cap : Nat)
    (hcap : cap ≤ buf.length) (before : List PackOp) :
    let w := (Writer.new buf cap).packAll before
    let written := (v.encode w).data
    (v.nesting ≤ kMaxDepth → (v.encode w).overflow = false →
      decode ⟨written, w.size, false⟩ = .ok (v.normalized, ⟨written, written.length, false⟩)) ∧
    (kMaxDepth < v.nesting → ∃ e, decode ⟨written, w.size, false⟩ = .error e) := by
  intro w written
  -- The bytes are a front of those of the value, and all of them if the writer did not overflow.
  obtain ⟨front, back, hsplit, hfront, hfits⟩ := encode_data v buf cap hcap before
  have hdecode : decode ⟨written, w.size, false⟩
      = atCursor ⟨written, w.size, false⟩ (parseNested (kMaxDepth + 1) front) := by
    rw [decode_eq rfl]
    exact congrArg (fun bs => atCursor _ (parseNested _ bs)) hfront
  constructor
  · -- A value that is not too deep, written whole, is read back and normalized.
    intro hnesting hfit
    obtain ⟨rfl, hlen⟩ := hfits hfit
    have hparse := parseNested_bytes (kMaxDepth + 1) v hsized []
    rw [List.append_nil, if_pos (by omega), ← hsplit, List.append_nil] at hparse
    rw [hdecode, hparse]
    simp only [atCursor, Except.map, advance]
    rw [← hlen]
  · -- A value that is too deep throws, and so does any front of its bytes.
    intro hdeep
    obtain ⟨e, he⟩ := parseNested_prefix_of_deep (kMaxDepth + 1) hsized hdeep hsplit
    exact ⟨e, by rw [hdecode, he]; rfl⟩

/-- The round trip at a nested value, behind one byte. -/
theorem value_round_trip_nested :
    decode ⟨[0xc0, 0x92, 0x05, 0x81, 0xa1, 0x61, 0xc3], 1, false⟩
      = .ok (array [uint 5, map [(str [0x61], bool true)]],
          ⟨[0xc0, 0x92, 0x05, 0x81, 0xa1, 0x61, 0xc3], 7, false⟩) :=
  (value_round_trip (array [int 5, map [(str [0x61], bool true)]])
    ⟨by decide, trivial,
      ⟨by decide, ⟨show (1 : Nat) < 2 ^ 32 by decide, trivial⟩, trivial⟩, trivial⟩
    (List.replicate 8 0) 8 (by decide) [.nil]).1 (by decide) (by decide)

end Value

end SerialRpc

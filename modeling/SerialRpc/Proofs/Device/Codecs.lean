import SerialRpc.Device.Typed
import SerialRpc.Proofs.Host.Value

/-!
# `SerialRpc.Proofs.Device.Codecs`: argument decoders invert result packers

* `Inverts`: a decoder reads back what some `pack` calls wrote. There is one lemma for each
  shape of a type, from the parts to the whole.
* `inverts_valuePack`: every type without a `const char*` in it, by induction on the type.
* `codec_round_trip`: the same for the bytes in a `Writer` that did not overflow.
-/

set_option autoImplicit false

namespace SerialRpc

open MsgPack Reader

variable {w : SizeT} {α β : Type}

/-! ### Lengths -/

namespace ArgType

/-- Every string, vector, array and tuple in a value is shorter than `limit`. -/
def LengthsBelow (limit : Nat) : (t : ArgType) → t.Val → Prop
  | string, s => s.length < limit
  | vector element, values => values.length < limit ∧ ∀ v ∈ values, element.LengthsBelow limit v
  | array element n, values => n < limit ∧ ∀ i, element.LengthsBelow limit (values i)
  | pair first second, value =>
      first.LengthsBelow limit value.1 ∧ second.LengthsBelow limit value.2
  | tuple n element, values => n < limit ∧ ∀ i, (element i).LengthsBelow limit (values i)
  | bool, _ | int _, _ | float, _ | double, _ | cstr, _ => True

end ArgType

/-- Every value is written. -/
theorem valuePack_ne_nil (t : ArgType) (owning : t.Owning) (value : t.Val) :
    valuePack t owning value ≠ [] := by
  cases t with
  | cstr => exact owning.elim
  | _ => simp [valuePack]

/-- Parts that all write something write as many bytes as they are. -/
theorem length_le_encodings_flatMap {ι : Type} (parts : List ι) {ops : ι → List PackOp}
    (hops : ∀ i, ops i ≠ []) : parts.length ≤ (PackOp.encodings (parts.flatMap ops)).length := by
  induction parts with
  | nil => exact Nat.zero_le _
  | cons i parts ih =>
      have hfirst := PackOp.length_le_encodings (ops i)
      have hpos := List.length_pos_iff.mpr (hops i)
      rw [List.flatMap_cons, PackOp.encodings_append, List.length_append, List.length_cons]
      omega

/-- A part is no longer than all parts together. -/
theorem encodings_flatMap_le {ι : Type} {parts : List ι} (ops : ι → List PackOp) {i : ι}
    (hi : i ∈ parts) :
    (PackOp.encodings (ops i)).length ≤ (PackOp.encodings (parts.flatMap ops)).length := by
  obtain ⟨before, after, rfl⟩ := List.append_of_mem hi
  rw [List.flatMap_append, List.flatMap_cons, PackOp.encodings_append, PackOp.encodings_append]
  simp only [List.length_append]
  omega

/-- What stands behind an array header is shorter than the whole. -/
theorem encodings_array_cons (n : Nat) (ops : List PackOp) :
    (PackOp.encodings ops).length < (PackOp.encodings (.array n :: ops)).length := by
  have hheader := (PackOp.array n).encoding_pos
  rw [PackOp.encodings_cons, List.length_append]
  omega

/-- No length in a value is larger than the number of bytes it is packed into. -/
theorem lengthsBelow_of_packed {limit : Nat} (t : ArgType) (owning : t.Owning) (value : t.Val)
    (hfits : (PackOp.encodings (valuePack t owning value)).length < limit) :
    t.LengthsBelow limit value := by
  -- By induction on the type: the bytes of a part are a part of the bytes.
  induction t with
  | string =>
      have hbody : value.length ≤ (PackOp.str value).encoding.length := by
        rw [PackOp.encoding, List.length_append]
        exact Nat.le_add_left _ _
      rw [valuePack, PackOp.encodings_single] at hfits
      exact Nat.lt_of_le_of_lt hbody hfits
  -- The elements of a container are behind its header.
  | vector element ih =>
      have hbehind := Nat.lt_trans (encodings_array_cons _ _) hfits
      refine ⟨Nat.lt_of_le_of_lt ?_ hbehind, ?_⟩
      · exact length_le_encodings_flatMap value fun v => valuePack_ne_nil element owning v
      · intro v hv
        exact ih owning v (Nat.lt_of_le_of_lt (encodings_flatMap_le _ hv) hbehind)
  | array element n ih =>
      have hbehind := Nat.lt_trans (encodings_array_cons _ _) hfits
      refine ⟨Nat.lt_of_le_of_lt ?_ hbehind, ?_⟩
      · have hcount := length_le_encodings_flatMap (List.finRange n)
          fun i => valuePack_ne_nil element owning (value i)
        rwa [List.length_finRange] at hcount
      · intro i
        have hpart := encodings_flatMap_le (fun i => valuePack element owning (value i))
          (List.mem_finRange i)
        exact ih owning (value i) (Nat.lt_of_le_of_lt hpart hbehind)
  | pair first second ihFirst ihSecond =>
      have hbehind := Nat.lt_trans (encodings_array_cons _ _) hfits
      rw [PackOp.encodings_append, List.length_append] at hbehind
      exact ⟨ihFirst owning.1 value.1 (by omega), ihSecond owning.2 value.2 (by omega)⟩
  | tuple n element ih =>
      have hbehind := Nat.lt_trans (encodings_array_cons _ _) hfits
      refine ⟨Nat.lt_of_le_of_lt ?_ hbehind, ?_⟩
      · have hcount := length_le_encodings_flatMap (List.finRange n)
          fun i => valuePack_ne_nil (element i) (owning i) (value i)
        rwa [List.length_finRange] at hcount
      · intro i
        have hpart := encodings_flatMap_le (fun i => valuePack (element i) (owning i) (value i))
          (List.mem_finRange i)
        exact ih i (owning i) (value i) (Nat.lt_of_le_of_lt hpart hbehind)
  | _ => trivial

/-! ### Reading back -/

/-- The cursor has moved by `k` bytes, and the scratch buffer is as it was. -/
structure PastOps (args : ThunkArgs w) (k : Nat) (args' : ThunkArgs w) : Prop where
  reader_eq : args'.reader = args.reader.advance k
  scratch_eq : args'.scratch = args.scratch
  used_eq : args'.scratchUsed = args.scratchUsed

/-- One value behind another. -/
theorem PastOps.trans {args args' args'' : ThunkArgs w} {j k : Nat} (h : PastOps args j args')
    (h' : PastOps args' k args'') : PastOps args (j + k) args'' where
  reader_eq := by rw [h'.reader_eq, h.reader_eq, advance_advance]
  scratch_eq := h'.scratch_eq.trans h.scratch_eq
  used_eq := h'.used_eq.trans h.used_eq

/-- The cursor moves, and nothing else. -/
theorem past_withReader (args : ThunkArgs w) (k : Nat) :
    PastOps args k (args.withReader (args.reader.advance k)) := ⟨rfl, rfl, rfl⟩

/-- A decoder gives `x` on the bytes of some `pack` calls, takes them and nothing else. -/
def Inverts (decode : Decoder w α) (ops : List PackOp) (x : α) : Prop :=
  ∀ (args : ThunkArgs w) (more : List UInt8), args.reader.error = false →
    args.reader.rest = PackOp.encodings ops ++ more →
    ∃ args', decode args = (args', some x) ∧ PastOps args (PackOp.encodings ops).length args'

/-- One decoder after the other. -/
theorem PastOps.next {args args' : ThunkArgs w} {ops ops' : List PackOp} {more : List UInt8}
    (h : PastOps args (PackOp.encodings ops).length args') (herror : args.reader.error = false)
    (hrest : args.reader.rest = PackOp.encodings (ops ++ ops') ++ more) :
    args'.reader.error = false ∧ args'.reader.rest = PackOp.encodings ops' ++ more := by
  rw [h.reader_eq]
  refine ⟨herror, ?_⟩
  rw [rest_advance, hrest, PackOp.encodings_append, List.append_assoc, List.drop_left]

/-- A read of what one `pack` call without a body wrote. -/
theorem read_encoding {read : Reader w → Reader w × α} {f : Token → Option α} {out x : α}
    (hread : ∀ r, read r = store out (r.answerOf (header f))) {op : PackOp}
    (hvalid : op.token.Valid) (hbody : op.body = []) (hf : f op.token = some x) {r : Reader w}
    {more : List UInt8} (hrest : r.rest = PackOp.encodings [op] ++ more) :
    read r = (r.advance (PackOp.encodings [op]).length, x) := by
  rw [PackOp.encodings_single, Writer.encoding_of_body_nil hbody] at *
  rw [hread, store_answerOf, hrest, header_of_spells (spells_shortest hvalid) hf]

/-- A scalar is read as it was packed. -/
theorem inverts_scalar {read : Reader w → Reader w × α} {op : PackOp} {x : α}
    (hread : ∀ (r : Reader w) (more : List UInt8), r.rest = PackOp.encodings [op] ++ more →
      read r = (r.advance (PackOp.encodings [op]).length, x)) :
    Inverts (decodeScalar read) [op] x := by
  intro args more herror hrest
  refine ⟨_, ?_, past_withReader args _⟩
  have hnoError : (args.reader.advance (PackOp.encodings [op]).length).error = false := herror
  simp only [decodeScalar, hread args.reader more hrest, hnoError, Bool.false_eq_true, if_false]

/-- The range of a signed type lies in that of `int64_t`. -/
theorem ArgInt.read_pack_signed (type : ArgInt) (hsigned : type.signed = true)
    (value : BitVec type.bits) {r : Reader w} {more : List UInt8}
    (hrest : r.rest = PackOp.encodings [type.pack value] ++ more) :
    type.read r = (r.advance (PackOp.encodings [type.pack value]).length, value) := by
  have hhalf := Nat.two_pow_pos (type.bits - 1)
  have hbits : 2 ^ (type.bits - 1) ≤ 2 ^ 63 :=
    Nat.pow_le_pow_right (by decide) (Nat.sub_le_sub_right type.bits_le 1)
  have hlow : -((2 ^ (type.bits - 1) : Nat) : Int) ≤ value.toInt := by
    exact_mod_cast BitVec.le_toInt value
  have hhigh : value.toInt < (2 ^ (type.bits - 1) : Nat) := by
    exact_mod_cast BitVec.toInt_lt
  have hexact : (Int64.ofInt value.toInt).toInt = value.toInt :=
    Int64.toInt_ofInt_of_le (by omega) (by omega)
  have htoken : (PackOp.int (.ofInt value.toInt)).token = .int value.toInt := by
    rw [PackOp.token, hexact]
  have hvalid : (PackOp.int (.ofInt value.toInt)).token.Valid := by
    rw [htoken]
    exact ⟨by omega, by omega⟩
  -- `read` of the type takes exactly its own range.
  have hf : asInt (-(maxSigned type.bits : Int) - 1) (maxSigned type.bits)
      (PackOp.int (.ofInt value.toInt)).token = some value.toInt := by
    have hmax : maxSigned type.bits + 1 = 2 ^ (type.bits - 1) := Nat.succ_pred_eq_of_pos hhalf
    rw [htoken, asInt, if_pos]
    omega
  unfold ArgInt.read ArgInt.pack at *
  rw [if_pos hsigned] at hrest ⊢
  rw [if_pos hsigned, read_encoding (fun r => readSigned_eq r _ 0) hvalid rfl hf hrest]
  simp only [BitVec.ofInt_toInt]

/-- The range of an unsigned type lies in that of `uint64_t`. -/
theorem ArgInt.read_pack_unsigned (type : ArgInt) (hunsigned : ¬ type.signed = true)
    (value : BitVec type.bits) {r : Reader w} {more : List UInt8}
    (hrest : r.rest = PackOp.encodings [type.pack value] ++ more) :
    type.read r = (r.advance (PackOp.encodings [type.pack value]).length, value) := by
  -- The value fits 64 bits, so the cast does not change it.
  have hbits : 2 ^ type.bits ≤ 2 ^ 64 := Nat.pow_le_pow_right (by decide) type.bits_le
  have hlt := value.isLt
  have hexact : (UInt64.ofNat value.toNat).toNat = value.toNat := by
    rw [UInt64.toNat_ofNat', Nat.mod_eq_of_lt]
    omega
  have htoken : (PackOp.uint (.ofNat value.toNat)).token = .int value.toNat := by
    rw [PackOp.token, hexact]
  have hvalid : (PackOp.uint (.ofNat value.toNat)).token.Valid := by
    rw [htoken]
    exact ⟨by omega, by omega⟩
  -- The reader accepts what it holds, being in range.
  have hf : asNat (maxUnsigned type.bits) (PackOp.uint (.ofNat value.toNat)).token
      = some value.toNat := by
    rw [htoken, asNat, if_pos]
    · rfl
    · unfold maxUnsigned
      omega
  unfold ArgInt.read ArgInt.pack at *
  rw [if_neg hunsigned] at hrest ⊢
  rw [if_neg hunsigned, read_encoding (fun r => readUnsigned_eq r _ 0) hvalid rfl hf hrest]
  simp only [BitVec.ofNat_toNat, BitVec.setWidth_eq]

/-- An integer type reads back what it packed. -/
theorem ArgInt.read_pack (type : ArgInt) (value : BitVec type.bits) {r : Reader w}
    {more : List UInt8} (hrest : r.rest = PackOp.encodings [type.pack value] ++ more) :
    type.read r = (r.advance (PackOp.encodings [type.pack value]).length, value) := by
  by_cases hsigned : type.signed = true
  · exact type.read_pack_signed hsigned value hrest
  · exact type.read_pack_unsigned hsigned value hrest

/-- So is a string. -/
theorem inverts_string {s : List UInt8} (hlimit : s.length < 2 ^ 32) (hmax : s.length ≤ w.max) :
    Inverts (w := w) decodeString [.str s] s := by
  intro args more herror hrest
  have hvalid : (PackOp.str s).token.Valid := hlimit
  have hf : asStr w (PackOp.str s).token = some s.length := asStr_eq_some.mpr ⟨rfl, hmax⟩
  have hencoding : PackOp.encodings [.str s] = shortest (PackOp.str s).token ++ s :=
    PackOp.encodings_single _
  rw [hencoding] at hrest ⊢
  have hread := readStr_answer args.reader ⟨0, 0⟩
  rw [hrest, blob_of_spells (spells_shortest hvalid) hf] at hread
  refine ⟨_, ?_, past_withReader args _⟩
  have hbytes := bytes_spanAt args.reader (shortest (PackOp.str s).token ++ s).length
    ((shortest (PackOp.str s).token).length, s.length)
  rw [hrest, List.append_assoc, List.drop_left, List.take_left] at hbytes
  have hnoError : (args.reader.advance (shortest (PackOp.str s).token ++ s).length).error = false :=
    herror
  simp only [decodeString, hread, hnoError, Bool.false_eq_true, if_false, hbytes]

/-- An array header is read back. -/
theorem read_array_encoding {n : Nat} (hlimit : n < 2 ^ 32) (hmax : n ≤ w.max)
    {ops : List PackOp} {more : List UInt8} {r : Reader w}
    (hrest : r.rest = PackOp.encodings (.array n :: ops) ++ more) :
    r.readArray 0 = (r.advance (PackOp.encodings [.array n]).length, n) := by
  rw [← List.singleton_append, PackOp.encodings_append, List.append_assoc] at hrest
  have hvalid : (PackOp.array n).token.Valid := hlimit
  have hf : asArray w (PackOp.array n).token = some n := asArray_eq_some.mpr ⟨rfl, hmax⟩
  exact read_encoding (fun r => readArray_eq r 0) hvalid rfl hf hrest

/-- So are elements in a row. -/
theorem inverts_elements {element : Decoder w α} {ops : α → List PackOp} (values : List α)
    (helements : ∀ v ∈ values, Inverts element (ops v) v) :
    Inverts (decodeElements element values.length) (values.flatMap ops) values := by
  induction values with
  | nil =>
      intro args more _ _
      exact ⟨args, rfl, rfl, rfl, rfl⟩
  | cons v values ih =>
      intro args more herror hrest
      rw [List.flatMap_cons] at hrest ⊢
      have hfirst : args.reader.rest
          = PackOp.encodings (ops v) ++ (PackOp.encodings (values.flatMap ops) ++ more) := by
        rw [hrest, PackOp.encodings_append, List.append_assoc]
      obtain ⟨args', hdecode, hpast⟩ := helements v (List.mem_cons_self ..) args _ herror hfirst
      obtain ⟨herror', hrest'⟩ := hpast.next herror hrest
      obtain ⟨args'', hdecode', hpast'⟩ :=
        ih (fun u hu => helements u (List.mem_cons_of_mem v hu)) args' more herror' hrest'
      refine ⟨args'', ?_, ?_⟩
      · simp only [List.length_cons, decodeElements, hdecode, hdecode']
      · rw [PackOp.encodings_append, List.length_append]
        exact hpast.trans hpast'

/-- So is a vector, by its count and its elements. -/
theorem inverts_vector {element : Decoder w α} {ops : α → List PackOp} {values : List α}
    (hlimit : values.length < 2 ^ 32) (hmax : values.length ≤ w.max)
    (helements : ∀ v ∈ values, Inverts element (ops v) v) :
    Inverts (decodeVector element) (.array values.length :: values.flatMap ops) values := by
  intro args more herror hrest
  have hread := read_array_encoding hlimit hmax hrest
  have hheader := past_withReader args (PackOp.encodings [.array values.length]).length
  obtain ⟨herror', hrest'⟩ := hheader.next herror hrest
  -- `reserve` is recorded, and changes nothing the elements are decoded from.
  obtain ⟨args', hdecode, hpast⟩ := inverts_elements values helements
    ((args.withReader (args.reader.advance _)).reserve values.length) more herror' hrest'
  refine ⟨args', ?_, ?_⟩
  · simp only [decodeVector, hread, hdecode]
    rw [if_neg (by rw [show (args.reader.advance _).error = false from herror]; decide)]
  · rw [← List.singleton_append, PackOp.encodings_append, List.length_append]
    exact hheader.trans ⟨hpast.reader_eq, hpast.scratch_eq, hpast.used_eq⟩

/-- The parts of an array or a tuple, from the first one on. -/
theorem inverts_parts {n : Nat} {γ : Fin n → Type} {part : (i : Fin n) → Decoder w (γ i)}
    {ops : Fin n → List PackOp} {values : (i : Fin n) → γ i}
    (hparts : ∀ i, Inverts (part i) (ops i) (values i)) :
    Inverts (decodeParts n part) ((List.finRange n).flatMap ops) values := by
  -- By induction on the number of parts.
  induction n with
  | zero =>
      intro args more _ _
      refine ⟨args, ?_, rfl, rfl, rfl⟩
      have hvalues : values = fun i => i.elim0 := funext fun i => i.elim0
      rw [decodeParts, hvalues]
  | succ n ih =>
      intro args more herror hrest
      rw [List.finRange_succ, List.flatMap_cons, List.flatMap_map] at hrest ⊢
      have hfirst : args.reader.rest = PackOp.encodings (ops 0) ++
          (PackOp.encodings ((List.finRange n).flatMap fun i => ops i.succ) ++ more) := by
        rw [hrest, PackOp.encodings_append, List.append_assoc]
      -- The first part is decoded, and the reader stands before the others.
      obtain ⟨args', hdecode, hpast⟩ := hparts 0 args _ herror hfirst
      obtain ⟨herror', hrest'⟩ := hpast.next herror hrest
      obtain ⟨args'', hdecode', hpast'⟩ := ih (fun i => hparts i.succ) args' more herror' hrest'
      refine ⟨args'', ?_, ?_⟩
      · simp only [decodeParts, hdecode, hdecode', Prod.mk.injEq, Option.some.injEq, true_and]
        exact Fin.cons_self_tail values
      · rw [PackOp.encodings_append, List.length_append]
        exact hpast.trans hpast'

/-- So is what stands behind a count that is known. -/
theorem inverts_expectArray {n : Nat} {next : Decoder w α} {ops : List PackOp} {x : α}
    (hlimit : n < 2 ^ 32) (hmax : n ≤ w.max) (hnext : Inverts next ops x) :
    Inverts (expectArray n next) (.array n :: ops) x := by
  intro args more herror hrest
  have hread := read_array_encoding hlimit hmax hrest
  have hheader := past_withReader args (PackOp.encodings [.array n]).length
  obtain ⟨herror', hrest'⟩ := hheader.next herror hrest
  obtain ⟨args', hdecode, hpast⟩ := hnext _ more herror' hrest'
  refine ⟨args', ?_, ?_⟩
  · simp only [expectArray, hread, hdecode]
    rw [if_neg]
    intro hrefused
    rcases hrefused with hflag | hcount
    · rw [show (args.reader.advance _).error = false from herror] at hflag
      cases hflag
    · exact hcount rfl
  · rw [← List.singleton_append, PackOp.encodings_append, List.length_append]
    exact hheader.trans hpast

/-- So are two values, one behind the other. -/
theorem inverts_both {first : Decoder w α} {second : Decoder w β} {ops ops' : List PackOp}
    {x : α × β} (hfirst : Inverts first ops x.1) (hsecond : Inverts second ops' x.2) :
    Inverts (decodeBoth first second) (ops ++ ops') x := by
  intro args more herror hrest
  have hfront : args.reader.rest = PackOp.encodings ops ++ (PackOp.encodings ops' ++ more) := by
    rw [hrest, PackOp.encodings_append, List.append_assoc]
  obtain ⟨args', hdecode, hpast⟩ := hfirst args _ herror hfront
  obtain ⟨herror', hrest'⟩ := hpast.next herror hrest
  obtain ⟨args'', hdecode', hpast'⟩ := hsecond args' more herror' hrest'
  refine ⟨args'', ?_, ?_⟩
  · simp only [decodeBoth, hdecode, hdecode']
  · rw [PackOp.encodings_append, List.length_append]
    exact hpast.trans hpast'

/-- Every decoder inverts its packer, where the lengths are those of the format and of
`size_t`. -/
theorem inverts_valuePack (t : ArgType) (owning : t.Owning) (value : t.Val)
    (hlimit : t.LengthsBelow (2 ^ 32) value) (hmax : t.LengthsBelow (w.max + 1) value) :
    Inverts (w := w) (argDecode t) (valuePack t owning value) value := by
  -- By induction on the type.
  induction t with
  | bool =>
      have hvalid : (PackOp.bool value).token.Valid := trivial
      exact inverts_scalar fun r more hrest =>
        read_encoding (fun r => readBool_eq r false) hvalid rfl rfl hrest
  -- Scalars read back as the reader of their token does.
  | int type => exact inverts_scalar fun r more hrest => type.read_pack value hrest
  | float =>
      have hvalid : (PackOp.float value).token.Valid := value.toNat_lt
      have hf : asFloat (PackOp.float value).token = some value := by
        rw [PackOp.token, asFloat, UInt32.ofNat_toNat]
      exact inverts_scalar fun r more hrest =>
        read_encoding (fun r => readFloat_eq r 0) hvalid rfl hf hrest
  | double =>
      have hvalid : (PackOp.double value).token.Valid := value.toNat_lt
      have hf : asDouble (PackOp.double value).token = some value := by
        rw [PackOp.token, asDouble, UInt64.ofNat_toNat]
      exact inverts_scalar fun r more hrest =>
        read_encoding (fun r => readDouble_eq r 0) hvalid rfl hf hrest
  | cstr => exact owning.elim
  -- Strings and containers carry a length, which the limit bounds.
  | string => exact inverts_string hlimit (Nat.le_of_lt_succ hmax)
  | vector element ih =>
      exact inverts_vector hlimit.1 (Nat.le_of_lt_succ hmax.1) fun v hv =>
        ih owning v (hlimit.2 v hv) (hmax.2 v hv)
  | array element n ih =>
      exact inverts_expectArray hlimit.1 (Nat.le_of_lt_succ hmax.1) (inverts_parts fun i =>
        ih owning (value i) (hlimit.2 i) (hmax.2 i))
  | pair first second ihFirst ihSecond =>
      have htwo : 2 ≤ w.max := by
        have hpow := Nat.pow_le_pow_right (show 0 < 2 by omega) w.sixteen_le
        unfold SizeT.max
        omega
      exact inverts_expectArray (by decide) htwo (inverts_both
        (ihFirst owning.1 value.1 hlimit.1 hmax.1) (ihSecond owning.2 value.2 hlimit.2 hmax.2))
  | tuple n element ih =>
      exact inverts_expectArray hlimit.1 (Nat.le_of_lt_succ hmax.1) (inverts_parts fun i =>
        ih i (owning i) (value i) (hlimit.2 i) (hmax.2 i))

/-! ### Through a writer -/

/-- `ArgDecoder<T>::decode` after `ValuePacker<T>::pack`, on a writer after any other calls,
and with any bytes behind. A capacity is a `size_t`. -/
theorem codec_round_trip (t : ArgType) (owning : t.Owning) (value : t.Val)
    (hlimit : t.LengthsBelow (2 ^ 32) value) (buf : List UInt8) (cap : Nat)
    (hbuf : cap ≤ buf.length) (hcap : cap ≤ w.max) (calls : List WriterCall)
    (args : ThunkArgs w) (more : List UInt8) (herror : args.reader.error = false) :
    let out := (Writer.new buf cap).callAll calls
    let packed := out.packAll (valuePack t owning value)
    let written := packed.data.drop out.size
    packed.overflow = false → args.reader.rest = written ++ more →
      ∃ args', argDecode t args = (args', some value) ∧
        args'.reader = args.reader.advance written.length ∧ args'.reader.rest = more ∧
        args'.scratch = args.scratch ∧ args'.scratchUsed = args.scratchUsed := by
  intro out packed written hfits hrest
  -- The buffer holds what was packed since the last reset, and then the value.
  obtain ⟨memory, hmemory, -, hout⟩ := Writer.callAll_holds buf cap hbuf calls
  have hheld := hout.putBytes (hmemory ▸ hbuf) (PackOp.encodings (valuePack t owning value))
  rw [← Writer.packAll_eq] at hheld
  obtain ⟨hdata, hlength⟩ := hheld.data_of_fits hfits
  rw [List.length_append] at hlength
  have hsize : out.size = (PackOp.encodings (packsSinceReset calls)).length := by
    rw [hout.size_eq, Nat.min_eq_left (by omega)]
  have hwritten : written = PackOp.encodings (valuePack t owning value) := by
    show packed.data.drop out.size = _
    rw [hsize, show packed.data = _ from hdata, List.drop_left]
  -- The value was packed without overflow, so no length in it is cut.
  have hmax := lengthsBelow_of_packed t owning value
    (show (PackOp.encodings (valuePack t owning value)).length < w.max + 1 by omega)
  rw [hwritten] at hrest ⊢
  -- So it is decoded from where the reader stands.
  obtain ⟨args', hdecode, hpast⟩ :=
    inverts_valuePack t owning value hlimit hmax args more herror hrest
  refine ⟨args', hdecode, hpast.reader_eq, ?_, hpast.scratch_eq, hpast.used_eq⟩
  rw [hpast.reader_eq, rest_advance, hrest, List.drop_left]

/-- A `std::vector<std::pair<std::string, int16_t>>` behind a nil, with a bool behind it. -/
theorem codec_round_trip_pairs :
    ∃ args', argDecode (.vector (.pair .string (.int ⟨true, 16, by decide, by decide⟩)))
        (ThunkArgs.new (⟨⟨[0xc0, 0x91, 0x92, 0xa2, 0x68, 0x69, 0xd0, 0x9c, 0xc3], 1, false⟩, 1⟩ :
          Args .host64) [])
        = (args', some [([0x68, 0x69], -100)]) ∧ args'.reader.rest = [0xc3] := by
  obtain ⟨args', hdecode, -, hrest, -⟩ := codec_round_trip
    (.vector (.pair .string (.int ⟨true, 16, by decide, by decide⟩))) ⟨trivial, trivial⟩
    [([0x68, 0x69], -100)] ⟨by decide, by simp [ArgType.LengthsBelow]⟩ (List.replicate 8 0) 8
    (by decide) (by decide) [.pack .nil]
    (ThunkArgs.new (⟨⟨[0xc0, 0x91, 0x92, 0xa2, 0x68, 0x69, 0xd0, 0x9c, 0xc3], 1, false⟩, 1⟩ :
      Args .host64) [])
    [0xc3] rfl (by decide) (by decide)
  exact ⟨args', hdecode, hrest⟩

end SerialRpc

import SerialRpc.Lib.MsgPackWalk
import SerialRpc.Proofs.Msgpack.Reader

/-!
# `SerialRpc.Proofs.Msgpack.Skip`: what `skip` passes over

`skip` does not recurse. It counts the objects it still owes, and a round of its loop passes
the header and the body of one and adds its children to the count. On lists this is a walk
(`walkRound`), and `skip_cases` says that `skip` ends where the walk does.

The sums of a round are sums of `size_t`. Where none of them wraps the walk is the exact one
of `MsgPack.exactRound` (`reaches_walkRound`), which knows the grammar of objects.

* `skip_recognises_object`: on a 64-bit host nothing wraps.
* `skipSound_iff`: on any target `skip` is right exactly when nothing wraps on the exact walk.
  A 16-bit length and its header are added without a guard, and so are the counts, while a
  32-bit length is compared first, as in `read_array` and `read_map`.
-/

set_option autoImplicit false

namespace SerialRpc

open MsgPack StateTransition

/-! ### One round -/

/-- What a round of `skip` finds: the bytes it passes and the objects it adds to the count.
Both are sums of `size_t`, and only a length of 32 bits is compared with its maximum before. -/
def skipAt (w : SizeT) (bs : List UInt8) : Option (Nat × Nat) :=
  (token bs).bind fun h =>
    let size := h.2 + h.1.bodyBytes
    if h.2 = 5 ∧ 2 ^ w.bits ≤ size then none
    else if bs.length < w.wrap size then none
    else some (w.wrap size, w.wrap h.1.children)

namespace SizeT

/-- A `size_t` has at least 16 bits. -/
theorem lt_two_pow (w : SizeT) {n : Nat} (h : n < 2 ^ 16) : n < 2 ^ w.bits :=
  Nat.lt_of_lt_of_le h (Nat.pow_le_pow_right (by decide) w.sixteen_le)

/-- A sum that a `size_t` holds does not wrap. -/
theorem wrap_of_lt {w : SizeT} {n : Nat} (h : n < 2 ^ w.bits) : w.wrap n = n := Nat.mod_eq_of_lt h

end SizeT

namespace Reader

variable {w : SizeT}

/-- A round at the cursor: the bytes it passes and the objects it adds. -/
def passes (r : Reader w) (found : Option (Nat × Nat)) : Option (Reader w × Nat) :=
  found.map fun f => (r.advance f.1, f.2)

/-- `skip` of a header and its bytes moves by the wrapped sum, if the rest is as long. -/
theorem skipBody_eq (r : Reader w) (header n : Nat) :
    r.skipBody header n
      = r.passes (if r.rest.length < w.wrap (header + n) then none
          else some (w.wrap (header + n), 0)) := by
  rw [skipBody, skipFixed, remaining_eq, passes]
  split <;> rfl

/-- The header of an object that says all in its format byte. -/
theorem skipAt_value {b : UInt8} {t : Token} (h : lead b = .value t)
    (hbody : t.bodyBytes < 2 ^ 15) (bs : List UInt8) :
    skipAt w (b :: bs)
      = if (b :: bs).length < 1 + t.bodyBytes then none
        else some (1 + t.bodyBytes, w.wrap t.children) := by
  have hwrap : w.wrap (1 + t.bodyBytes) = 1 + t.bodyBytes :=
    SizeT.wrap_of_lt (w.lt_two_pow (by omega))
  rw [skipAt, token_value h, Option.bind_some]
  simp only [hwrap]
  rw [if_neg (by omega)]

/-- A header with a number, and no more than that. -/
theorem skipAt_sized {b : UInt8} {family : Family} {width : Nat} (h : lead b = .sized family width)
    (hwidth : width ≤ 8) (hbody : ∀ n, (family.token width n).bodyBytes = 0) (bs : List UInt8) :
    skipAt w (b :: bs)
      = (number width bs).map fun n => (1 + width, w.wrap (family.token width n).children) := by
  have hwrap : w.wrap (1 + width) = 1 + width := SizeT.wrap_of_lt (w.lt_two_pow (by omega))
  rw [skipAt, token_sized h]
  cases hnumber : number width bs with
  | none => rfl
  | some n =>
      have hroom := (number_take hnumber).1
      have hpow := w.lt_two_pow (show 1 + width < 2 ^ 16 by omega)
      simp only [Option.map_some, Option.bind_some, hbody, Nat.add_zero, hwrap]
      rw [if_neg (by omega), if_neg (by rw [List.length_cons]; omega)]

/-- A header with a length, and the body of this length. -/
theorem skipAt_blob {b : UInt8} {family : Family} {width extra : Nat}
    (h : lead b = .sized family width)
    (hbody : ∀ n, (family.token width n).bodyBytes = extra + n)
    (hchildren : ∀ n, (family.token width n).children = 0) (bs : List UInt8) :
    skipAt w (b :: bs)
      = (number width bs).bind fun n =>
          if 1 + width = 5 ∧ 2 ^ w.bits ≤ 1 + width + extra + n then none
          else if (b :: bs).length < w.wrap (1 + width + extra + n) then none
          else some (w.wrap (1 + width + extra + n), 0) := by
  rw [skipAt, token_sized h]
  cases number width bs with
  | none => rfl
  | some n =>
      have hzero : w.wrap 0 = 0 := Nat.zero_mod _
      simp only [Option.map_some, Option.bind_some, hbody, hchildren, hzero, Nat.add_assoc]

section Numbers

variable {r : Reader w} {b : UInt8} {bs : List UInt8}

/-- The bytes behind the lead byte. -/
theorem byteAt_succ (hrest : r.rest = b :: bs) (i : Nat) :
    r.byteAt (r.pos + 1 + i) = bs.getD i 0 := by
  rw [Nat.add_assoc, byteAt_add, hrest, Nat.add_comm 1 i, List.getD_cons_succ]

/-- The length behind a format byte, in one byte. -/
theorem number_one (hrest : r.rest = b :: bs) :
    number 1 bs = if r.remaining < 2 then none else some (r.byteAt (r.pos + 1)).toNat := by
  rw [remaining_eq, hrest, List.length_cons]
  cases bs with
  | nil => rfl
  | cons c cs =>
      have hbyte := byteAt_succ hrest 0
      rw [Nat.add_zero, List.getD_cons_zero] at hbyte
      rw [if_neg (by rw [List.length_cons]; omega), hbyte]
      simp [number, BigEndian.ofBytes]

/-- In two bytes. -/
theorem number_two (hrest : r.rest = b :: bs) :
    number 2 bs = if r.remaining < 3 then none else some (r.readBeU16At (r.pos + 1)).toNat := by
  have h₀ := byteAt_succ hrest 0
  have h₁ := byteAt_succ hrest 1
  rw [Nat.add_zero] at h₀
  rw [remaining_eq, hrest, List.length_cons, number, readBeU16At, h₀, h₁]
  by_cases hroom : 2 ≤ bs.length
  · obtain ⟨c₀, c₁, hcs⟩ := List.length_eq_two.mp (List.length_take_of_le hroom)
    have hget (i : Nat) (hi : i < 2) : bs.getD i 0 = (bs.take 2).getD i 0 := by
      rw [List.getD_eq_getElem?_getD, List.getD_eq_getElem?_getD, List.getElem?_take_of_lt hi]
    rw [if_pos hroom, if_neg (by omega), hget 0 (by decide), hget 1 (by decide), hcs]
    simp only [List.getD_cons_zero, List.getD_cons_succ]
    rw [BigEndian.toNat_word16]
  · rw [if_neg hroom, if_pos (by omega)]

/-- In four bytes. -/
theorem number_four (hrest : r.rest = b :: bs) :
    number 4 bs = if r.remaining < 5 then none else some (r.readBeU32At (r.pos + 1)).toNat := by
  have h₀ := byteAt_succ hrest 0
  have h₁ := byteAt_succ hrest 1
  have h₂ := byteAt_succ hrest 2
  have h₃ := byteAt_succ hrest 3
  rw [Nat.add_zero] at h₀
  rw [remaining_eq, hrest, List.length_cons, number, readBeU32At, h₀, h₁, h₂, h₃]
  by_cases hroom : 4 ≤ bs.length
  · obtain ⟨c₀, c₁, c₂, c₃, hcs⟩ := List.length_eq_four.mp (List.length_take_of_le hroom)
    have hget (i : Nat) (hi : i < 4) : bs.getD i 0 = (bs.take 4).getD i 0 := by
      rw [List.getD_eq_getElem?_getD, List.getD_eq_getElem?_getD, List.getElem?_take_of_lt hi]
    rw [if_pos hroom, if_neg (by omega), hget 0 (by decide), hget 1 (by decide),
      hget 2 (by decide), hget 3 (by decide), hcs]
    simp only [List.getD_cons_zero, List.getD_cons_succ]
    rw [BigEndian.toNat_word32]
  · rw [if_neg hroom, if_pos (by omega)]

end Numbers

section Rungs

/-! Each rung of the `switch` finds what the format table says of its byte. -/

variable {r : Reader w} {b : UInt8} {bs : List UInt8}

/-- A format byte that says all. -/
theorem rung_value {t : Token} (hrest : r.rest = b :: bs) (hlead : lead b = .value t)
    (hbody : t.bodyBytes = 0) {n : Nat} (hchildren : w.wrap t.children = n) :
    some (r.advance 1, n) = r.passes (skipAt w r.rest) := by
  rw [hrest, skipAt_value hlead (by omega), hbody, if_neg (by simp), hchildren]
  rfl

/-- A format byte that fixes the length of the body. -/
theorem rung_body {t : Token} (hrest : r.rest = b :: bs) (hlead : lead b = .value t)
    (hbody : t.bodyBytes < 2 ^ 15) (hchildren : t.children = 0) {header n : Nat}
    (hsum : header + n = 1 + t.bodyBytes) :
    r.skipBody header n = r.passes (skipAt w r.rest) := by
  have hwrap : w.wrap (1 + t.bodyBytes) = 1 + t.bodyBytes :=
    SizeT.wrap_of_lt (w.lt_two_pow (by omega))
  have hzero : w.wrap 0 = 0 := Nat.zero_mod _
  rw [skipBody_eq, hsum, hwrap, hrest, skipAt_value hlead hbody, hchildren, hzero]

/-- A number and nothing behind it. -/
theorem rung_number {family : Family} {width : Nat} (hrest : r.rest = b :: bs)
    (hlead : lead b = .sized family width) (hwidth : width ≤ 8)
    (hbody : ∀ n, (family.token width n).bodyBytes = 0)
    (hchildren : ∀ n, (family.token width n).children = 0) :
    r.skipBody (1 + width) 0 = r.passes (skipAt w r.rest) := by
  have hwrap : w.wrap (1 + width) = 1 + width := SizeT.wrap_of_lt (w.lt_two_pow (by omega))
  have hzero : w.wrap 0 = 0 := Nat.zero_mod _
  rw [skipBody_eq, hrest, skipAt_sized hlead hwidth hbody, Nat.add_zero, hwrap, number,
    List.length_cons]
  simp only [hchildren, hzero]
  by_cases hroom : width ≤ bs.length
  · rw [if_neg (by omega), if_pos hroom]
    rfl
  · rw [if_pos (by omega), if_neg hroom]
    rfl

/-- A count of children, which `n` is when its bytes are there. -/
theorem rung_count {family : Family} {width n children : Nat} (hrest : r.rest = b :: bs)
    (hlead : lead b = .sized family width) (hwidth : width ≤ 8)
    (hbody : ∀ n, (family.token width n).bodyBytes = 0)
    (hnumber : number width bs = if r.remaining < 1 + width then none else some n)
    (hchildren : w.wrap (family.token width n).children = children) :
    (if r.remaining < 1 + width then none else some (r.advance (1 + width), children))
      = r.passes (skipAt w r.rest) := by
  rw [hrest, skipAt_sized hlead hwidth hbody, hnumber]
  by_cases hroom : r.remaining < 1 + width
  · rw [if_pos hroom, if_pos hroom]
    rfl
  · rw [if_neg hroom, if_neg hroom, Option.map_some, hchildren]
    rfl

/-- A length of one or two bytes, which `n` is when its bytes are there, and the body. The
sum of header and body is not compared with the maximum of `size_t`. -/
theorem rung_blob (extra : Nat) {family : Family} {width n : Nat} (hrest : r.rest = b :: bs)
    (hlead : lead b = .sized family width) (hwidth : width ≠ 4)
    (hbody : ∀ n, (family.token width n).bodyBytes = extra + n)
    (hchildren : ∀ n, (family.token width n).children = 0)
    (hnumber : number width bs = if r.remaining < 1 + width then none else some n) :
    (if r.remaining < 1 + width then none else r.skipBody (1 + width + extra) n)
      = r.passes (skipAt w r.rest) := by
  rw [skipBody_eq, hrest, skipAt_blob hlead hbody hchildren, hnumber]
  by_cases hroom : r.remaining < 1 + width
  · rw [if_pos hroom, if_pos hroom]
    rfl
  · have hfree : ¬ (1 + width = 5 ∧ 2 ^ w.bits ≤ 1 + width + extra + n) := by omega
    rw [if_neg hroom, if_neg hroom, Option.bind_some, if_neg hfree]

/-- A length of four bytes and the body, guarded. -/
theorem rung_blob32 {family : Family} {extra : Nat} (hrest : r.rest = b :: bs)
    (hlead : lead b = .sized family 4) (hextra : extra ≤ 1)
    (hbody : ∀ n, (family.token 4 n).bodyBytes = extra + n)
    (hchildren : ∀ n, (family.token 4 n).children = 0) :
    r.skipBody32 (5 + extra) = r.passes (skipAt w r.rest) := by
  have hpow := w.lt_two_pow (show 6 < 2 ^ 16 by decide)
  simp only [skipBody32, skipBody_eq]
  rw [hrest, skipAt_blob hlead hbody hchildren, number_four hrest]
  by_cases hroom : r.remaining < 5
  · rw [if_pos hroom, if_pos hroom]
    rfl
  · rw [if_neg hroom, if_neg hroom, Option.bind_some, SizeT.max]
    generalize (r.readBeU32At (r.pos + 1)).toNat = n
    -- The guard of the source subtracts where the sum could wrap.
    by_cases hguard : 2 ^ w.bits ≤ 5 + extra + n
    · rw [if_pos (by omega), if_pos ⟨rfl, hguard⟩]
      rfl
    · have hfree : ¬ (1 + 4 = 5 ∧ 2 ^ w.bits ≤ 1 + 4 + extra + n) := fun h => hguard h.2
      rw [if_neg (by omega), if_neg hfree]

end Rungs

/-- The format bytes of each kind that `skip` looks for. -/
def Skipped : Kind → UInt8 → Prop
  | .ext, b =>
      b = kFixext1 ∨ b = kFixext2 ∨ b = kFixext4 ∨ b = kFixext8 ∨ b = kFixext16 ∨ b = kExt8 ∨
        b = kExt16 ∨ b = kExt32
  | kind, b => Formats kind b

/-- An ext is passed by with its type byte. -/
theorem skipped_ext : ∀ b : UInt8, (lead b).kind = some .ext → Skipped .ext b :=
  forall_byte (by unfold Skipped; decide +kernel)

/-- Every lead byte is passed by as its kind says. -/
theorem skipped_of_kind (b : UInt8) (k : Kind) (h : (lead b).kind = some k) : Skipped k b := by
  cases k with
  | ext => exact skipped_ext b h
  | _ => exact formats_of_kind b _ h

/-- The largest length in a format byte. -/
theorem fixstr_le : ∀ b : UInt8, (b &&& 0x1f).toNat ≤ 31 := forall_byte (by decide +kernel)

/-- Integers and floats have neither a body nor children. -/
theorem token_number {family : Family} {width : Nat}
    (h : family = .uint ∨ family = .int ∨ family = .float) (n : Nat) :
    (family.token width n).bodyBytes = 0 ∧ (family.token width n).children = 0 := by
  obtain rfl | rfl | rfl := h
  · exact ⟨rfl, rfl⟩
  · exact ⟨rfl, rfl⟩
  · simp only [Family.token]
    split <;> exact ⟨rfl, rfl⟩

/-- The ladder of `skip` follows the format table. -/
theorem skipOne_eq (r : Reader w) : r.skipOne = r.passes (skipAt w r.rest) := by
  have hzero : w.wrap 0 = 0 := Nat.zero_mod _
  cases hrest : r.rest with
  | nil => rw [skipOne, remaining_eq, hrest, if_pos List.length_nil, skipAt, token]; rfl
  | cons b bs =>
      have hremaining : r.remaining ≠ 0 := by
        rw [remaining_eq, hrest]
        simp
      rw [skipOne, if_neg hremaining, ← hrest]
      simp only [byteAt_pos hrest]
      have number (family : Family) (width : Nat) (hlead : lead b = .sized family width)
          (hkind : family = .uint ∨ family = .int ∨ family = .float) (hwidth : width ≤ 8) :
          r.skipBody (1 + width) 0 = r.passes (skipAt w r.rest) := by
        refine rung_number hrest hlead hwidth (fun n => ?_) fun n => ?_
        · exact (token_number hkind n).1
        · exact (token_number hkind n).2
      -- The `switch` of the source, one rung at a time. What is left is reserved.
      by_cases hfix : b ≤ kPositiveFixintMax ∨ kNegativeFixintMin ≤ b
      · rw [if_pos hfix]
        obtain hb | hb := hfix
        · exact rung_value hrest ((lead_fixint b).1 hb).1 rfl hzero
        · exact rung_value hrest ((lead_fixint b).2 hb).1 rfl hzero
      rw [if_neg hfix]
      by_cases hmap : b &&& 0xf0 = kFixmapPrefix
      · rw [if_pos hmap]
        exact rung_value hrest ((lead_fixlength b).2.2 hmap).1 rfl rfl
      rw [if_neg hmap]
      by_cases harray : b &&& 0xf0 = kFixarrayPrefix
      · obtain ⟨hlead, hsmall⟩ := (lead_fixlength b).2.1 harray
        rw [if_pos harray]
        exact rung_value hrest hlead rfl (SizeT.wrap_of_lt (w.lt_two_pow hsmall))
      rw [if_neg harray]
      by_cases hstr : b &&& 0xe0 = kFixstrPrefix
      · rw [if_pos hstr]
        refine rung_body hrest ((lead_fixlength b).1 hstr).1 ?_ rfl rfl
        exact Nat.lt_of_le_of_lt (fixstr_le b) (by decide)
      rw [if_neg hstr]
      by_cases hconst : b = kNil ∨ b = kFalse ∨ b = kTrue
      · rw [if_pos hconst]
        obtain hb | hb | hb := hconst
        · exact rung_value hrest (show lead b = .value .nil by rw [hb]; decide) rfl hzero
        · exact rung_value hrest (show lead b = .value (.bool false) by rw [hb]; decide) rfl hzero
        · exact rung_value hrest (show lead b = .value (.bool true) by rw [hb]; decide) rfl hzero
      rw [if_neg hconst]
      -- Integers and floats: a number and nothing behind it.
      by_cases h8 : b = kUint8 ∨ b = kInt8
      · rw [if_pos h8]
        obtain hb | hb := h8
        · exact number .uint 1 (by rw [hb]; decide) (by decide) (by decide)
        · exact number .int 1 (by rw [hb]; decide) (by decide) (by decide)
      rw [if_neg h8]
      by_cases h16 : b = kUint16 ∨ b = kInt16
      · rw [if_pos h16]
        obtain hb | hb := h16
        · exact number .uint 2 (by rw [hb]; decide) (by decide) (by decide)
        · exact number .int 2 (by rw [hb]; decide) (by decide) (by decide)
      rw [if_neg h16]
      by_cases h32 : b = kUint32 ∨ b = kInt32 ∨ b = kFloat32
      · rw [if_pos h32]
        obtain hb | hb | hb := h32
        · exact number .uint 4 (by rw [hb]; decide) (by decide) (by decide)
        · exact number .int 4 (by rw [hb]; decide) (by decide) (by decide)
        · exact number .float 4 (by rw [hb]; decide) (by decide) (by decide)
      rw [if_neg h32]
      by_cases h64 : b = kUint64 ∨ b = kInt64 ∨ b = kFloat64
      · rw [if_pos h64]
        obtain hb | hb | hb := h64
        · exact number .uint 8 (by rw [hb]; decide) (by decide) (by decide)
        · exact number .int 8 (by rw [hb]; decide) (by decide) (by decide)
        · exact number .float 8 (by rw [hb]; decide) (by decide) (by decide)
      rw [if_neg h64]
      -- Strings and binaries, whose length has one, two or four bytes.
      by_cases hblob8 : b = kStr8 ∨ b = kBin8
      · rw [if_pos hblob8]
        obtain hb | hb := hblob8
        · exact rung_blob 0 hrest (show lead b = .sized .str 1 by rw [hb]; decide)
            (by decide) (fun n => (Nat.zero_add n).symm) (fun n => rfl) (number_one hrest)
        · exact rung_blob 0 hrest (show lead b = .sized .bin 1 by rw [hb]; decide)
            (by decide) (fun n => (Nat.zero_add n).symm) (fun n => rfl) (number_one hrest)
      rw [if_neg hblob8]
      by_cases hblob16 : b = kStr16 ∨ b = kBin16
      · rw [if_pos hblob16]
        obtain hb | hb := hblob16
        · exact rung_blob 0 hrest (show lead b = .sized .str 2 by rw [hb]; decide)
            (by decide) (fun n => (Nat.zero_add n).symm) (fun n => rfl) (number_two hrest)
        · exact rung_blob 0 hrest (show lead b = .sized .bin 2 by rw [hb]; decide)
            (by decide) (fun n => (Nat.zero_add n).symm) (fun n => rfl) (number_two hrest)
      rw [if_neg hblob16]
      by_cases hblob32 : b = kStr32 ∨ b = kBin32
      · rw [if_pos hblob32]
        obtain hb | hb := hblob32
        · exact rung_blob32 hrest (show lead b = .sized .str 4 by rw [hb]; decide)
            (Nat.zero_le 1) (fun n => (Nat.zero_add n).symm) fun n => rfl
        · exact rung_blob32 hrest (show lead b = .sized .bin 4 by rw [hb]; decide)
            (Nat.zero_le 1) (fun n => (Nat.zero_add n).symm) fun n => rfl
      rw [if_neg hblob32]
      -- Arrays and maps: a count of children.
      by_cases harray16 : b = kArray16
      · rw [if_pos harray16]
        refine rung_count hrest (show lead b = .sized .array 2 by rw [harray16]; decide)
          (by decide) (fun n => rfl) (number_two hrest) ?_
        exact SizeT.wrap_of_lt (w.lt_two_pow (UInt16.toNat_lt _))
      rw [if_neg harray16]
      by_cases harray32 : b = kArray32
      · rw [if_pos harray32]
        exact rung_count hrest (show lead b = .sized .array 4 by rw [harray32]; decide)
          (by decide) (fun n => rfl) (number_four hrest) rfl
      rw [if_neg harray32]
      by_cases hmap16 : b = kMap16
      · rw [if_pos hmap16]
        exact rung_count hrest (show lead b = .sized .map 2 by rw [hmap16]; decide)
          (by decide) (fun n => rfl) (number_two hrest) rfl
      rw [if_neg hmap16]
      by_cases hmap32 : b = kMap32
      · rw [if_pos hmap32]
        -- The count is cast to `size_t` before it is doubled.
        exact rung_count hrest (show lead b = .sized .map 4 by rw [hmap32]; decide)
          (by decide) (fun n => rfl) (number_four hrest) (Nat.mul_mod_mod _ _ _).symm
      rw [if_neg hmap32]
      -- Extensions have a byte for their type in front of the body.
      by_cases hext1 : b = kFixext1
      · rw [if_pos hext1]
        exact rung_body hrest (show lead b = .value (.ext 1) by rw [hext1]; decide)
          (by decide) rfl rfl
      rw [if_neg hext1]
      by_cases hext2 : b = kFixext2
      · rw [if_pos hext2]
        exact rung_body hrest (show lead b = .value (.ext 2) by rw [hext2]; decide)
          (by decide) rfl rfl
      rw [if_neg hext2]
      by_cases hext4 : b = kFixext4
      · rw [if_pos hext4]
        exact rung_body hrest (show lead b = .value (.ext 4) by rw [hext4]; decide)
          (by decide) rfl rfl
      rw [if_neg hext4]
      by_cases hext8 : b = kFixext8
      · rw [if_pos hext8]
        exact rung_body hrest (show lead b = .value (.ext 8) by rw [hext8]; decide)
          (by decide) rfl rfl
      rw [if_neg hext8]
      by_cases hext16 : b = kFixext16
      · rw [if_pos hext16]
        exact rung_body hrest (show lead b = .value (.ext 16) by rw [hext16]; decide)
          (by decide) rfl rfl
      rw [if_neg hext16]
      by_cases hexts8 : b = kExt8
      · rw [if_pos hexts8]
        exact rung_blob 1 hrest (show lead b = .sized .ext 1 by rw [hexts8]; decide)
          (by decide) (fun n => Nat.add_comm n 1) (fun n => rfl) (number_one hrest)
      rw [if_neg hexts8]
      by_cases hexts16 : b = kExt16
      · rw [if_pos hexts16]
        exact rung_blob 1 hrest (show lead b = .sized .ext 2 by rw [hexts16]; decide)
          (by decide) (fun n => Nat.add_comm n 1) (fun n => rfl) (number_two hrest)
      rw [if_neg hexts16]
      by_cases hexts32 : b = kExt32
      · rw [if_pos hexts32]
        exact rung_blob32 hrest (show lead b = .sized .ext 4 by rw [hexts32]; decide)
          (Nat.le_refl 1) (fun n => Nat.add_comm n 1) fun n => rfl
      rw [if_neg hexts32]
      -- The bytes of every kind were compared with.
      have hother (k : Kind) : ¬ Skipped k b := by
        intro hbyte
        simp only [not_or] at hfix hconst h8 h16 h32 h64 hblob8 hblob16 hblob32
        cases k <;>
          simp only [Skipped, Formats, hfix, hmap, harray, hstr, hconst, h8, h16, h32, h64,
            hblob8, hblob16, hblob32, harray16, harray32, hmap16, hmap32, hext1, hext2, hext4,
            hext8, hext16, hexts8, hexts16, hexts32, or_self] at hbyte
      have hreserved : lead b = .reserved := by
        cases hlead : lead b with
        | reserved => rfl
        | value t => exact absurd (skipped_of_kind b t.kind (by rw [hlead]; rfl)) (hother _)
        | sized family width =>
            exact absurd (skipped_of_kind b family.kind (by rw [hlead]; rfl)) (hother _)
      rw [hrest, skipAt, token, hreserved]
      rfl

/-! ### The loop -/

/-- A round of the loop of `skip` on the reader and the count. -/
def skipRound (s : Reader w × Nat) : Option (Reader w × Nat) :=
  if s.2 = 0 then none else s.1.skipOne.map fun next => (next.1, owedAfter w s.2 next.2)

/-- The same round on the count and the bytes that are left. -/
def walkRound (w : SizeT) (s : Nat × List UInt8) : Option (Nat × List UInt8) :=
  if s.1 = 0 then none else (skipAt w s.2).map fun f => (owedAfter w s.1 f.2, s.2.drop f.1)

/-- Nothing is owed, so the walk is over. -/
theorem walkRound_zero (bs : List UInt8) : walkRound w (0, bs) = none := rfl

/-- One object is passed by, and those in it are owed. -/
theorem walkRound_succ {owed : Nat} (howed : owed ≠ 0) (bs : List UInt8) :
    walkRound w (owed, bs) = (skipAt w bs).map fun f => (owedAfter w owed f.2, bs.drop f.1) := by
  rw [walkRound, if_neg howed]

/-- A round passes over bytes that are there. -/
theorem skipAt_le {bs : List UInt8} {f : Nat × Nat} (h : skipAt w bs = some f) :
    f.1 ≤ bs.length := by
  obtain ⟨⟨t, k⟩, -, hf⟩ := Option.bind_eq_some_iff.mp h
  simp only [Option.ite_none_left_eq_some, Option.some.injEq] at hf
  obtain ⟨-, hroom, rfl⟩ := hf
  exact Nat.le_of_not_lt hroom

/-- The two rounds go together. -/
theorem skipRound_eq (r : Reader w) (owed : Nat) :
    (skipRound (r, owed)).map (fun s => (s.2, s.1.rest)) = walkRound w (owed, r.rest) := by
  unfold skipRound walkRound
  split
  · rfl
  · rw [skipOne_eq, passes]
    cases skipAt w r.rest with
    | none => rfl
    | some f => simp only [Option.map_some, rest_advance]

/-- The states of the loop are those of the walk. -/
theorem skipRound_reaches {s s' : Reader w × Nat} (h : Reaches skipRound s s') :
    Reaches (walkRound w) (s.2, s.1.rest) (s'.2, s'.1.rest) := by
  induction h with
  | refl => exact .refl
  | tail _ hstep ih =>
      rename_i b c _
      have hround := skipRound_eq b.1 b.2
      rw [show skipRound (b.1, b.2) = some c from hstep] at hround
      exact ih.tail hround.symm

/-- Every state of the walk is one of the loop. -/
theorem walkRound_reaches (r : Reader w) (owed : Nat) {s : Nat × List UInt8}
    (h : Reaches (walkRound w) (owed, r.rest) s) :
    ∃ r', Reaches skipRound (r, owed) (r', s.1) ∧ r'.rest = s.2 := by
  induction h with
  | refl => exact ⟨r, .refl, rfl⟩
  | tail _ hstep ih =>
      rename_i b c _
      obtain ⟨r', hreach, hrest⟩ := ih
      have hround := skipRound_eq r' b.1
      rw [hrest, show walkRound w (b.1, b.2) = some c from hstep] at hround
      obtain ⟨next, hnext, rfl⟩ := Option.map_eq_some_iff.mp hround
      exact ⟨next.1, hreach.tail hnext, rfl⟩

/-- The loop goes on behind a value. -/
theorem skipLoop_some {saved owed n : Nat} {r r' : Reader w} (howed : owed ≠ 0)
    (hone : r.skipOne = some (r', n)) :
    skipLoop saved r owed = skipLoop saved r' (owedAfter w owed n) := by
  rw [skipLoop, dif_neg howed]
  split
  · rename_i hnone
    rw [hone] at hnone
    cases hnone
  · rename_i hsome
    rw [hone] at hsome
    cases hsome
    rfl

/-- The loop fails where no value is. -/
theorem skipLoop_none {saved owed : Nat} {r : Reader w} (howed : owed ≠ 0)
    (hone : r.skipOne = none) : skipLoop saved r owed = r.fail saved := by
  rw [skipLoop, dif_neg howed]
  split
  · rfl
  · rename_i hsome
    rw [hone] at hsome
    cases hsome

/-- The loop comes to its end where the walk does, and otherwise fails. -/
theorem skipLoop_cases (saved : Nat) (r : Reader w) (owed : Nat) :
    (∃ k, k ≤ r.rest.length ∧ Reaches (walkRound w) (owed, r.rest) (0, r.rest.drop k) ∧
        skipLoop saved r owed = r.advance k) ∨
      (∀ rest, ¬ Reaches (walkRound w) (owed, r.rest) (0, rest)) ∧
        skipLoop saved r owed = r.fail saved := by
  induction r, owed using skipLoop.induct with
  | case1 r =>
      -- Nothing is owed.
      refine Or.inl ⟨0, Nat.zero_le _, .refl, ?_⟩
      rw [skipLoop, dif_pos rfl]
      rfl
  | case2 r owed howed hone =>
      -- No value where one is owed: the walk is stuck there, too.
      refine Or.inr ⟨fun rest hreach => ?_, skipLoop_none howed hone⟩
      · rw [skipOne_eq, passes, Option.map_eq_none_iff] at hone
        have hnone : walkRound w (owed, r.rest) = none := by
          rw [walkRound_succ howed, hone, Option.map_none]
        have hend := reaches_of_none hnone hreach
        exact howed (Prod.mk.inj hend).1
  | case3 r owed howed r' n hone ih =>
      -- One value, and the loop and the walk go on behind it.
      have hloop : skipLoop saved r owed = skipLoop saved r' (owedAfter w owed n) :=
        skipLoop_some howed hone
      rw [skipOne_eq, passes, Option.map_eq_some_iff] at hone
      obtain ⟨f, hf, hnext⟩ := hone
      cases hnext
      have hstep : walkRound w (owed, r.rest) = some (owedAfter w owed f.2, r.rest.drop f.1) := by
        rw [walkRound_succ howed, hf, Option.map_some]
      have hle := skipAt_le hf
      rw [hloop]
      rw [rest_advance] at ih
      obtain ⟨k, hk, hreach, hend⟩ | ⟨hnever, hfail⟩ := ih
      · rw [List.length_drop] at hk
        rw [List.drop_drop] at hreach
        refine Or.inl ⟨f.1 + k, by omega, .head hstep hreach, ?_⟩
        rw [hend, advance_advance]
      · refine Or.inr ⟨fun rest hreach => hnever rest ?_, hfail⟩
        refine reaches_step hstep hreach fun heq => howed ?_
        exact (Prod.mk.inj heq).1

/-- `skip` ends where the walk over one object does, and otherwise only sets the flag. -/
theorem skip_cases {r : Reader w} (herr : r.error = false) :
    (∃ k, k ≤ r.rest.length ∧ Reaches (walkRound w) (1, r.rest) (0, r.rest.drop k) ∧
        r.skip = r.advance k) ∨
      (∀ rest, ¬ Reaches (walkRound w) (1, r.rest) (0, rest)) ∧ r.skip = r.flagged := by
  rw [skip, if_neg (by rw [herr]; decide)]
  exact skipLoop_cases r.pos r 1

/-! ### Sums that wrap -/

/-- In this round a sum of `size_t` wraps: a header and its body, where nothing guards them,
or the count with the children of a header. -/
def Wraps (w : SizeT) (s : Nat × List UInt8) : Prop :=
  s.1 ≠ 0 ∧ ∃ t k, token s.2 = some (t, k) ∧
    (k ≠ 5 ∧ 2 ^ w.bits ≤ k + t.bodyBytes ∨ 2 ^ w.bits ≤ s.1 + t.children)

/-- The exact walk from here meets no such round. -/
def Fits (w : SizeT) (s : Nat × List UInt8) : Prop := ∀ s', Reaches exactRound s s' → ¬ Wraps w s'

/-- What `size_t` can hold. -/
def Small (w : SizeT) (s : Nat × List UInt8) : Prop :=
  s.1 < 2 ^ w.bits ∧ s.2.length < 2 ^ w.bits

/-- Without a wrap the count is exact. -/
theorem owedAfter_eq {owed n : Nat} (h : owed + 1 + n < 2 ^ w.bits) :
    owedAfter w (owed + 1) n = n + owed := by
  rw [owedAfter, SizeT.wrap_of_lt h]
  have hsum : owed + 1 + n + 2 ^ w.bits - 1 = (n + owed) + 2 ^ w.bits := by omega
  rw [hsum, SizeT.wrap, Nat.add_mod_right, Nat.mod_eq_of_lt (by omega)]

/-- A round without a wrap is exact. -/
theorem walkRound_eq {s : Nat × List UInt8} (hsmall : Small w s) (h : ¬ Wraps w s) :
    walkRound w s = exactRound s := by
  obtain ⟨owed, bs⟩ := s
  cases owed with
  | zero => rfl
  | succ n =>
      rw [walkRound_succ (Nat.succ_ne_zero n), skipAt, exactRound]
      cases htoken : token bs with
      | none => rfl
      | some f =>
          obtain ⟨t, k⟩ := f
          have hlen : bs.length < 2 ^ w.bits := hsmall.2
          simp only [Wraps, ne_eq, Nat.succ_ne_zero, not_false_eq_true, true_and, htoken,
            Option.some.injEq, Prod.mk.injEq, not_exists, not_and, not_or, and_imp] at h
          obtain ⟨hbody, hcount⟩ := h t k rfl rfl
          simp only [Option.bind_some]
          by_cases hguard : k = 5 ∧ 2 ^ w.bits ≤ k + t.bodyBytes
          · -- The guard fails where the bytes cannot be there.
            rw [if_pos hguard, if_neg (by omega)]
            rfl
          · have hsize : w.wrap (k + t.bodyBytes) = k + t.bodyBytes := by
              refine SizeT.wrap_of_lt (Nat.lt_of_not_le fun hle => ?_)
              exact hbody (fun hk => hguard ⟨hk, hle⟩) hle
            rw [if_neg hguard, hsize]
            by_cases hroom : k + t.bodyBytes ≤ bs.length
            · rw [if_neg (by omega), if_pos hroom, Option.map_some,
                SizeT.wrap_of_lt (by omega), owedAfter_eq (by omega)]
            · rw [if_pos (by omega), if_neg hroom]
              rfl

/-- An exact round without a wrap stays within `size_t`. -/
theorem small_round {s s' : Nat × List UInt8} (hsmall : Small w s) (h : ¬ Wraps w s)
    (hround : exactRound s = some s') : Small w s' := by
  obtain ⟨n, t, k, howed, htoken, hroom, rfl⟩ := exactRound_cases hround
  have hcount : s.1 + t.children < 2 ^ w.bits := by
    refine Nat.lt_of_not_le fun hle => h ⟨by omega, t, k, htoken, Or.inr hle⟩
  have hlen := hsmall.2
  constructor
  · simp only
    omega
  · simp only [List.length_drop]
    omega

/-- A round of the code always does. -/
theorem small_walkRound {s s' : Nat × List UInt8} (hsmall : Small w s)
    (hround : walkRound w s = some s') : Small w s' := by
  unfold walkRound at hround
  split at hround
  · cases hround
  · obtain ⟨f, -, rfl⟩ := Option.map_eq_some_iff.mp hround
    have hlen := hsmall.2
    refine ⟨Nat.mod_lt _ (Nat.two_pow_pos _), ?_⟩
    simp only [List.length_drop]
    omega

/-- Where no sum wraps on the exact walk, the code walks exactly. -/
theorem reaches_walkRound {s s' : Nat × List UInt8} (hsmall : Small w s) (h : Fits w s) :
    Reaches exactRound s s' ↔ Reaches (walkRound w) s s' := by
  have hsmalls (s₁ : Nat × List UInt8) (hreach : Reaches exactRound s s₁) : Small w s₁ := by
    induction hreach with
    | refl => exact hsmall
    | tail hprev hstep ih => exact small_round ih (h _ hprev) hstep
  refine reaches_congr fun s₁ hreach => ?_
  exact (walkRound_eq (hsmalls s₁ hreach) (h s₁ hreach)).symm

/-- Where no sum wraps in the rounds of the code, no sum wraps on the exact walk. -/
theorem fits_iff {s : Nat × List UInt8} (hsmall : Small w s) :
    (∀ s', Reaches (walkRound w) s s' → ¬ Wraps w s') ↔ Fits w s := by
  constructor
  · intro h
    have hsmalls (s₁ : Nat × List UInt8) (hreach : Reaches (walkRound w) s s₁) : Small w s₁ := by
      induction hreach with
      | refl => exact hsmall
      | tail _ hstep ih => exact small_walkRound ih hstep
    have hsame {s' : Nat × List UInt8} : Reaches (walkRound w) s s' ↔ Reaches exactRound s s' := by
      refine reaches_congr fun s₁ hreach => ?_
      exact walkRound_eq (hsmalls s₁ hreach) (h s₁ hreach)
    intro s' hreach
    exact h s' (hsame.mpr hreach)
  · intro h s' hreach
    exact h s' ((reaches_walkRound hsmall h).mpr hreach)

/-- No sum wraps on the way over complete objects: their bytes are there, and each object
owed has at least one of them. -/
theorem fits_of_front {n k : Nat} {bs : List UInt8} (h : Front n bs k)
    (hlen : bs.length < 2 ^ w.bits) : Fits w (n, bs) := by
  intro s hreach hwraps
  obtain ⟨howed, t, j, htoken, hsum⟩ := hwraps
  -- Complete objects are still ahead, one for each that is owed.
  have hend := reaches_end hreach h.reaches (exactRound_zero _)
  obtain ⟨i, hfront, -⟩ := front_of_reaches hend
  obtain ⟨m, hm⟩ := Nat.exists_eq_succ_of_ne_zero howed
  rw [hm] at hfront
  obtain ⟨hbody, hroom, hrest⟩ := (front_succ htoken).mp hfront
  have hj := (token_length htoken).1
  have hcount := hrest.2.le_length
  have hdrop := hrest.1
  rw [List.length_take, List.length_drop] at hcount
  have hshort : s.2.length ≤ bs.length := reaches_length hreach
  omega

/-- On a 64-bit host no buffer of less than `2 ^ 31` bytes makes a sum wrap. -/
theorem fits_host64 {bs : List UInt8} (hlen : bs.length < 2 ^ 31) : Fits .host64 (1, bs) := by
  intro s hreach hwraps
  obtain ⟨-, t, k, htoken, hsum⟩ := hwraps
  have howed := reaches_owed hreach
  have hsizes := token_sizes htoken
  have hk := token_length htoken
  have hshort : s.2.length ≤ bs.length := reaches_length hreach
  have hbits : (2 : Nat) ^ SizeT.host64.bits = 2 ^ 64 := rfl
  rw [hbits] at hsum
  simp only at howed
  omega

/-- The rest is no longer than the buffer. -/
theorem rest_length_le (r : Reader w) : r.rest.length ≤ r.buf.length := by
  rw [rest, List.length_drop]
  exact Nat.sub_le _ _

/-- A buffer that a `size_t` can measure is small enough for the walk. -/
theorem small_rest {r : Reader w} (hbuf : r.buf.length < 2 ^ w.bits) : Small w (1, r.rest) :=
  ⟨w.lt_two_pow (show (1 : Nat) < 2 ^ 16 by decide), Nat.lt_of_le_of_lt r.rest_length_le hbuf⟩

/-- Where no sum wraps, `skip` passes over the object at the cursor, or only sets the flag. -/
theorem skip_of_fits {r : Reader w} (herr : r.error = false) (hbuf : r.buf.length < 2 ^ w.bits)
    (hfits : Fits w (1, r.rest)) :
    (∃ k, Front 1 r.rest k ∧ r.skip = r.advance k) ∨
      (¬ ∃ k, Front 1 r.rest k) ∧ r.skip = r.flagged := by
  have hsame {rest : List UInt8} :
      Reaches exactRound (1, r.rest) (0, rest) ↔ Reaches (walkRound w) (1, r.rest) (0, rest) :=
    reaches_walkRound (small_rest hbuf) hfits
  obtain ⟨k, hk, hreach, hskip⟩ | ⟨hnever, hskip⟩ := skip_cases herr
  · -- The exact walk ends at the same place, so it is the end of an object.
    obtain ⟨j, hfront, hdrop⟩ := reaches_iff.mp (hsame.mpr hreach)
    have hlen := congrArg List.length hdrop
    have hj := hfront.1
    simp only [List.length_drop] at hlen
    obtain rfl : j = k := by omega
    exact Or.inl ⟨j, hfront, hskip⟩
  · refine Or.inr ⟨?_, hskip⟩
    rintro ⟨k, hfront⟩
    exact hnever _ (hsame.mp hfront.reaches)

/-- On every target `skip` passes over a complete object at the cursor. -/
theorem skip_of_front {r : Reader w} (herr : r.error = false) (hbuf : r.buf.length < 2 ^ w.bits)
    {k : Nat} (h : Front 1 r.rest k) : r.skip = r.advance k := by
  have hrest := Nat.lt_of_le_of_lt r.rest_length_le hbuf
  obtain ⟨j, hj, hskip⟩ | ⟨hnone, -⟩ := skip_of_fits herr hbuf (fits_of_front h hrest)
  · rw [hskip, hj.unique h]
  · exact absurd ⟨k, h⟩ hnone

/-! ### The results -/

/-- On a 64-bit host `skip` succeeds exactly when a complete object starts at the cursor, and
passes over it. Otherwise it sets the error flag and stays. -/
theorem skip_recognises_object {r : Reader .host64} (herr : r.error = false)
    (hbuf : r.buf.length < 2 ^ 31) :
    (r.skip.error = false ↔ ∃ k ≤ r.rest.length, Object (r.rest.take k)) ∧
      (∀ k ≤ r.rest.length, Object (r.rest.take k) → r.skip = r.advance k) ∧
      ((¬ ∃ k ≤ r.rest.length, Object (r.rest.take k)) → r.skip = r.flagged) := by
  have hwide : r.buf.length < 2 ^ SizeT.host64.bits :=
    Nat.lt_of_lt_of_le hbuf (Nat.pow_le_pow_right (by decide) (by decide))
  have hfits := fits_host64 (Nat.lt_of_le_of_lt r.rest_length_le hbuf)
  have hfront (k : Nat) : Front 1 r.rest k ↔ k ≤ r.rest.length ∧ Object (r.rest.take k) :=
    and_congr_right fun _ => ⟨Sequence.object, Object.sequence⟩
  obtain ⟨k, hk, hskip⟩ | ⟨hnone, hskip⟩ := skip_of_fits herr hwide hfits
  · -- An object is there, and no other length is one.
    have hobject := (hfront k).mp hk
    refine ⟨⟨fun _ => ⟨k, hobject⟩, fun _ => by rw [hskip]; exact herr⟩, ?_, ?_⟩
    · intro j hj hj'
      rw [hskip, hk.unique ((hfront j).mpr ⟨hj, hj'⟩)]
    · intro hnone
      exact absurd ⟨k, hobject⟩ hnone
  · have hnever : ¬ ∃ k ≤ r.rest.length, Object (r.rest.take k) := by
      rintro ⟨k, hk⟩
      exact hnone ⟨k, (hfront k).mpr hk⟩
    refine ⟨⟨fun hok => ?_, fun hsome => absurd hsome hnever⟩, ?_, fun _ => hskip⟩
    · rw [hskip] at hok
      cases hok
    · intro k hk hobject
      exact absurd ⟨k, hk, hobject⟩ hnever

/-- An array that holds an extension, and a byte behind it. -/
theorem skip_recognises_object_witness :
    (Reader.new .host64 [0x92, 0xd4, 0x01, 0x02, 0xc0, 0xff]).skip
      = (Reader.new .host64 [0x92, 0xd4, 0x01, 0x02, 0xc0, 0xff]).advance 5 := by
  refine (skip_recognises_object rfl (by decide)).2.1 5 (by decide) ?_
  have hext : Object ([0xd4] ++ [0x01, 0x02]) :=
    .of_body (show Spells (.ext 1) [0xd4] by decide) rfl rfl
  have hnil : Object [0xc0] := .of_header (show Spells .nil [0xc0] by decide) rfl rfl
  exact .of_children (show Spells (.array 2) [0x92] by decide) rfl (.cons hext (.cons hnil .nil))

/-- A call of `skip` that is right about the bytes it passes over and computes without a
wrap. -/
structure SkipSound (r : Reader w) : Prop where
  object : r.skip.error = false → Object (r.rest.take (r.skip.pos - r.pos))
  noWrap : ∀ s, Reaches skipRound (r, 1) s → ¬ Wraps w (s.2, s.1.rest)

/-- `skip` is right exactly when no sum wraps on the exact walk over the bytes. -/
theorem skipSound_iff {r : Reader w} (herr : r.error = false)
    (hbuf : r.buf.length < 2 ^ w.bits) : SkipSound r ↔ Fits w (1, r.rest) := by
  have hrounds : (∀ s, Reaches skipRound (r, 1) s → ¬ Wraps w (s.2, s.1.rest)) ↔
      ∀ s, Reaches (walkRound w) (1, r.rest) s → ¬ Wraps w s := by
    constructor
    · intro h s hreach
      obtain ⟨r', hreach', hrest⟩ := walkRound_reaches r 1 hreach
      have hround := h _ hreach'
      rwa [hrest] at hround
    · intro h s hreach
      exact h _ (skipRound_reaches hreach)
  constructor
  · -- A run without a wrap is the exact walk.
    intro h
    exact (fits_iff (small_rest hbuf)).mp (hrounds.mp h.noWrap)
  · intro hfits
    refine ⟨fun hok => ?_, hrounds.mpr ((fits_iff (small_rest hbuf)).mpr hfits)⟩
    obtain ⟨k, hk, hskip⟩ | ⟨-, hskip⟩ := skip_of_fits herr hbuf hfits
    · have hpos : r.skip.pos - r.pos = k := by
        rw [hskip]
        exact Nat.add_sub_cancel_left _ _
      rw [hpos]
      exact hk.2.object
    · rw [hskip] at hok
      cases hok

/-- The same array on AVR. -/
theorem skipSound_iff_witness : SkipSound (Reader.new .avr [0x92, 0xc0, 0xc0]) := by
  refine (skipSound_iff rfl (by decide)).mpr (fits_of_front (k := 3) ⟨by decide, ?_⟩ (by decide))
  have hnil : Object [0xc0] := .of_header (show Spells .nil [0xc0] by decide) rfl rfl
  exact (Object.of_children (show Spells (.array 2) [0x92] by decide) rfl
    (.cons hnil (.cons hnil .nil))).sequence

/-- A call of `skip` that is over after one round. -/
theorem skip_single {r r' : Reader w} {n : Nat} (herr : r.error = false)
    (hone : r.skipOne = some (r', n)) (howed : owedAfter w 1 n = 0) : r.skip = r' := by
  rw [skip, if_neg (by rw [herr]; decide), skipLoop_some Nat.one_ne_zero hone, howed, skipLoop,
    dif_pos rfl]

/-- On AVR the header of a string of 65535 bytes passes as an object of two bytes, and on a
32-bit board the header of a map of `2 ^ 31` pairs as an object of five. -/
theorem skip_fooled :
    ((Reader.new .avr [0xda, 0xff, 0xff]).skip = (Reader.new .avr [0xda, 0xff, 0xff]).advance 2 ∧
        ¬ SkipSound (Reader.new .avr [0xda, 0xff, 0xff])) ∧
      (Reader.new .board32 [0xdf, 0x80, 0, 0, 0]).skip
          = (Reader.new .board32 [0xdf, 0x80, 0, 0, 0]).advance 5 ∧
        ¬ SkipSound (Reader.new .board32 [0xdf, 0x80, 0, 0, 0]) := by
  have hstr : (Reader.new .avr [0xda, 0xff, 0xff]).skip
      = (Reader.new .avr [0xda, 0xff, 0xff]).advance 2 :=
    skip_single (n := 0) rfl (by decide) (by decide)
  have hmap : (Reader.new .board32 [0xdf, 0x80, 0, 0, 0]).skip
      = (Reader.new .board32 [0xdf, 0x80, 0, 0, 0]).advance 5 :=
    skip_single (n := 0) rfl (by decide) (by decide)
  refine ⟨⟨hstr, fun h => ?_⟩, hmap, fun h => ?_⟩
  · -- The length would need a third byte.
    have hobject := h.object (by rw [hstr]; rfl)
    rw [hstr] at hobject
    have hbytes : Object [0xda, 0xff] := hobject
    obtain ⟨t, k, htoken⟩ := hbytes.sequence.exists_token
    rw [show token [0xda, 0xff] = none by decide] at htoken
    cases htoken
  · -- The entries of the map would follow.
    have hobject := h.object (by rw [hmap]; rfl)
    rw [hmap] at hobject
    have hbytes : Object [0xdf, 0x80, 0, 0, 0] := hobject
    have htoken : token [0xdf, 0x80, 0, 0, 0] = some (.map (2 ^ 31), 5) := by decide
    have hentries := (hbytes.sequence.of_token htoken).2.le_length
    simp [Token.children, Token.bodyBytes] at hentries

end Reader

end SerialRpc

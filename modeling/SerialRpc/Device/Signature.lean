import SerialRpc.Device.Table
import SerialRpc.Device.Typed
import SerialRpc.Lib.Bracketed
import SerialRpc.Lib.Decimal

/-!
# `SerialRpc.Device.Signature`: the signatures of `rpc.list`

The `detail::sig` namespace of `src/serial_rpc/server.h`. A signature is not stored. `write_sig`
of an entry writes it token by token into a `SigBuf`, a buffer of the caller that keeps room for a
terminator and drops what does not fit.

`Bound` is what a handler was bound with, and `Bound.signature` are the tokens that its `write_sig`
appends. What the signature says is a term: `ArgType.shape` forgets of a type what no token shows.
-/

set_option autoImplicit false

namespace SerialRpc

/-- A string literal. -/
def literal (s : String) : CString where
  memory := text s ++ [0]
  terminated := List.mem_append_right _ List.mem_cons_self

/-! ### `SigBuf` -/

/-- `SigBuf`, with the memory from `_buf` on. `_cap` is its length. -/
structure SigBuf where
  buf : List UInt8
  len : Nat
  /-- A terminator stands behind the text, unless there is no room for one. -/
  terminated : (buf = [] ∧ len = 0) ∨ buf[len]? = some 0

namespace SigBuf

/-- `_buf[_len] = '\0'`, behind every loop that appends. -/
def terminate (buf : List UInt8) (len : Nat) (h : (buf = [] ∧ len = 0) ∨ len < buf.length) :
    SigBuf where
  buf := buf.set len 0
  len := len
  terminated := by
    rcases h with ⟨rfl, rfl⟩ | hlt
    · exact .inl ⟨rfl, rfl⟩
    · exact .inr (List.getElem?_set_self hlt)

/-- The constructor, over the memory of the caller. -/
def new (memory : List UInt8) : SigBuf :=
  terminate memory 0 (by
    rcases Nat.eq_zero_or_pos memory.length with hnil | hpos
    · exact .inl ⟨List.length_eq_zero_iff.mp hnil, rfl⟩
    · exact .inr hpos)

/-- `c_str()`, as far as it has been written. -/
def written (b : SigBuf) : List UInt8 := b.buf.take b.len

/-- The loop of `append`: the buffer and `_len`. -/
def copy (buf : List UInt8) (len : Nat) : List UInt8 → List UInt8 × Nat
  | [] => (buf, len)
  | c :: s => if len + 1 < buf.length then copy (buf.set len c) (len + 1) s else (buf, len)

/-- The loop of `append_token` on AVR, where the token is in flash. -/
def copyToken (buf : List UInt8) (len : Nat) : List UInt8 → List UInt8 × Nat
  | [] => (buf, len)
  | c :: tok =>
      if c = 0 then (buf, len)
      else if buf.length ≤ len + 1 then (buf, len)
      else copyToken (buf.set len c) (len + 1) tok

/-- The loops do not leave the buffer. -/
theorem copy_bound {buf : List UInt8} {len : Nat} (s : List UInt8)
    (h : (buf = [] ∧ len = 0) ∨ len < buf.length) :
    ((copy buf len s).1 = [] ∧ (copy buf len s).2 = 0) ∨
      (copy buf len s).2 < (copy buf len s).1.length := by
  induction s generalizing buf len with
  | nil => exact h
  | cons c s ih =>
      rw [copy]
      split
      · rename_i hroom
        exact ih (.inr (by rw [List.length_set]; exact hroom))
      · exact h

/-- The loop of `add` leaves room for the terminator, unless there is no buffer. -/
theorem copyToken_bound {buf : List UInt8} {len : Nat} (tok : List UInt8)
    (h : (buf = [] ∧ len = 0) ∨ len < buf.length) :
    ((copyToken buf len tok).1 = [] ∧ (copyToken buf len tok).2 = 0) ∨
      (copyToken buf len tok).2 < (copyToken buf len tok).1.length := by
  induction tok generalizing buf len with
  | nil => exact h
  | cons c tok ih =>
      rw [copyToken]
      split_ifs with hzero hroom
      · exact h
      · exact h
      · exact ih (.inr (by rw [List.length_set]; exact Nat.lt_of_not_le hroom))

/-- The length stays below the size of the buffer, so the terminator is always inside. -/
theorem bound (b : SigBuf) : (b.buf = [] ∧ b.len = 0) ∨ b.len < b.buf.length :=
  b.terminated.imp_right fun h => (List.getElem?_eq_some_iff.mp h).1

/-- `append`. -/
def append (b : SigBuf) (s : List UInt8) : SigBuf :=
  terminate (copy b.buf b.len s).1 (copy b.buf b.len s).2 (copy_bound s b.bound)

/-- `append_token`. -/
def appendToken (avr : Bool) (b : SigBuf) (tok : CString) : SigBuf :=
  if avr then
    terminate (copyToken b.buf b.len tok.memory).1 (copyToken b.buf b.len tok.memory).2
      (copyToken_bound tok.memory b.bound)
  else b.append (tok.memory.take (strlen tok))

/-- The loop of `append_uint` that fills `digits`, with so much room left in it. -/
def uintDigits : Nat → Nat → List UInt8
  | 0, _ => []
  | room + 1, n => if n = 0 then [] else Decimal.digit (n % 10) :: uintDigits room (n / 10)

/-- `append_uint`. The digits come last one first, and the loop that turns them around is the one
of `append`. -/
def appendUint (b : SigBuf) (n : Nat) : SigBuf :=
  b.append (if n = 0 then [Decimal.digit 0] else (uintDigits 20 n).reverse)

end SigBuf

/-! ### Tokens -/

/-- What the tokens depend on: the compiler, and whether `double` has 8 bytes or 4. -/
structure SigTarget where
  avr : Bool
  wideDouble : Bool

/-- `IntToken<Size, Signed>`, for the sizes that it is defined for: 1, 2, 4 and 8 bytes. -/
def intToken (type : ArgInt) : CString :=
  if type.bits = 8 then if type.signed then literal "i8" else literal "u8"
  else if type.bits = 16 then if type.signed then literal "i16" else literal "u16"
  else if type.bits = 32 then if type.signed then literal "i32" else literal "u32"
  else if type.signed then literal "i64" else literal "u64"

/-- `FloatToken<sizeof(double)>`. -/
def doubleToken (target : SigTarget) : CString :=
  if target.wideDouble then literal "f64" else literal "f32"

/-- `SigList::append`, on what each of the types appends. -/
def sigList (target : SigTarget) : List (SigBuf → SigBuf) → Bool → SigBuf → SigBuf
  | [], _, out => out
  | token :: tokens, first, out =>
      let out := if first then out else out.appendToken target.avr (literal ",")
      sigList target tokens false (token out)

/-- `SigToken<T>::append`. -/
def sigToken (target : SigTarget) : ArgType → SigBuf → SigBuf
  | .bool, out => out.appendToken target.avr (literal "bool")
  | .int type, out => out.appendToken target.avr (intToken type)
  | .float, out => out.appendToken target.avr (literal "f32")
  | .double, out => out.appendToken target.avr (doubleToken target)
  | .cstr, out => out.appendToken target.avr (literal "str")
  | .string, out => out.appendToken target.avr (literal "str")
  | .vector element, out =>
      let out := out.appendToken target.avr (literal "[")
      let out := sigToken target element out
      out.appendToken target.avr (literal "]")
  | .array element n, out =>
      let out := out.appendToken target.avr (literal "[")
      let out := sigToken target element out
      let out := out.appendToken target.avr (literal ";")
      (out.appendUint n).appendToken target.avr (literal "]")
  | .pair first second, out =>
      let out := out.appendToken target.avr (literal "[")
      let out := sigList target [sigToken target first, sigToken target second] true out
      out.appendToken target.avr (literal "]")
  | .tuple _ element, out =>
      let out := out.appendToken target.avr (literal "[")
      let out := sigList target (List.ofFn fun i => sigToken target (element i)) true out
      out.appendToken target.avr (literal "]")

/-- `SigToken<R>::append` of a result, `none` for `void`. -/
def resultToken (target : SigTarget) : Option ArgType → SigBuf → SigBuf
  | none, out => out.appendToken target.avr (literal "nil")
  | some t, out => sigToken target t out

/-- `write_signature<R, ArgTs...>`. -/
def writeSignature (target : SigTarget) (result : Option ArgType) (args : List ArgType)
    (out : SigBuf) : SigBuf :=
  let out := out.appendToken target.avr (literal "(")
  let out := sigList target (args.map (sigToken target)) true out
  let out := out.appendToken target.avr (literal ")")
  let out := out.appendToken target.avr (literal "->")
  resultToken target result out

/-- `write_raw_signature`. -/
def writeRawSignature (target : SigTarget) (out : SigBuf) : SigBuf :=
  let out := out.appendToken target.avr (literal "(")
  let out := out.appendToken target.avr (literal "...")
  let out := out.appendToken target.avr (literal ")")
  let out := out.appendToken target.avr (literal "->")
  out.appendToken target.avr (literal "any")

/-- What a handler was bound with: `bind` with `R(ArgTs...)`, or `bind_raw`. -/
inductive Bound where
  | typed (result : Option ArgType) (args : List ArgType)
  | raw

/-- The `write_sig` of its entry. -/
def Bound.writeSig (target : SigTarget) : Bound → SigBuf → SigBuf
  | .typed result args => writeSignature target result args
  | .raw => writeRawSignature target

/-! ### What a signature says -/

/-- The tokens that stand for a type or a number, and the two of a raw handler. -/
inductive SigAtom where
  | bool | i8 | i16 | i32 | i64 | u8 | u16 | u32 | u64 | f32 | f64 | str | nil
  | number (n : Nat)
  | ellipsis | any
deriving DecidableEq

/-- Parentheses around parameters, and brackets around types. -/
inductive SigBracket where
  | paren
  | bracket
deriving DecidableEq

/-- Between two types, and in front of the length of an array. -/
inductive SigSep where
  | comma
  | semicolon
deriving DecidableEq

/-- The text of an atom. -/
def SigAtom.text : SigAtom → List UInt8
  | bool => SerialRpc.text "bool"
  | i8 => SerialRpc.text "i8"
  | i16 => SerialRpc.text "i16"
  | i32 => SerialRpc.text "i32"
  | i64 => SerialRpc.text "i64"
  | u8 => SerialRpc.text "u8"
  | u16 => SerialRpc.text "u16"
  | u32 => SerialRpc.text "u32"
  | u64 => SerialRpc.text "u64"
  | f32 => SerialRpc.text "f32"
  | f64 => SerialRpc.text "f64"
  | str => SerialRpc.text "str"
  | nil => SerialRpc.text "nil"
  | number n => Decimal.numeral n
  | ellipsis => SerialRpc.text "..."
  | any => SerialRpc.text "any"

/-- A type as a signature shows it. -/
abbrev SigTerm := Bracketed.Term SigBracket SigSep SigAtom

/-- How signatures are written. -/
def sigSpelling : Bracketed.Spelling UInt8 SigBracket SigSep SigAtom where
  opening
    | .paren => 0x28
    | .bracket => 0x5b
  closing
    | .paren => 0x29
    | .bracket => 0x5d
  sep
    | .comma => [0x2c]
    | .semicolon => [0x3b]
  leaf := SigAtom.text

/-- The token of an integer type. -/
def ArgInt.atom (type : ArgInt) : SigAtom :=
  if type.bits = 8 then if type.signed then .i8 else .u8
  else if type.bits = 16 then if type.signed then .i16 else .u16
  else if type.bits = 32 then if type.signed then .i32 else .u32
  else if type.signed then .i64 else .u64

/-- What the signature shows of a type. A pair is shown as a tuple, and a `std::vector` as a tuple
of one. -/
def ArgType.shape (target : SigTarget) : ArgType → SigTerm
  | bool => .leaf .bool
  | int type => .leaf type.atom
  | float => .leaf .f32
  | double => .leaf (if target.wideDouble then .f64 else .f32)
  | cstr => .leaf .str
  | string => .leaf .str
  | vector element => .group .bracket (.last (element.shape target))
  | array element n =>
      .group .bracket (.more (element.shape target) .semicolon (.last (.leaf (.number n))))
  | pair first second =>
      .group .bracket (.more (first.shape target) .comma (.last (second.shape target)))
  | tuple _ element => .ofList .bracket .comma (List.ofFn fun i => (element i).shape target)

/-- The lengths of the arrays in a type are values of a `size_t`. -/
def ArgType.Counted : ArgType → Prop
  | vector element => element.Counted
  | array element n => element.Counted ∧ n < 2 ^ 64
  | pair first second => first.Counted ∧ second.Counted
  | tuple n element => ∀ i : Fin n, (element i).Counted
  | _ => True

/-- What the signature of a handler shows: the parameters, and the result. -/
def Bound.shape (target : SigTarget) : Bound → SigTerm × SigTerm
  | typed result args =>
      (.ofList .paren .comma (args.map (ArgType.shape target)),
        match result with
        | none => .leaf .nil
        | some t => t.shape target)
  | raw => (.group .paren (.last (.leaf .ellipsis)), .leaf .any)

/-- The types that a handler was bound with are `Counted`. -/
def Bound.Counted : Bound → Prop
  | typed result args => (∀ t ∈ result, t.Counted) ∧ ∀ t ∈ args, t.Counted
  | raw => True

/-- The tokens of a signature. -/
def Bound.signature (target : SigTarget) (b : Bound) : List (List UInt8) :=
  sigSpelling.pieces (b.shape target).1 ++
    SerialRpc.text "->" :: sigSpelling.pieces (b.shape target).2

/-- The whole text of a signature. -/
def Bound.signatureText (target : SigTarget) (b : Bound) : List UInt8 :=
  (b.signature target).flatten

end SerialRpc

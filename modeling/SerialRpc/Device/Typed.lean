import SerialRpc.Device.Handler
import Mathlib.Data.Fin.Tuple.Basic

/-!
# `SerialRpc.Device.Typed`: typed binds

The argument decoders, the result packers and the thunks of `src/serial_rpc/server.h`, one
definition for each template. `ArgType` is the types that have an `ArgDecoder`, and `Val`
their values: an integer is its bits, a `float` or `double` its bit pattern, a
`const char*` where it points to in the scratch buffer.

A decoder that returns `false` leaves nothing behind that anybody reads, so it answers an
`Option` in place of its output parameter. `reserved` is the record of the `reserve` calls.
Sums of lengths do not leave `size_t`, since the frame and the scratch buffer are in memory
together.
-/

set_option autoImplicit false

namespace SerialRpc

/-- `Server::kStrScratchSize`. -/
def kStrScratchSize : Nat := 32

/-! ### Types -/

/-- One of the fundamental integer types, on the target at hand. -/
structure ArgInt where
  signed : Bool
  bits : Nat
  bits_pos : 0 < bits
  bits_le : bits ≤ 64

/-- The types with an `ArgDecoder`. -/
inductive ArgType where
  | bool
  | int (type : ArgInt)
  | float
  | double
  /-- `const char*`. -/
  | cstr
  /-- `std::string`, and from here on only with `SERIAL_RPC_USE_STL`. -/
  | string
  | vector (element : ArgType)
  | array (element : ArgType) (n : Nat)
  | pair (first second : ArgType)
  | tuple (n : Nat) (element : Fin n → ArgType)

namespace ArgType

/-- The values of a type. -/
@[reducible] def Val : ArgType → Type
  | bool => Bool
  | int type => BitVec type.bits
  | float => UInt32
  | double => UInt64
  | cstr => Nat
  | string => List UInt8
  | vector element => List element.Val
  | array element n => Fin n → element.Val
  | pair first second => first.Val × second.Val
  | tuple n element => (i : Fin n) → (element i).Val

/-- One value of each type of a parameter list. -/
@[reducible] def Vals : List ArgType → Type
  | [] => Unit
  | t :: ts => t.Val × Vals ts

/-- The types whose values hold all their data: no `const char*` is in them. -/
def Owning : ArgType → Prop
  | cstr => False
  | vector element => element.Owning
  | array element _ => element.Owning
  | pair first second => first.Owning ∧ second.Owning
  | tuple n element => ∀ i : Fin n, (element i).Owning
  | _ => True

end ArgType

/-! ### `Args` with its scratch buffer -/

/-- `Args`, all of it. -/
structure ThunkArgs (w : SizeT) extends Args w where
  /-- The memory behind `_scratch`. -/
  scratch : List UInt8
  scratchUsed : Nat
  used_le : scratchUsed ≤ scratch.length
  reserved : List Reservation

namespace ThunkArgs

variable {w : SizeT}

/-- The constructor. -/
def new (args : Args w) (scratch : List UInt8) : ThunkArgs w where
  toArgs := args
  scratch := scratch
  scratchUsed := 0
  used_le := Nat.zero_le _
  reserved := []

/-- The cursor of the reader has moved. -/
def withReader (args : ThunkArgs w) (r : Reader w) : ThunkArgs w := { args with reader := r }

/-- `scratch_alloc`: where the bytes start. -/
def scratchAlloc (args : ThunkArgs w) (len : Nat) : ThunkArgs w × Option Nat :=
  if h : args.scratch.length < args.scratchUsed + len then (args, none)
  else
    ({ args with scratchUsed := args.scratchUsed + len, used_le := Nat.le_of_not_lt h },
      some args.scratchUsed)

/-- Some bytes copied into the scratch buffer. -/
def copyTo (args : ThunkArgs w) (dst : Nat) (bytes : List UInt8) : ThunkArgs w where
  toArgs := args.toArgs
  scratch := args.scratch.take dst ++ (bytes ++ args.scratch.drop (dst + bytes.length))
  scratchUsed := args.scratchUsed
  used_le := by
    have := args.used_le
    simp only [List.length_append, List.length_take, List.length_drop]
    omega
  reserved := args.reserved

/-- `reserve(n)` of a container. -/
def reserve (args : ThunkArgs w) (n : Nat) : ThunkArgs w :=
  { args with reserved := args.reserved ++ [⟨n, args.reader.remaining⟩] }

end ThunkArgs

/-! ### `ArgDecoder` -/

section Decoders

variable {w : SizeT} {α β : Type}

/-- `ArgDecoder<T>::decode`. -/
abbrev Decoder (w : SizeT) (α : Type) := ThunkArgs w → ThunkArgs w × Option α

/-- `SERIAL_RPC_SCALAR_ARG_DECODER_`: a `read`, and a look at the error flag. -/
def decodeScalar (read : Reader w → Reader w × α) : Decoder w α := fun args =>
  let (r, value) := read args.reader
  (args.withReader r, if r.error then none else some value)

/-- `read` into an integer of some type. -/
def ArgInt.read (type : ArgInt) (r : Reader w) : Reader w × BitVec type.bits :=
  if type.signed then
    let (r, value) := r.readSigned (Reader.maxSigned type.bits) 0
    (r, .ofInt type.bits value)
  else
    let (r, value) := r.readUnsigned (Reader.maxUnsigned type.bits) 0
    (r, .ofNat type.bits value)

/-- `ArgDecoder<const char *>`. -/
def decodeCstr : Decoder w Nat := fun args =>
  let (r, span) := args.reader.readStr ⟨0, 0⟩
  let args := args.withReader r
  if r.error then (args, none)
  else
    match args.scratchAlloc (span.len + 1) with
    | (args, none) => (args, none)
    | (args, some dst) => (args.copyTo dst (r.bytes span ++ [0]), some dst)

/-- `ArgDecoder<std::string>`. -/
def decodeString : Decoder w (List UInt8) := fun args =>
  let (r, span) := args.reader.readStr ⟨0, 0⟩
  (args.withReader r, if r.error then none else some (r.bytes span))

/-- The loop of `ArgDecoder<std::vector<T>>`, with so many rounds to go. -/
def decodeElements (element : Decoder w α) : Nat → Decoder w (List α)
  | 0, args => (args, some [])
  | n + 1, args =>
      match element args with
      | (args, none) => (args, none)
      | (args, some value) =>
          match decodeElements element n args with
          | (args, none) => (args, none)
          | (args, some values) => (args, some (value :: values))

/-- `ArgDecoder<std::vector<T>>`. -/
def decodeVector (element : Decoder w α) : Decoder w (List α) := fun args =>
  let (r, n) := args.reader.readArray 0
  let args := args.withReader r
  if r.error then (args, none) else decodeElements element n (args.reserve n)

/-- `TupleHelper<I, N>::decode`, with `n` parts to go, and the loop over `out[i]`. -/
def decodeParts : (n : Nat) → {α : Fin n → Type} → ((i : Fin n) → Decoder w (α i)) →
    Decoder w ((i : Fin n) → α i)
  | 0, _, _, args => (args, some fun i => i.elim0)
  | n + 1, _, part, args =>
      match part 0 args with
      | (args, none) => (args, none)
      | (args, some value) =>
          match decodeParts n (fun i => part i.succ) args with
          | (args, none) => (args, none)
          | (args, some values) => (args, some (Fin.cons value values))

/-- An array header that announces `n` elements, and what is decoded behind it. -/
def expectArray (n : Nat) (next : Decoder w α) : Decoder w α := fun args =>
  let (r, announced) := args.reader.readArray 0
  let args := args.withReader r
  if r.error ∨ announced ≠ n then (args, none) else next args

/-- The two parts of a `std::pair`. -/
def decodeBoth (first : Decoder w α) (second : Decoder w β) : Decoder w (α × β) := fun args =>
  match first args with
  | (args, none) => (args, none)
  | (args, some a) =>
      match second args with
      | (args, none) => (args, none)
      | (args, some b) => (args, some (a, b))

/-- `ArgDecoder`, by its specializations. -/
def argDecode : (t : ArgType) → Decoder w t.Val
  | .bool => decodeScalar fun r => r.readBool false
  | .int type => decodeScalar type.read
  | .float => decodeScalar fun r => r.readFloat 0
  | .double => decodeScalar fun r => r.readDouble 0
  | .cstr => decodeCstr
  | .string => decodeString
  | .vector element => decodeVector (argDecode element)
  | .array element n => expectArray n (decodeParts n fun _ => argDecode element)
  | .pair first second => expectArray 2 (decodeBoth (argDecode first) (argDecode second))
  | .tuple n element => expectArray n (decodeParts n fun i => argDecode (element i))

end Decoders

/-! ### `ValuePacker` -/

/-- `pack` of an integer of some type. -/
def ArgInt.pack (type : ArgInt) (value : BitVec type.bits) : PackOp :=
  if type.signed then .int (.ofInt value.toInt) else .uint (.ofNat value.toNat)

/-- `ValuePacker`, by its specializations: the `pack` calls on the writer. -/
def valuePack : (t : ArgType) → t.Owning → t.Val → List PackOp
  | .bool, _, value => [.bool value]
  | .int type, _, value => [type.pack value]
  | .float, _, value => [.float value]
  | .double, _, value => [.double value]
  | .cstr, owning, _ => owning.elim
  | .string, _, value => [.str value]
  | .vector element, owning, value =>
      .array value.length :: value.flatMap (valuePack element owning)
  | .array element n, owning, value =>
      .array n :: (List.finRange n).flatMap fun i => valuePack element owning (value i)
  | .pair first second, owning, value =>
      .array 2 :: (valuePack first owning.1 value.1 ++ valuePack second owning.2 value.2)
  | .tuple n element, owning, value =>
      .array n :: (List.finRange n).flatMap fun i => valuePack (element i) (owning i) (value i)

/-! ### Thunks -/

section Thunks

variable {w : SizeT} {ρ σ β : Type}

/-- `Decode<R, ArgTs...>::call`: `fn` gets the values decoded, and the `Args` as they are
then. `none` when some parameter does not decode. -/
def decodeCall : (ts : List ArgType) → (ArgType.Vals ts → ThunkArgs w → β) → ThunkArgs w →
    Option β
  | [], fn, args => some (fn () args)
  | t :: ts, fn, args =>
      match argDecode t args with
      | (_, none) => none
      | (args, some value) => decodeCall ts (fun values args => fn (value, values) args) args

/-- Code with a result. -/
def Script.map {α : Type} (f : α → β) : Script α → Script β
  | .done a => .done (f a)
  | .notify name args next => .notify name args fun sent => (next sent).map f
  | .log bytes next => .log bytes (next.map f)
  | .logAt level next => .logAt level (next.map f)
  | .attached next => .attached fun is => (next is).map f

/-- A callable `R(ArgTs...)` of the sketch: the values, and the memory that the pointers
among them point into. -/
abbrev Callable (ts : List ArgType) (ρ σ : Type) :=
  ArgType.Vals ts → List UInt8 → σ → Script (ρ × σ)

/-- `Invoke<R>::call`, where `pack` is `ValuePacker<R>::pack`, or `pack_nil` for `void`. -/
def invokeCall {ts : List ArgType} (pack : ρ → List PackOp) (fn : Callable ts ρ σ)
    (values : ArgType.Vals ts) (memory : List UInt8) (sketch : σ) : Script (Answer × σ) :=
  (fn values memory sketch).map fun result => (⟨pack result.1, none⟩, result.2)

/-- What a thunk answers when it does not call. -/
def badArgs : Answer := ⟨[], some (text "bad args")⟩

/-- `TypedThunk`, on the scratch buffer of the server. -/
def typedThunk (scratch : List UInt8) (ts : List ArgType) (pack : ρ → List PackOp)
    (fn : Callable ts ρ σ) : Handler w σ := fun args sketch =>
  if args.size ≠ ts.length then .done (badArgs, sketch)
  else
    let call := fun values args => invokeCall pack fn values args.scratch sketch
    match decodeCall ts call (ThunkArgs.new args scratch) with
    | none => .done (badArgs, sketch)
    | some script => script

/-- `MemberThunk`: the callable is a member function on its object. -/
def memberThunk {ω : Type} (scratch : List UInt8) (ts : List ArgType) (pack : ρ → List PackOp)
    (obj : ω) (mfn : ω → Callable ts ρ σ) : Handler w σ :=
  typedThunk scratch ts pack fun values memory => mfn obj values memory

end Thunks

end SerialRpc

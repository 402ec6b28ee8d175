import SerialRpc.Proofs.Device.Reserving
import SerialRpc.Proofs.Host.Reserving

/-!
# `SerialRpc.Proofs.Reservations`: room for announced sizes

`Value::decode` and the decoder of `std::vector` make room for all that a header announces,
once the header is read. `Covered` says that this was never more than the bytes that were
left. It depends on nothing but the headers that the decoders come to.
-/

set_option autoImplicit false

namespace SerialRpc

open MsgPack Reader

variable {w : SizeT}

/-- No call asked for room for more elements than there were bytes left. -/
def Covered (asked : List Reservation) : Prop := ∀ x ∈ asked, x.count ≤ x.left

/-- The `reserve` calls of `ArgDecoder<T>::decode`. -/
def argReserved (t : ArgType) (args : ThunkArgs w) : List Reservation :=
  (argDecode t { args with reserved := [] }).1.reserved

/-- The room that is left in the scratch buffer. -/
def scratchRoom (args : ThunkArgs w) : Nat := args.scratch.length - args.scratchUsed

/-- On a reader without an error, the calls are the headers of vectors. -/
theorem mem_argReserved_iff {t : ArgType} {args : ThunkArgs w} {asked : Reservation}
    (herror : args.reader.error = false) :
    asked ∈ argReserved t args ↔
      VectorAt w t (scratchRoom args) args.reader.rest asked.count asked.left := by
  have hasked := (decodes_argDecode t).reserves { args with reserved := [] } asked herror
  rwa [or_iff_right List.not_mem_nil] at hasked

/-- A read does not clear the error flag. -/
theorem readArray_error {r : Reader w} (h : r.error = true) (out : Nat) :
    (r.readArray out).1.error = true := by
  rw [readArray_eq, store_answerOf]
  split
  · exact h
  · rfl

/-- On a reader in an error state every container is refused at its header. -/
theorem argReserved_of_error (t : ArgType) {args : ThunkArgs w} (h : args.reader.error = true) :
    argReserved t args = [] := by
  have hheader : (args.reader.readArray 0).1.error = true := readArray_error h 0
  have hexpect {α : Type} (n : Nat) (next : Decoder w α) :
      (expectArray n next { args with reserved := [] }).1.reserved = [] := by
    unfold expectArray
    dsimp only
    rw [if_pos (Or.inl hheader)]
    rfl
  unfold argReserved
  cases t with
  | cstr => exact decodeCstr_reserved _
  | vector element =>
      unfold argDecode decodeVector
      dsimp only
      rw [if_pos hheader]
      rfl
  | array element n => exact hexpect n _
  | pair first second => exact hexpect 2 _
  | tuple n element => exact hexpect n _
  | _ => rfl

/-- Announced sizes are covered just when no header that a decoder comes to announces more
than there are bytes behind it. Nothing else bounds the room. -/
theorem announced_sizes_covered_iff (r : Reader .host64) (t : ArgType) (args : ThunkArgs w) :
    (Covered (Decoding.decode r).reserved ↔
      (r.error = false → ∀ count behind,
        ContainerAt (Value.kMaxDepth + 1) r.rest count behind → count ≤ behind)) ∧
    (Covered (argReserved t args) ↔
      (args.reader.error = false → ∀ count behind,
        VectorAt w t (scratchRoom args) args.reader.rest count behind → count ≤ behind)) := by
  -- The host and the device: on each, what is reserved is read off the headers, or nothing is
  -- because the reader has failed.
  refine ⟨?_, ?_⟩
  · constructor
    · intro hcovered herror count behind hat
      exact hcovered ⟨count, behind⟩ ((Decoding.mem_reserved_iff _ herror).mpr hat)
    · intro hheaders asked hasked
      by_cases herror : r.error
      · rw [Decoding.decode, Decoding.decodeNested, if_pos herror] at hasked
        exact absurd hasked List.not_mem_nil
      · have hno : r.error = false := Bool.eq_false_iff.mpr herror
        exact hheaders hno _ _ ((Decoding.mem_reserved_iff _ hno).mp hasked)
  · constructor
    · intro hcovered herror count behind hat
      exact hcovered ⟨count, behind⟩ ((mem_argReserved_iff herror).mpr hat)
    · intro hheaders asked hasked
      by_cases herror : args.reader.error
      · rw [argReserved_of_error t herror] at hasked
        exact absurd hasked List.not_mem_nil
      · have hno : args.reader.error = false := Bool.eq_false_iff.mpr herror
        exact hheaders hno _ _ ((mem_argReserved_iff hno).mp hasked)

/-- Five bytes ask for room for 2^32 - 1 elements, on the host and on the device. -/
theorem announced_sizes_uncovered :
    ⟨4294967295, 0⟩ ∈
      (Decoding.decode (Reader.new .host64 [0xdd, 0xff, 0xff, 0xff, 0xff])).reserved ∧
    ¬ Covered (Decoding.decode (Reader.new .host64 [0xdd, 0xff, 0xff, 0xff, 0xff])).reserved ∧
    ⟨4294967295, 0⟩ ∈ argReserved (.vector .bool)
      (ThunkArgs.new ⟨Reader.new .board32 [0xdd, 0xff, 0xff, 0xff, 0xff], 1⟩ []) ∧
    ¬ Covered (argReserved (.vector .bool)
      (ThunkArgs.new ⟨Reader.new .board32 [0xdd, 0xff, 0xff, 0xff, 0xff], 1⟩ [])) := by
  have hhost : ⟨4294967295, 0⟩ ∈
      (Decoding.decode (Reader.new .host64 [0xdd, 0xff, 0xff, 0xff, 0xff])).reserved :=
    (Decoding.mem_reserved_iff _ rfl).mpr
      (.header (t := .array 4294967295) (k := 5) (by decide) rfl)
  have hdevice : ⟨4294967295, 0⟩ ∈ argReserved (.vector .bool)
      (ThunkArgs.new ⟨Reader.new .board32 [0xdd, 0xff, 0xff, 0xff, 0xff], 1⟩ []) :=
    (mem_argReserved_iff rfl).mpr (.header (k := 5) trivial (by decide))
  refine ⟨hhost, ?_, hdevice, ?_⟩
  · intro hcovered
    exact absurd (hcovered _ hhost) (by decide)
  · intro hcovered
    exact absurd (hcovered _ hdevice) (by decide)

end SerialRpc

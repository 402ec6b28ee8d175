import SerialRpc.Framing.Demux
import SerialRpc.Lib.Buffer
import SerialRpc.Lib.Cobs

/-!
# `SerialRpc.Framing.Splitter`: what the demultiplexer is for

The abstract model behind the two `Demux` classes. It has no arrays and no indices. A
splitter is between two frames or inside one. Inside, it knows the block read since the
delimiter. It keeps the whole pending line, however long, and cuts it only when the line
is reported.

`verdict` says what a terminated block is. It is stated with COBS decoding on lists
(`Cobs.decode`) and the CRC, not with a buffer.
-/

set_option autoImplicit false

namespace SerialRpc

/-- A decoded block without its CRC, when the CRC is right. -/
def checkCrc (decoded : List UInt8) : Option (List UInt8) :=
  let payload := decoded.take (decoded.length - 2)
  if 2 ≤ decoded.length ∧ decoded.drop (decoded.length - 2) = crcBe payload then some payload
  else none

/-- What a terminated block is. A rejected block carries the bytes that join the pending
line. -/
inductive Verdict where
  | empty
  | ready (payload : List UInt8)
  | cobsError (residue : List UInt8)
  | crcError (decoded : List UInt8)
deriving DecidableEq, Repr

/-- The verdict on a block. Decoding happens over the block itself, so the residue of a
malformed block starts with the bytes that were decoded before the error. -/
def verdict (block : List UInt8) : Verdict :=
  if block = [] then .empty
  else
    match Cobs.decode block with
    | none => .cobsError (Buffer.overwrite block (Cobs.decodePartial block).1)
    | some decoded =>
        match checkCrc decoded with
        | none => .crcError decoded
        | some payload => .ready payload

/-- The state of a splitter. -/
structure Splitter where
  /-- The block since the delimiter, or `none` between frames. -/
  block : Option (List UInt8)
  /-- Every byte of the pending line. -/
  line : List UInt8
  pendingCr : Bool
  crcErrors : UInt32
  cobsErrors : UInt32
  overflowErrors : UInt32
deriving DecidableEq

namespace Splitter

/-- Before the first byte. -/
def new : Splitter where
  block := none
  line := []
  pendingCr := false
  crcErrors := 0
  cobsErrors := 0
  overflowErrors := 0

/-- A reported line: the first `lineMax - 1` bytes, and whether that cut it. -/
def cut (lineMax : Nat) (line : List UInt8) : Report :=
  .textLine (line.take (lineMax - 1)) (decide (lineMax - 1 < line.length))

/-- A byte between frames. -/
def text (lineMax : Nat) (s : Splitter) (b : UInt8) : Splitter × Option Report :=
  if b = 0 then ({ s with block := some [] }, none)
  else if b = cr then ({ s with line := [], pendingCr := true }, some (cut lineMax s.line))
  else if b = lf then
    if s.pendingCr then ({ s with pendingCr := false }, none)
    else ({ s with line := [] }, some (cut lineMax s.line))
  else ({ s with line := s.line ++ [b], pendingCr := false }, none)

/-- The delimiter that ends `block`. -/
def terminate (s : Splitter) (block : List UInt8) : Splitter × Option Report :=
  match verdict block with
  | .empty => ({ s with block := some [] }, none)
  | .ready payload => ({ s with block := none }, some (.frame payload))
  | .cobsError residue =>
      ({ s with block := some [], line := s.line ++ residue, cobsErrors := s.cobsErrors + 1 },
        none)
  | .crcError decoded =>
      ({ s with block := some [], line := s.line ++ decoded, crcErrors := s.crcErrors + 1 },
        none)

/-- A byte inside a frame, behind `block`. A block that outgrows `frameMax` is given up: it
joins the pending line, and the byte is read as text. -/
def collect (frameMax lineMax : Nat) (s : Splitter) (block : List UInt8) (b : UInt8) :
    Splitter × Option Report :=
  if b ≠ 0 then
    if frameMax ≤ block.length then
      { s with
          block := none
          line := s.line ++ block
          overflowErrors := s.overflowErrors + 1 }.text lineMax b
    else ({ s with block := some (block ++ [b]) }, none)
  else s.terminate block

/-- One byte. -/
def step (frameMax lineMax : Nat) (s : Splitter) (b : UInt8) : Splitter × Option Report :=
  match s.block with
  | none => s.text lineMax b
  | some block => s.collect frameMax lineMax block b

end Splitter

/-- The splitter as a machine. -/
def splitter (frameMax lineMax : Nat) : Mealy Splitter UInt8 (Option Report) where
  step := Splitter.step frameMax lineMax

end SerialRpc

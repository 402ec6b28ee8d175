import SerialRpc.Framing.Codec
import SerialRpc.Lib.Mealy

/-!
# `SerialRpc.Framing.Demux`: the text/frame demultiplexer

`Demux<FrameMax, LineMax>` of `src/serial_rpc/framing.h` and its specialization for
`LineMax == 0`, one definition for each member function. The template parameters and
their `static_assert`s are the fields of `DemuxSize`, so a `Demux` of a size the C++ code
rejects has no type here.

`demux` and `demuxNoText` are the two classes as machines over the bytes fed. The output
for a byte is what `data()`, `size()` and `truncated()` say right after `feed` returned an
event.
-/

set_option autoImplicit false

namespace SerialRpc

/-- `DemuxEvent`. -/
inductive DemuxEvent where
  | none
  | textLine
  | frame
deriving DecidableEq, Repr

/-- What the caller of `feed` reads off after an event. -/
inductive Report where
  | textLine (line : List UInt8) (truncated : Bool)
  | frame (payload : List UInt8)
deriving DecidableEq, Repr

/-- `Demux::State`. -/
inductive DemuxState where
  | text
  | frame
deriving DecidableEq, Repr

/-- The template parameters of the primary `Demux`, with its two `static_assert`s. -/
structure DemuxSize where
  frameMax : Nat
  lineMax : Nat
  frameMax_pos : 0 < frameMax
  lineMax_pos : 0 < lineMax

/-- `Demux<FrameMax, LineMax>`. -/
structure Demux (sz : DemuxSize) where
  state : DemuxState
  frameBuf : List UInt8
  /-- Bytes collected in FRAME state so far. -/
  frameLen : Nat
  /-- Decoded payload length of the last `frame` event. -/
  frameSize : Nat
  lineBuf : List UInt8
  /-- Bytes accumulated for the in-progress line. -/
  lineLen : Nat
  lastLineLen : Nat
  lineTruncated : Bool
  lastLineTruncated : Bool
  /-- A lone `\r` is holding, waiting to see if `\n` follows. -/
  pendingCr : Bool
  lastWasFrame : Bool
  crcErrors : UInt32
  cobsErrors : UInt32
  overflowErrors : UInt32
deriving DecidableEq

/-- `\n`. -/
def lf : UInt8 := 0x0a

/-- `\r`. -/
def cr : UInt8 := 0x0d

namespace Demux

variable {sz : DemuxSize}

/-- The constructor. It leaves the two arrays uninitialised apart from the first line
byte. They are zeros here, and nothing reads a byte before it was written. -/
def new (sz : DemuxSize) : Demux sz where
  state := .text
  frameBuf := List.replicate sz.frameMax 0
  frameLen := 0
  frameSize := 0
  lineBuf := List.replicate sz.lineMax 0
  lineLen := 0
  lastLineLen := 0
  lineTruncated := false
  lastLineTruncated := false
  pendingCr := false
  lastWasFrame := false
  crcErrors := 0
  cobsErrors := 0
  overflowErrors := 0

/-- `reset`: the error counters are left untouched. -/
def reset (d : Demux sz) : Demux sz :=
  { d with
      state := .text
      frameLen := 0
      frameSize := 0
      lineLen := 0
      lastLineLen := 0
      lineTruncated := false
      lastLineTruncated := false
      pendingCr := false
      lastWasFrame := false
      lineBuf := d.lineBuf.set 0 0 }

/-- `data()` and `size()` together. -/
def data (d : Demux sz) : List UInt8 :=
  if d.lastWasFrame then d.frameBuf.take d.frameSize else d.lineBuf.take d.lastLineLen

/-- `truncated`. -/
def truncated (d : Demux sz) : Bool := d.lastLineTruncated

/-- `append_line_byte_`. -/
def appendLineByte (d : Demux sz) (b : UInt8) : Demux sz :=
  if sz.lineMax ≤ d.lineLen + 1 then { d with lineTruncated := true }
  else { d with lineBuf := d.lineBuf.set d.lineLen b, lineLen := d.lineLen + 1 }

/-- `emit_line_`. -/
def emitLine (d : Demux sz) : Demux sz × DemuxEvent :=
  ({ d with
      lineBuf := d.lineBuf.set d.lineLen 0
      lastLineLen := d.lineLen
      lastLineTruncated := d.lineTruncated
      lineLen := 0
      lineTruncated := false
      lastWasFrame := false }, .textLine)

/-- `push_back_frame_as_text_`. -/
def pushBackFrameAsText (d : Demux sz) (len : Nat) : Demux sz :=
  (d.frameBuf.take len).foldl appendLineByte d

/-- `feed_text_`. -/
def feedText (d : Demux sz) (b : UInt8) : Demux sz × DemuxEvent :=
  if b = 0 then ({ d with state := .frame, frameLen := 0 }, .none)
  else if b = cr then
    let r := d.emitLine
    ({ r.1 with pendingCr := true }, r.2)
  else if b = lf then
    if d.pendingCr then ({ d with pendingCr := false }, .none) else d.emitLine
  else ({ d with pendingCr := false }.appendLineByte b, .none)

/-- `feed_frame_`. -/
def feedFrame (d : Demux sz) (b : UInt8) : Demux sz × DemuxEvent :=
  if b ≠ 0 then
    if sz.frameMax ≤ d.frameLen then
      let d : Demux sz := { d with overflowErrors := d.overflowErrors + 1 }
      let d := d.pushBackFrameAsText d.frameLen
      let d : Demux sz := { d with state := .text, frameLen := 0 }
      d.feedText b
    else
      ({ d with frameBuf := d.frameBuf.set d.frameLen b, frameLen := d.frameLen + 1 }, .none)
  else
    let v := decodeAndValidateFrame d.frameBuf d.frameLen sz.frameMax
    let d : Demux sz := { d with frameBuf := v.buf }
    match v.outcome with
    | .empty => ({ d with frameLen := 0 }, .none)
    | .ready => ({ d with frameSize := v.outLen, lastWasFrame := true, state := .text }, .frame)
    | .cobsError =>
        let d : Demux sz := { d with cobsErrors := d.cobsErrors + 1 }
        ({ d.pushBackFrameAsText v.outLen with frameLen := 0 }, .none)
    | .crcError =>
        let d : Demux sz := { d with crcErrors := d.crcErrors + 1 }
        ({ d.pushBackFrameAsText v.outLen with frameLen := 0 }, .none)

/-- `feed`. -/
def feed (d : Demux sz) (b : UInt8) : Demux sz × DemuxEvent :=
  match d.state with
  | .text => d.feedText b
  | .frame => d.feedFrame b

/-- What the caller sees of an event. -/
def report (d : Demux sz) : DemuxEvent → Option Report
  | .none => Option.none
  | .textLine => some (.textLine d.data d.truncated)
  | .frame => some (.frame d.data)

end Demux

/-- The demultiplexer as a machine: one report, or none, for each byte. -/
def demux (sz : DemuxSize) : Mealy (Demux sz) UInt8 (Option Report) where
  step d b := ((d.feed b).1, (d.feed b).1.report (d.feed b).2)

/-! ### The specialization for `LineMax == 0` -/

/-- `Demux<FrameMax, 0>`. -/
structure DemuxNoText (frameMax : Nat) where
  state : DemuxState
  frameBuf : List UInt8
  frameLen : Nat
  frameSize : Nat
  crcErrors : UInt32
  cobsErrors : UInt32
  overflowErrors : UInt32
deriving DecidableEq

namespace DemuxNoText

variable {frameMax : Nat}

/-- The constructor. -/
def new (frameMax : Nat) : DemuxNoText frameMax where
  state := .text
  frameBuf := List.replicate frameMax 0
  frameLen := 0
  frameSize := 0
  crcErrors := 0
  cobsErrors := 0
  overflowErrors := 0

/-- `reset`. -/
def reset (d : DemuxNoText frameMax) : DemuxNoText frameMax :=
  { d with state := .text, frameLen := 0, frameSize := 0 }

/-- `data()` and `size()` together. -/
def data (d : DemuxNoText frameMax) : List UInt8 := d.frameBuf.take d.frameSize

/-- `feed_text_`: every byte but the frame delimiter is dropped. -/
def feedText (d : DemuxNoText frameMax) (b : UInt8) : DemuxNoText frameMax × DemuxEvent :=
  if b = 0 then ({ d with state := .frame, frameLen := 0 }, .none) else (d, .none)

/-- `feed_frame_`. -/
def feedFrame (d : DemuxNoText frameMax) (b : UInt8) : DemuxNoText frameMax × DemuxEvent :=
  if b ≠ 0 then
    if frameMax ≤ d.frameLen then
      { d with
          overflowErrors := d.overflowErrors + 1
          state := .text
          frameLen := 0 }.feedText b
    else
      ({ d with frameBuf := d.frameBuf.set d.frameLen b, frameLen := d.frameLen + 1 }, .none)
  else
    let v := decodeAndValidateFrame d.frameBuf d.frameLen frameMax
    let d : DemuxNoText frameMax := { d with frameBuf := v.buf }
    match v.outcome with
    | .empty => ({ d with frameLen := 0 }, .none)
    | .ready => ({ d with frameSize := v.outLen, state := .text }, .frame)
    | .cobsError => ({ d with cobsErrors := d.cobsErrors + 1, frameLen := 0 }, .none)
    | .crcError => ({ d with crcErrors := d.crcErrors + 1, frameLen := 0 }, .none)

/-- `feed`. -/
def feed (d : DemuxNoText frameMax) (b : UInt8) : DemuxNoText frameMax × DemuxEvent :=
  match d.state with
  | .text => d.feedText b
  | .frame => d.feedFrame b

/-- What the caller sees of an event. `feed` never answers `text_line`. -/
def report (d : DemuxNoText frameMax) : DemuxEvent → Option Report
  | .none => Option.none
  | .textLine => Option.none
  | .frame => some (.frame d.data)

end DemuxNoText

/-- The specialization as a machine. -/
def demuxNoText (frameMax : Nat) : Mealy (DemuxNoText frameMax) UInt8 (Option Report) where
  step d b := ((d.feed b).1, (d.feed b).1.report (d.feed b).2)

/-! ### Feeding and resetting -/

/-- What a caller does to a demultiplexer. -/
inductive DemuxInput where
  | feed (b : UInt8)
  | reset
deriving DecidableEq, Repr

/-- The demultiplexer, fed and reset at will. -/
def demuxInputs (sz : DemuxSize) : Mealy (Demux sz) DemuxInput (Option Report) where
  step d
    | .feed b => (demux sz).step d b
    | .reset => (d.reset, none)

/-- The specialization, fed and reset at will. -/
def demuxNoTextInputs (frameMax : Nat) :
    Mealy (DemuxNoText frameMax) DemuxInput (Option Report) where
  step d
    | .feed b => (demuxNoText frameMax).step d b
    | .reset => (d.reset, none)

end SerialRpc

import SerialRpc.Lib.Decimal
import SerialRpc.Msgpack.Writer

/-!
# `SerialRpc.Host.Termios`: the settings of a port

`SerialPort::Config`, `validate`, and what `apply_config` makes of the settings of a terminal, in
the POSIX half of `extras/host/include/serialport.hpp`. The constants of `termios.h` are those of
Linux. There the speeds are part of `c_cflag`; here they are fields of their own.
-/

set_option autoImplicit false

namespace SerialRpc

/-! ### `termios.h` -/

/-- `struct termios`. -/
structure Termios where
  iflag : BitVec 32
  oflag : BitVec 32
  cflag : BitVec 32
  lflag : BitVec 32
  cc : Fin 32 → UInt8
  ispeed : BitVec 32
  ospeed : BitVec 32

namespace Termios

def IGNBRK : BitVec 32 := 0x1#32
def BRKINT : BitVec 32 := 0x2#32
def PARMRK : BitVec 32 := 0x8#32
def ISTRIP : BitVec 32 := 0x20#32
def INLCR : BitVec 32 := 0x40#32
def IGNCR : BitVec 32 := 0x80#32
def ICRNL : BitVec 32 := 0x100#32
def IXON : BitVec 32 := 0x400#32
def IXANY : BitVec 32 := 0x800#32
def IXOFF : BitVec 32 := 0x1000#32

def OPOST : BitVec 32 := 0x1#32

def CSIZE : BitVec 32 := 0x30#32
def CS5 : BitVec 32 := 0x00#32
def CS6 : BitVec 32 := 0x10#32
def CS7 : BitVec 32 := 0x20#32
def CS8 : BitVec 32 := 0x30#32
def CSTOPB : BitVec 32 := 0x40#32
def CREAD : BitVec 32 := 0x80#32
def PARENB : BitVec 32 := 0x100#32
def PARODD : BitVec 32 := 0x200#32
def HUPCL : BitVec 32 := 0x400#32
def CLOCAL : BitVec 32 := 0x800#32
def CRTSCTS : BitVec 32 := 0x80000000#32

def ISIG : BitVec 32 := 0x1#32
def ICANON : BitVec 32 := 0x2#32
def ECHO : BitVec 32 := 0x8#32
def ECHOE : BitVec 32 := 0x10#32
def ECHONL : BitVec 32 := 0x40#32
def IEXTEN : BitVec 32 := 0x8000#32

def VINTR : Fin 32 := 0
def VQUIT : Fin 32 := 1
def VERASE : Fin 32 := 2
def VKILL : Fin 32 := 3
def VEOF : Fin 32 := 4
def VTIME : Fin 32 := 5
def VMIN : Fin 32 := 6
def VSTART : Fin 32 := 8
def VSTOP : Fin 32 := 9
def VSUSP : Fin 32 := 10
def VEOL : Fin 32 := 11
def VREPRINT : Fin 32 := 12
def VDISCARD : Fin 32 := 13
def VWERASE : Fin 32 := 14
def VLNEXT : Fin 32 := 15
def VEOL2 : Fin 32 := 16

/-- `_POSIX_VDISABLE`. -/
def VDISABLE : UInt8 := 0

/-- What `cfsetispeed` and `cfsetospeed` take as a speed. The others are `EINVAL`. -/
def IsSpeed (code : BitVec 32) : Prop :=
  code &&& ~~~0x100f#32 = 0#32 ∨ 0x1001#32 ≤ code ∧ code ≤ 0x100f#32

instance (code : BitVec 32) : Decidable (IsSpeed code) := instDecidableOr

/-- `cfsetispeed`. -/
def cfsetispeed (options : Termios) (code : BitVec 32) : Option Termios :=
  if IsSpeed code then some { options with ispeed := code } else none

/-- `cfsetospeed`. -/
def cfsetospeed (options : Termios) (code : BitVec 32) : Option Termios :=
  if IsSpeed code then some { options with ospeed := code } else none

end Termios

/-! ### Configurations -/

namespace SerialPort

/-- `SerialPort::Parity`. -/
inductive Parity where
  | none
  | even
  | odd
deriving DecidableEq, Repr

/-- `SerialPort::FlowControl`. -/
inductive FlowControl where
  | none
  | software
  | hardware
deriving DecidableEq, Repr

/-- `SerialPort::Config`. -/
structure Config where
  baudRate : Nat := 57600
  dataBits : Nat := 8
  stopBits : Nat := 1
  parity : Parity := .none
  flowControl : FlowControl := .none
  canonicalMode : Bool := false
  hangupOnClose : Bool := true
  exclusive : Bool := true
  /-- In milliseconds. -/
  timeout : Int := -1
  bufferSize : Nat := 1024
  maxLineLength : Nat := 65536
deriving DecidableEq, Repr

/-- The `std::errc` codes that setting a port up uses. -/
inductive SetupErrc where
  | invalidArgument
  | badFileDescriptor
deriving DecidableEq, Repr

/-- What the setup and control methods throw. -/
inductive SetupError where
  /-- `std::invalid_argument`. -/
  | invalidArgument (what : List UInt8)
  /-- `throw_native`. -/
  | native (errorNumber : Int) (what : List UInt8)
  /-- `throw_generic`. -/
  | generic (code : SetupErrc) (what : List UInt8)
deriving DecidableEq, Repr

/-- `BaudRates`: each rate with its code. -/
def BaudRates : List (Nat × BitVec 32) :=
  [(50, 0x1), (75, 0x2), (110, 0x3), (134, 0x4), (150, 0x5), (200, 0x6), (300, 0x7), (600, 0x8),
    (1200, 0x9), (1800, 0xa), (2400, 0xb), (4800, 0xc), (9600, 0xd), (19200, 0xe), (38400, 0xf),
    (57600, 0x1001), (115200, 0x1002), (230400, 0x1003), (460800, 0x1004), (500000, 0x1005),
    (576000, 0x1006), (921600, 0x1007), (1000000, 0x1008), (1152000, 0x1009), (1500000, 0x100a),
    (2000000, 0x100b), (2500000, 0x100c), (3000000, 0x100d), (3500000, 0x100e), (4000000, 0x100f)]

/-- `baud_code`. -/
def baudCode (rate : Nat) : Option (BitVec 32) := BaudRates.lookup rate

/-- `baud_rate_supported`, without `SERIALPORT_HAS_CUSTOM_SPEED`. -/
def baudRateSupported (rate : Nat) : Bool := (baudCode rate).isSome

/-- `validate`: what it throws. -/
def validate (config : Config) (port : List UInt8) : Option SetupError :=
  let whereTo := text " for " ++ port
  if port.isEmpty then some (.invalidArgument (text "SerialPort: empty port name"))
  else if config.dataBits < 5 ∨ 8 < config.dataBits then
    some (.invalidArgument (text "SerialPort: data bits must be 5 to 8" ++ whereTo))
  else if config.stopBits ≠ 1 ∧ config.stopBits ≠ 2 then
    some (.invalidArgument (text "SerialPort: stop bits must be 1 or 2" ++ whereTo))
  else if config.maxLineLength = 0 then
    some (.invalidArgument (text "SerialPort: zero max line length" ++ whereTo))
  else if !baudRateSupported config.baudRate then
    some (.invalidArgument (text "SerialPort: unsupported baud rate " ++
      Decimal.numeral config.baudRate ++ whereTo))
  else none

end SerialPort

/-! ### `apply_config` -/

namespace Termios

open SerialPort

/-- The bits of `CSIZE` for the data bits. -/
def sizeBits : Nat → BitVec 32
  | 5 => CS5
  | 6 => CS6
  | 7 => CS7
  | _ => CS8

/-- The characters that `apply_config` always disables. -/
def disabled : List (Fin 32) :=
  [VEOF, VEOL, VEOL2, VERASE, VWERASE, VKILL, VREPRINT, VINTR, VQUIT, VSUSP, VLNEXT, VDISCARD]

/-- What `apply_config` makes of `c_iflag`. -/
def inputFlags (original : BitVec 32) (config : Config) : BitVec 32 :=
  let flags := original &&& ~~~(IGNBRK ||| BRKINT ||| PARMRK ||| ISTRIP ||| INLCR ||| IGNCR |||
    ICRNL ||| IXON)
  let flags := flags &&& ~~~(IXON ||| IXOFF ||| IXANY)
  match config.flowControl with
  | .software => flags ||| (IXON ||| IXOFF)
  | .hardware => flags
  | .none => flags

/-- What it makes of `c_cflag`, up to the frame format. -/
def frameFlags (original : BitVec 32) (config : Config) : BitVec 32 :=
  let flags := original ||| (CREAD ||| CLOCAL)
  let flags := (flags &&& ~~~CSIZE) ||| sizeBits config.dataBits
  let flags := if config.stopBits = 2 then flags ||| CSTOPB else flags &&& ~~~CSTOPB
  match config.parity with
  | .even => (flags ||| PARENB) &&& ~~~PARODD
  | .odd => flags ||| (PARENB ||| PARODD)
  | .none => flags &&& ~~~(PARENB ||| PARODD)

/-- The whole of `c_cflag`. -/
def controlFlags (original : BitVec 32) (config : Config) : BitVec 32 :=
  let flags := frameFlags original config
  let flags := if config.hangupOnClose then flags ||| HUPCL else flags &&& ~~~HUPCL
  let flags := flags &&& ~~~CRTSCTS
  match config.flowControl with
  | .software => flags
  | .hardware => flags ||| CRTSCTS
  | .none => flags

/-- What it makes of `c_lflag`. -/
def localFlags (original : BitVec 32) (config : Config) : BitVec 32 :=
  let flags := original &&& ~~~(ECHO ||| ECHOE ||| ECHONL ||| ICANON ||| ISIG ||| IEXTEN)
  if config.canonicalMode then flags ||| ICANON else flags

/-- What it makes of `c_cc`. -/
def controlChars (original : Fin 32 → UInt8) (config : Config) : Fin 32 → UInt8 :=
  let chars := disabled.foldl (fun chars i => Function.update chars i VDISABLE) original
  let chars :=
    if config.flowControl ≠ .software then
      Function.update (Function.update chars VSTART VDISABLE) VSTOP VDISABLE
    else Function.update (Function.update chars VSTART (original VSTART)) VSTOP (original VSTOP)
  Function.update (Function.update chars VMIN 0) VTIME 0

/-- The settings that `apply_config` asks the terminal for, `none` where a speed is not taken. -/
def requested (original : Termios) (config : Config) : Option Termios :=
  let options : Termios :=
    { original with
        iflag := inputFlags original.iflag config
        oflag := original.oflag &&& ~~~OPOST
        cflag := controlFlags original.cflag config
        lflag := localFlags original.lflag config
        cc := controlChars original.cc config }
  match baudCode config.baudRate with
  | none => some options
  | some code => (options.cfsetispeed code).bind fun options => options.cfsetospeed code

/-- The bits of `c_cflag` that `apply_config` reads back. -/
def frameMask : BitVec 32 := CSIZE ||| CSTOPB ||| PARENB ||| PARODD

end Termios

end SerialRpc

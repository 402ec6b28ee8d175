import SerialRpc.Proofs.Framing.RoundTrip
import SerialRpc.Proofs.Framing.Recovery
import SerialRpc.Proofs.Framing.Agreement
import SerialRpc.Proofs.Framing.Crc
import SerialRpc.Proofs.Framing.Interleaving
import SerialRpc.Proofs.Framing.InPlace
import SerialRpc.Proofs.Framing.Streaming
import SerialRpc.Proofs.Msgpack.Sticky
import SerialRpc.Proofs.Msgpack.Integers
import SerialRpc.Proofs.Msgpack.Atomic
import SerialRpc.Proofs.Host.Pumping
import SerialRpc.Proofs.Host.Value
import SerialRpc.Proofs.Host.Skipping
import SerialRpc.Proofs.Host.Conversions
import SerialRpc.Proofs.Host.Matching
import SerialRpc.Proofs.Device.Requests
import SerialRpc.Proofs.Device.Attachment
import SerialRpc.Proofs.Device.Logging
import SerialRpc.Proofs.Device.Backends
import SerialRpc.Proofs.Capacity
import SerialRpc.Proofs.Paging
import SerialRpc.Proofs.ListPages
import SerialRpc.Proofs.Host.IoWorker
import SerialRpc.Proofs.Host.Nesting
import SerialRpc.Proofs.Host.Json
import SerialRpc.Proofs.Host.IoThread
import SerialRpc.Proofs.Device.Codecs
import SerialRpc.Proofs.Device.Typed
import SerialRpc.Proofs.Device.Timeout
import SerialRpc.Proofs.Reservations
import SerialRpc.Proofs.Host.CommandLine
import SerialRpc.Proofs.Msgpack.Narrowing
import SerialRpc.Proofs.Host.ReadLine
import SerialRpc.Proofs.Device.Signature
import SerialRpc.Proofs.Host.Rendering
import SerialRpc.Host.Posix
import SerialRpc.Proofs.Host.Posix
import SerialRpc.Proofs.Host.NativeReads
import SerialRpc.Proofs.Host.Writing
import SerialRpc.Proofs.ShortWrites
import SerialRpc.Proofs.Wired
import SerialRpc.Proofs.Responses
import SerialRpc.Proofs.Attaching
import SerialRpc.Proofs.Delivery
import SerialRpc.Proofs.Host.Terminals

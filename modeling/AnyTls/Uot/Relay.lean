import AnyTls.Library.Transition
import AnyTls.Proxy.StreamReader
import AnyTls.Uot.Packet

/-! The UDP-over-TCP relay loops: `handle_uot_datagram_stream` and
`handle_uot_connected_stream` of `bin/server.rs`, and `handle_udp_associate` of
`client_runner.rs`. Each runs a `select!` over `uot_get_packet_from_stream` and other
branches; a branch that wins drops the packet future, whose position in the packet
and held bytes are gone, while the `StreamReader` keeps its read of the stream. -/
namespace AnyTls

inductive RelayKind (Address : Type) where
  | datagramStream
  | connectedStream (destination : Address)
  | udpAssociate

variable {Address : Type}

def RelayKind.mode : RelayKind Address → UotMode
  | .datagramStream | .udpAssociate => .datagram
  | .connectedStream _ => .connected

/-- Where a decoded packet goes; `none` is the failing `expect`. -/
def RelayKind.route : RelayKind Address → Option Address × Bytes → Option (Address × Bytes)
  | .datagramStream, (destination, payload) => destination.map fun destination => (destination, payload)
  | .connectedStream destination, (_, payload) => some (destination, payload)
  | .udpAssociate, (source, payload) => source.map fun source => (source, payload)

/-- The loop between two branches, in the packet branch, or past its end. -/
inductive RelayStatus (Address : Type) where
  | selecting
  | received (packet : Option Address × Bytes)
  | sending (datagram : Address × Bytes)
  | ended (result : Except IoError Unit)
  | panicked

structure Relay (Address : Type) where
  kind : RelayKind Address
  pipe : PipeInner
  readFut : ReadFut
  /-- the packet future: its program and the bytes of its read in progress -/
  decoder : ReadProgram IoError (Option Address × Bytes)
  held : Bytes
  status : RelayStatus Address
  /-- the port of `incoming_addr` -/
  incomingPort : Nat
  forwarded : List (Address × Bytes)
  /-- history: the stream's bytes, those the packet futures have taken from the
  reader, and those among them that the current future has taken -/
  arrived : Bytes
  consumed : Bytes
  taken : Bytes

inductive RelayAction where
  /-- `push_data` of the session -/
  | push (data : Bytes)
  /-- the peer or the session ends the stream -/
  | finish (error : Option IoError)
  /-- the task of `close_with_error` -/
  | pipeClose
  | poll
  /-- the packet branch, up to the send of its datagram -/
  | handle
  | sent (result : Except IoError Unit)
  /-- the approval check of the servers -/
  | tick (approved : Bool)
  /-- an inbound UDP datagram, encoded and written to the stream -/
  | inbound (result : Except IoError Unit)
  /-- a SOCKS UDP datagram, encoded and written to the stream -/
  | socks (frag : UInt8) (port : Nat) (result : Except IoError Unit)
  | replyClosed (result : Except IoError Unit)

def isErrorOfSessionBroken (error : IoError) : Bool :=
  error.kind = .unexpectedEof || error.kind = .brokenPipe

namespace Relay

/-- A new packet future. -/
def restart (codec : AddressCodec Address) (s : Relay Address) : Relay Address :=
  { s with
    decoder := ((uotGetPacketFromStream codec s.kind.mode).feed []).1
    held := []
    taken := []
    status := .selecting }

/-- A loop takes over a reader with no read in progress; what it has left in the
pipe is the beginning of the loop's input. -/
def start (codec : AddressCodec Address) (kind : RelayKind Address) (pipe : PipeInner) :
    Relay Address where
  kind := kind
  pipe := pipe
  readFut := none
  decoder := ((uotGetPacketFromStream codec kind.mode).feed []).1
  held := []
  status := .selecting
  incomingPort := 0
  forwarded := []
  arrived := pipe.unread .start
  consumed := []
  taken := []

/-- A branch ends: the loop goes round, or a `?` leaves it. -/
def continueWith (codec : AddressCodec Address) (s : Relay Address) :
    Except IoError Unit → Relay Address
  | .ok () => s.restart codec
  | .error error => { s with status := .ended (.error error) }

/-- The packet branch on an error of the packet future. -/
def packetError (s : Relay Address) (error : IoError) : Relay Address :=
  match s.kind with
  | .udpAssociate => { s with status := .ended (.error error) }
  | _ =>
    if isErrorOfSessionBroken error then { s with status := .ended (.ok ()) }
    else { s with status := .ended (.error error) }

/-- The loop after a poll of the packet future. -/
def took (s : Relay Address) (pipe : PipeInner) (readFut : ReadFut) (bytes : Bytes)
    (polled : Polled (Option Address × Bytes)) : Relay Address :=
  let s := { s with pipe, readFut, consumed := s.consumed ++ bytes, taken := s.taken ++ bytes }
  match polled with
  | .pending decoder held => { s with decoder, held }
  | .done packet => { s with status := .received packet }
  | .failed error => s.packetError error
  | .panicked => { s with status := .panicked }

def poll (s : Relay Address) : Option (Relay Address) :=
  (pollProgram s.pipe s.readFut s.decoder s.held).map fun (pipe, readFut, bytes, polled) =>
    s.took pipe readFut bytes polled

/-- The packet branch: the client drops the packet while no SOCKS datagram has told
it where to send to. -/
def handle (codec : AddressCodec Address) (s : Relay Address) (packet : Option Address × Bytes) :
    Relay Address :=
  match s.kind, s.incomingPort with
  | .udpAssociate, 0 => s.restart codec
  | _, _ =>
    match s.kind.route packet with
    | some datagram => { s with status := .sending datagram }
    | none => { s with status := .panicked }

/-- A step of a loop. Branches other than the packet one win only while the loop
waits in its `select!`. -/
def step (codec : AddressCodec Address) (s : Relay Address) : RelayAction → Option (Relay Address)
  | .push data =>
    match s.pipe.write data with
    | (.ok _, pipe) => some { s with pipe, arrived := s.arrived ++ data }
    | (.error _, _) => some s
  | .finish error => some { s with pipe := s.pipe.finishStream error }
  | .pipeClose => some { s with pipe := s.pipe.closeWithError none }
  | .poll =>
    match s.status with
    | .selecting => s.poll
    | _ => none
  | .handle =>
    match s.status with
    | .received packet => some (s.handle codec packet)
    | _ => none
  | .sent result =>
    match s.status with
    | .sending datagram =>
      match result with
      | .ok () => some ({ s with forwarded := s.forwarded ++ [datagram] }.restart codec)
      | .error error => some { s with status := .ended (.error error) }
    | _ => none
  | .tick approved =>
    match s.kind, s.status with
    | .udpAssociate, _ => none
    | _, .selecting => some (if approved then s.restart codec else { s with status := .ended (.ok ()) })
    | _, _ => none
  | .inbound result =>
    match s.kind, s.status with
    | .udpAssociate, _ => none
    | _, .selecting => some (s.continueWith codec result)
    | _, _ => none
  | .socks frag port result =>
    match s.kind, s.status with
    | .udpAssociate, .selecting =>
      if frag ≠ 0 then
        some { s with
          status := .ended (.error ⟨.invalidData, "UDP fragmentation is not supported"⟩) }
      else some ({ s with incomingPort := port }.continueWith codec result)
    | _, _ => none
  | .replyClosed result =>
    match s.kind, s.status with
    | .udpAssociate, .selecting => some { s with status := .ended result }
    | _, _ => none

end Relay

end AnyTls

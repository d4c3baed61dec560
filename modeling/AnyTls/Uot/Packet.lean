import AnyTls.Core.Io
import AnyTls.Core.Frame
import AnyTls.Library.ReadProgram

/-! UDP-over-TCP packets of `uot/mod.rs`. SOCKS addresses belong to another crate:
their encoding and the program that reads one from a stream are arguments. -/
namespace AnyTls

inductive UotMode where
  | datagram | connected
deriving DecidableEq, Repr

def UotMode.tryFrom (value : UInt8) : Except IoError UotMode :=
  match value with
  | 0 => .ok .datagram
  | 1 => .ok .connected
  | other => .error ⟨.invalidData, s!"invalid UOT mode: {other}"⟩

def UotMode.toU8 : UotMode → UInt8
  | .datagram => 0
  | .connected => 1

/-- What `socks5_impl` provides for addresses. -/
structure AddressCodec (Address : Type) where
  writeToBuf : Address → Bytes
  retrieve : ReadProgram IoError Address
  /-- the domain name of a domain address -/
  domain : Address → Option String

def V2_MAGIC_ADDRESS : String := "sp.v2.udp-over-tcp.arpa"

variable {Address : Type}

def uotIsSentinelDestination (codec : AddressCodec Address) (address : Address) : Bool :=
  codec.domain address = some V2_MAGIC_ADDRESS

structure UotRequest (Address : Type) where
  mode : UotMode
  destination : Address

def readU8 : ReadProgram IoError UInt8 := .read 1 fun bytes => .done (bytes.headD 0)

def readU16 : ReadProgram IoError Nat := .read 2 fun bytes => .done (BigEndian.value bytes)

def readExact (count : Nat) : ReadProgram IoError Bytes := .read count .done

def UotRequest.toBytes (codec : AddressCodec Address) (request : UotRequest Address) : Bytes :=
  request.mode.toU8 :: codec.writeToBuf request.destination

def uotGetRequestFromStream (codec : AddressCodec Address) : ReadProgram IoError (UotRequest Address) :=
  readU8.bind fun byte =>
    match UotMode.tryFrom byte with
    | .error error => .fail error
    | .ok mode => codec.retrieve.bind fun destination => .done ⟨mode, destination⟩

def uotEncodePacket (codec : AddressCodec Address) (mode : UotMode) (destination : Option Address)
    (payload : Bytes) : Except IoError Bytes :=
  if payload.length > 65535 then .error ⟨.invalidInput, "UOT packet too large"⟩
  else
    match mode with
    | .datagram =>
      match destination with
      | none => .error ⟨.invalidInput, "Datagram mode requires a destination"⟩
      | some destination =>
        .ok (codec.writeToBuf destination ++ BigEndian.bytes 2 (payload.length % 2 ^ 16) ++ payload)
    | .connected =>
      match destination with
      | some _ => .error ⟨.invalidInput, "Connected mode does not allow a destination"⟩
      | none => .ok (BigEndian.bytes 2 (payload.length % 2 ^ 16) ++ payload)

/-- The length-prefixed payload that ends a packet in either mode. -/
def uotPayload : ReadProgram IoError Bytes := readU16.bind readExact

def uotGetPacketFromStream (codec : AddressCodec Address) (mode : UotMode) :
    ReadProgram IoError (Option Address × Bytes) :=
  match mode with
  | .datagram => codec.retrieve.bind fun destination =>
      uotPayload.bind fun payload => .done (some destination, payload)
  | .connected => uotPayload.bind fun payload => .done (none, payload)

theorem uotGetPacketFromStream_consumes (codec : AddressCodec Address) (mode : UotMode) :
    (uotGetPacketFromStream codec mode).Consumes := by
  have payload {α : Type} (f : Bytes → ReadProgram IoError α) : (uotPayload.bind f).Consumes :=
    ReadProgram.consumes_read (by decide)
  cases mode with
  | datagram => exact ReadProgram.consumes_bind _ fun destination => payload _
  | connected => exact payload _

/-- A packet of datagram mode has its destination. -/
theorem uotGetPacketFromStream_destination (codec : AddressCodec Address) {input rest packet}
    (fed : (uotGetPacketFromStream codec .datagram).feed input = (.done packet, rest)) :
    ∃ destination, packet.1 = some destination := by
  obtain ⟨destination, left, -, fed⟩ := ReadProgram.feed_bind_done fed
  obtain ⟨payload, left, -, fed⟩ := ReadProgram.feed_bind_done fed
  cases fed
  exact ⟨destination, rfl⟩

/-- IPv4 addresses with a port, a concrete codec: type byte 1, four address
bytes, two port bytes. -/
def ipv4Codec : AddressCodec (Bytes × UInt16) where
  writeToBuf address := 1 :: address.1.take 4 ++ BigEndian.bytes 2 address.2.toNat
  retrieve := .read 1 fun kind =>
    if kind = [1] then
      .read 4 fun ip => .read 2 fun port => .done (ip, UInt16.ofNat (BigEndian.value port))
    else .fail ⟨.invalidData, "Unsupported address type"⟩
  domain _ := none

end AnyTls

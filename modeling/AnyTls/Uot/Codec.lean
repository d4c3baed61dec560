import AnyTls.Uot.Packet

/-! The UDP-over-TCP stream as a whole: a request and the packets after it are read back from their
concatenated encodings, and a stream that ends inside one of them fails there. Of the address codec
it is assumed that it reads back what it writes, whatever follows. -/
namespace AnyTls
variable {Address : Type} {codec : AddressCodec Address} {mode : UotMode}

/-- The address is read back from its encoding, whatever follows. -/
def AddressCodec.Delimits (codec : AddressCodec Address) (address : Address) : Prop :=
  codec.retrieve.Reads (codec.writeToBuf address) address

/-- A packet with its destination in datagram mode, without one in connected mode, and with a payload
whose length fits its field. -/
def UotMode.Allows (mode : UotMode) (packet : Option Address × Bytes) : Prop :=
  (packet.1.isSome = true ↔ mode = .datagram) ∧ packet.2.length ≤ 65535

/-- The encoding of a packet that is allowed. -/
def packetBytes (codec : AddressCodec Address) (packet : Option Address × Bytes) : Bytes :=
  packet.1.elim [] codec.writeToBuf ++ (BigEndian.bytes 2 (packet.2.length % 2 ^ 16) ++ packet.2)

theorem uotEncodePacket_allowed {packet} (allowed : mode.Allows packet) :
    uotEncodePacket codec mode packet.1 packet.2 = .ok (packetBytes codec packet) := by
  obtain ⟨destination, payload⟩ := packet
  obtain ⟨placed, short⟩ := allowed
  have fits : ¬ payload.length > 65535 := Nat.not_lt.mpr short
  cases mode with
  | datagram =>
    cases destination with
    | none => cases placed.mpr rfl
    | some address => simp only [uotEncodePacket, fits, if_false, packetBytes, Option.elim, List.append_assoc]
  | connected =>
    cases destination with
    | none => simp only [uotEncodePacket, fits, if_false, packetBytes, Option.elim, List.nil_append]
    | some address => cases placed.mp rfl

/-- A packet that is not allowed is refused. -/
theorem uotEncodePacket_fails (codec) (mode : UotMode) (destination : Option Address) (payload) :
    (∃ error, uotEncodePacket codec mode destination payload = .error error) ↔
      65535 < payload.length ∨ ¬ (destination.isSome = true ↔ mode = .datagram) := by
  constructor
  · rintro ⟨error, failed⟩
    by_contra fine
    rw [not_or, not_not, Nat.not_lt] at fine
    have allowed : mode.Allows (destination, payload) := ⟨fine.2, fine.1⟩
    cases (uotEncodePacket_allowed allowed).symm.trans failed
  · intro refused
    unfold uotEncodePacket
    split_ifs with long
    · exact ⟨_, rfl⟩
    · have misplaced := refused.resolve_left long
      cases mode with
      | datagram =>
        cases destination with
        | none => exact ⟨_, rfl⟩
        | some address => exact absurd (iff_of_true rfl rfl) misplaced
      | connected =>
        cases destination with
        | none => exact absurd (iff_of_false (by rintro ⟨⟩) (by rintro ⟨⟩)) misplaced
        | some address => exact ⟨_, rfl⟩

theorem uotPayload_reads {payload} (short : payload.length ≤ 65535) :
    uotPayload.Reads (BigEndian.bytes 2 (payload.length % 2 ^ 16) ++ payload) payload := by
  refine ReadProgram.reads_read (BigEndian.bytes_length ..) ?_
  have size : BigEndian.value (BigEndian.bytes 2 (payload.length % 2 ^ 16)) = payload.length := by
    rw [BigEndian.value_bytes]
    omega
  have whole : (readExact payload.length).Reads (payload ++ []) payload :=
    ReadProgram.reads_read rfl (ReadProgram.reads_done payload)
  rw [List.append_nil, ← size] at whole
  exact whole

theorem uotGetPacketFromStream_reads {packet} (allowed : mode.Allows packet)
    (delimits : ∀ address ∈ packet.1, codec.Delimits address) :
    (uotGetPacketFromStream codec mode).Reads (packetBytes codec packet) packet := by
  obtain ⟨destination, payload⟩ := packet
  obtain ⟨placed, short⟩ := allowed
  have read := uotPayload_reads short
  cases mode with
  | datagram =>
    cases destination with
    | none => cases placed.mpr rfl
    | some address =>
      refine (delimits address rfl).bind ?_
      rw [← List.append_nil (_ ++ payload)]
      exact read.bind (ReadProgram.reads_done _)
  | connected =>
    cases destination with
    | none =>
      rw [packetBytes, Option.elim, List.nil_append, ← List.append_nil (_ ++ payload)]
      exact read.bind (ReadProgram.reads_done _)
    | some address => cases placed.mp rfl

theorem UotMode.tryFrom_toU8 (mode : UotMode) : UotMode.tryFrom mode.toU8 = .ok mode := by
  cases mode <;> rfl

theorem uotGetRequestFromStream_reads {request} (delimits : codec.Delimits request.destination) :
    (uotGetRequestFromStream codec).Reads (request.toBytes codec) request := by
  rw [UotRequest.toBytes, ← List.singleton_append, uotGetRequestFromStream]
  have byte : readU8.Reads [request.mode.toU8] request.mode.toU8 := fun _ => rfl
  refine byte.bind ?_
  rw [UotMode.tryFrom_toU8, ← List.append_nil (codec.writeToBuf _)]
  exact delimits.bind (ReadProgram.reads_done _)

/-- The request, and then so many packets, from a stream that ends: the packets read, and the failure
or the bytes that are left. -/
def uotReceive (codec : AddressCodec Address) (count : Nat) (input : Bytes) :
    Except IoError (UotRequest Address × List (Option Address × Bytes) × Except IoError Bytes) :=
  match (uotGetRequestFromStream codec).finish IoError.earlyEof input with
  | .error error => .error error
  | .ok (request, rest) =>
    .ok (request, (uotGetPacketFromStream codec request.mode).finishMany IoError.earlyEof count rest)

theorem encodePackets {packets : List (Option Address × Bytes)}
    (allowed : ∀ packet ∈ packets, mode.Allows packet) :
    packets.mapM (fun packet => uotEncodePacket codec mode packet.1 packet.2) = .ok (packets.map (packetBytes codec)) := by
  induction packets with
  | nil => rfl
  | cons packet packets ih =>
    rw [List.mapM_cons, uotEncodePacket_allowed (allowed packet List.mem_cons_self),
      ih fun other member => allowed other (List.mem_cons_of_mem _ member)]
    rfl

section
variable {request : UotRequest Address} {packets : List (Option Address × Bytes)}
  (delimits : codec.Delimits request.destination) (allowed : ∀ packet ∈ packets, request.mode.Allows packet)
  (known : ∀ packet ∈ packets, ∀ address ∈ packet.1, codec.Delimits address)
include delimits

theorem uotReceive_request (count rest) :
    uotReceive codec count (request.toBytes codec ++ rest) =
      .ok (request, (uotGetPacketFromStream codec request.mode).finishMany IoError.earlyEof count rest) := by
  rw [uotReceive, (uotGetRequestFromStream_reads delimits).finish]

/-- A stream that ends inside the request. -/
theorem uotReceive_short (count) {part more} (split : part ++ more = request.toBytes codec)
    (cut : more ≠ []) : ∃ error, uotReceive codec count part = .error error := by
  have reads := uotGetRequestFromStream_reads delimits
  rw [← split] at reads
  obtain ⟨error, failed⟩ := reads.finish_short cut IoError.earlyEof
  exact ⟨error, by rw [uotReceive, failed]⟩

include allowed known

/-- Packets that are followed by any bytes. -/
theorem uotReceive_packets (count rest) :
    uotReceive codec (packets.length + count)
        (request.toBytes codec ++ (packets.flatMap (packetBytes codec) ++ rest)) =
      .ok (request, packets ++ ((uotGetPacketFromStream codec request.mode).finishMany IoError.earlyEof count rest).1,
        ((uotGetPacketFromStream codec request.mode).finishMany IoError.earlyEof count rest).2) := by
  have reads : ∀ item ∈ packets.map fun packet => (packet, packetBytes codec packet),
      (uotGetPacketFromStream codec request.mode).Reads item.2 item.1 := by
    intro item member
    obtain ⟨packet, listed, rfl⟩ := List.mem_map.mp member
    exact uotGetPacketFromStream_reads (allowed packet listed) (known packet listed)
  have all := ReadProgram.finishMany_reads reads IoError.earlyEof count rest
  rw [List.length_map, List.flatMap_map, List.map_map] at all
  rw [uotReceive_request delimits]
  simp only [all, Function.comp_def, List.map_id']

/-- Packets that are followed by a packet whose end is missing. -/
theorem uotReceive_cut {packet} (last : request.mode.Allows packet)
    (reached : ∀ address ∈ packet.1, codec.Delimits address) (count) {part more}
    (split : part ++ more = packetBytes codec packet) (cut : more ≠ []) :
    ∃ error, uotReceive codec (packets.length + (count + 1))
        (request.toBytes codec ++ (packets.flatMap (packetBytes codec) ++ part)) =
      .ok (request, packets, .error error) := by
  have reads := uotGetPacketFromStream_reads last reached
  rw [← split] at reads
  obtain ⟨error, failed⟩ := reads.finish_short cut IoError.earlyEof
  refine ⟨error, ?_⟩
  rw [uotReceive_packets delimits allowed known, ReadProgram.finishMany, failed]
  simp only [List.append_nil]

end

/-- A request and any packets allowed in its mode are encoded, and read back in order from the
concatenation, which they use up. A stream cut inside the request fails to give it; one cut inside
a packet gives the request and the packets before, and fails at that packet. And a packet is refused
exactly when its payload is too long or its destination does not fit the mode. -/
theorem uot_codec (codec : AddressCodec Address) (request : UotRequest Address)
    (packets : List (Option Address × Bytes)) (delimits : codec.Delimits request.destination)
    (known : ∀ packet ∈ packets, ∀ address ∈ packet.1, codec.Delimits address)
    (allowed : ∀ packet ∈ packets, request.mode.Allows packet) :
    (∃ encodings, packets.mapM (fun packet => uotEncodePacket codec request.mode packet.1 packet.2) = .ok encodings ∧
      uotReceive codec packets.length (request.toBytes codec ++ encodings.flatten) = .ok (request, packets, .ok []) ∧
      (∀ cut count, cut < (request.toBytes codec).length →
        ∃ error, uotReceive codec count ((request.toBytes codec ++ encodings.flatten).take cut) = .error error) ∧
      (∀ cut index count, index < packets.length →
        (request.toBytes codec).length + (encodings.take index).flatten.length ≤ cut →
        cut < (request.toBytes codec).length + (encodings.take (index + 1)).flatten.length →
        ∃ error, uotReceive codec (index + 1 + count) ((request.toBytes codec ++ encodings.flatten).take cut) =
          .ok (request, packets.take index, .error error))) ∧
    ∀ mode destination payload, (∃ error, uotEncodePacket codec mode destination payload = .error error) ↔
      65535 < payload.length ∨ ¬ (destination.isSome = true ↔ mode = .datagram) := by
  refine ⟨⟨_, encodePackets allowed, ?_, ?_, ?_⟩, uotEncodePacket_fails codec⟩
  · have all := uotReceive_packets delimits allowed known 0 []
    rw [Nat.add_zero, List.append_nil] at all
    rw [← List.flatMap_def, all]
    simp only [ReadProgram.finishMany, List.append_nil]
  · intro cut count inside
    rw [List.take_append_of_le_length inside.le]
    refine uotReceive_short delimits count (List.take_append_drop cut _) ?_
    intro whole
    have size := congrArg List.length whole
    rw [List.length_drop, List.length_nil] at size
    omega
  · intro cut index count within start stop
    have earlier : packets.take index ⊆ packets := List.take_subset ..
    have place : packets[index] ∈ packets := List.getElem_mem within
    rw [← List.map_take, ← List.flatMap_def] at start stop
    rw [List.take_succ_eq_append_getElem within, List.flatMap_append, List.length_append, List.flatMap_singleton] at stop
    -- the cut is so many bytes into the packet
    obtain ⟨offset, rfl⟩ := Nat.exists_eq_add_of_le start
    have inside : offset < (packetBytes codec packets[index]).length := by omega
    have bytes : (packets.map (packetBytes codec)).flatten = (packets.take index).flatMap (packetBytes codec) ++
        (packetBytes codec packets[index] ++ (packets.drop (index + 1)).flatMap (packetBytes codec)) := by
      rw [← List.flatMap_def, ← List.flatMap_cons, ← List.flatMap_append, ← List.drop_eq_getElem_cons within,
        List.take_append_drop]
    have taken : (request.toBytes codec ++ (packets.map (packetBytes codec)).flatten).take
          ((request.toBytes codec).length + ((packets.take index).flatMap (packetBytes codec)).length + offset) =
        request.toBytes codec ++
          ((packets.take index).flatMap (packetBytes codec) ++ (packetBytes codec packets[index]).take offset) := by
      rw [bytes, Nat.add_assoc, List.take_length_add_append, List.take_length_add_append,
        List.take_append_of_le_length inside.le]
    have missing : (packetBytes codec packets[index]).drop offset ≠ [] := by
      intro whole
      have size := congrArg List.length whole
      rw [List.length_drop, List.length_nil] at size
      omega
    obtain ⟨error, failed⟩ := uotReceive_cut delimits (fun packet member => allowed packet (earlier member))
      (fun packet member => known packet (earlier member)) (allowed _ place) (known _ place) count
      (List.take_append_drop offset _) missing
    rw [List.length_take_of_le within.le, Nat.add_comm count, ← Nat.add_assoc] at failed
    exact ⟨error, taken ▸ failed⟩

/-- Packets to two addresses, one of them without payload. -/
def twoPackets : List (Option (Bytes × UInt16) × Bytes) :=
  [(some ([10, 0, 0, 1], 53), [7, 8]), (some ([10, 0, 0, 2], 80), [])]

theorem uot_codec_twoPackets :
    uotReceive ipv4Codec 2 ((UotRequest.mk .datagram ([10, 0, 0, 1], 53)).toBytes ipv4Codec ++
        [1, 10, 0, 0, 1, 0, 53, 0, 2, 7, 8, 1, 10, 0, 0, 2, 0, 80, 0, 0]) =
      .ok (⟨.datagram, ([10, 0, 0, 1], 53)⟩, twoPackets, .ok []) := by
  have known : ∀ packet ∈ twoPackets, ∀ address ∈ packet.1, ipv4Codec.Delimits address := by
    intro packet member address held
    rcases List.mem_cons.mp member with rfl | later
    · cases held
      exact fun _ => rfl
    · cases List.mem_singleton.mp later
      cases held
      exact fun _ => rfl
  have allowed : ∀ packet ∈ twoPackets, UotMode.datagram.Allows packet := by
    intro packet member
    rcases List.mem_cons.mp member with rfl | later
    · exact ⟨by decide, by decide⟩
    · cases List.mem_singleton.mp later
      exact ⟨by decide, by decide⟩
  obtain ⟨⟨encodings, encoded, received, -⟩, -⟩ :=
    uot_codec ipv4Codec ⟨.datagram, ([10, 0, 0, 1], 53)⟩ twoPackets (fun _ => rfl) known allowed
  cases encoded
  exact received

end AnyTls

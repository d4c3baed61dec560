import AnyTls.Proxy.Stream
import AnyTls.Uot.Packet

/-! What one `Stream::write` call puts on the wire. A buffer travels in a single
frame whose length field has sixteen bits, so it arrives intact exactly when it
fits; the UDP relays hand whole packets, address and length prefix included, to
one call. -/
namespace AnyTls

/-- The bytes decode to data frames of the stream that carry the payload, and
whatever is sent later is decoded at its own boundary. -/
def Intact (sid : UInt32) (payload wire : Bytes) : Prop :=
  ∃ frames : List Frame, (∀ f ∈ frames, f.cmd = .psh ∧ f.sid = sid) ∧
    frames.flatMap Frame.data = payload ∧
    ∀ later, Framing.decodeAll Frame.next (wire ++ later) =
      (frames ++ (Framing.decodeAll Frame.next later).1, (Framing.decodeAll Frame.next later).2)

theorem intact_of_fits (sid buf) (fits : buf.length ≤ 65535) :
    Intact sid buf (Frame.withData .psh sid buf).toBytes := by
  have encodable : (Frame.withData .psh sid buf).Encodable :=
    ⟨by simp only [Frame.withData]; omega, trivial⟩
  refine ⟨[Frame.withData .psh sid buf], by simp [Frame.withData], by simp [Frame.withData], ?_⟩
  intro later
  rw [Framing.decodeAll_some Frame.next_lawful (Frame.encodes encodable later)]
  rfl

/-- The header overhead leaves room for one frame only, and one frame holds at
most 65535 bytes. -/
theorem fits_of_intact (sid buf) (intact : Intact sid buf (Frame.withData .psh sid buf).toBytes) :
    buf.length ≤ 65535 := by
  obtain ⟨frames, _, content, decoded⟩ := intact
  have alone := decoded []
  rw [List.append_nil, Framing.decodeAll_nil, List.append_nil] at alone
  obtain ⟨encodable, split⟩ := Frame.decodeAll_content (Frame.withData .psh sid buf).toBytes
  rw [alone] at encodable split
  have total := congrArg List.length split
  rw [List.append_nil, Frame.toBytes_length, Frame.flatMap_toBytes_length, content] at total
  simp only [Frame.withData, HEADER_OVERHEAD_SIZE] at total
  obtain ⟨frame, rfl⟩ : ∃ frame, frames = [frame] := List.length_eq_one_iff.mp (by omega)
  have bound := (encodable frame List.mem_cons_self).fits
  rw [List.flatMap_cons, List.flatMap_nil, List.append_nil] at content
  rw [content] at bound
  omega

theorem write_ok {stream : Stream} {tx tx' : FrameTx} {buf : Bytes} {n}
    (returned : stream.write tx buf = (.ok n, tx')) :
    n = buf.length ∧ tx'.queue = tx.queue ++ [⟨Frame.withData .psh stream.id buf, false⟩] := by
  unfold Stream.write Stream.writeFrame FrameTx.send at returned
  split at returned
  · cases returned
  · rename_i frame queued
    split at queued
    · cases queued
    · cases Except.ok.inj queued
      split at returned
      · cases returned
      · rename_i sent
        split at sent
        · cases sent
        · cases Option.some.inj sent
          cases returned
          exact ⟨rfl, rfl⟩

/-- A write that returns arrives intact exactly when its buffer has at most 65535 bytes. -/
theorem write_intact_iff (stream : Stream) (tx tx' : FrameTx) (buf : Bytes) (n : Nat)
    (returned : stream.write tx buf = (.ok n, tx')) :
    (∃ frame, tx'.queue = tx.queue ++ [⟨frame, false⟩] ∧
      Intact stream.id (buf.take n) frame.toBytes) ↔ buf.length ≤ 65535 := by
  obtain ⟨rfl, queued⟩ := write_ok returned
  rw [List.take_length, queued]
  constructor
  · rintro ⟨frame, same, intact⟩
    simp only [List.append_cancel_left_eq, List.cons.injEq, FrameWrite.mk.injEq, and_true] at same
    subst same
    exact fits_of_intact stream.id buf intact
  · intro fits
    exact ⟨_, rfl, intact_of_fits stream.id buf fits⟩

theorem write_intact_small :
    (Stream.new 1).write ⟨[], false⟩ [7, 8] =
      (.ok 2, ⟨[⟨Frame.withData .psh 1 [7, 8], false⟩], false⟩) ∧
    ((∃ frame, [⟨Frame.withData .psh 1 [7, 8], false⟩] = [] ++ [(⟨frame, false⟩ : FrameWrite)] ∧
      Intact 1 ([7, 8].take 2) frame.toBytes) ↔ [7, 8].length ≤ 65535) :=
  ⟨by decide, write_intact_iff (Stream.new 1) ⟨[], false⟩
    ⟨[⟨Frame.withData .psh 1 [7, 8], false⟩], false⟩ [7, 8] 2 (by decide)⟩

/-- A largest datagram with its IPv4 address, as the relay sends it in one call. -/
def largestDatagram : Bytes :=
  1 :: [127, 0, 0, 1] ++ BigEndian.bytes 2 53 ++ BigEndian.bytes 2 65535 ++ List.replicate 65535 0

/-- The relay's encoder accepts a packet that one write cannot deliver. -/
theorem accepted_packet_not_intact :
    uotEncodePacket ipv4Codec .datagram (some ([127, 0, 0, 1], 53)) (List.replicate 65535 0) =
      .ok largestDatagram ∧
    (Stream.new 1).write ⟨[], false⟩ largestDatagram = (.ok largestDatagram.length,
      ⟨[⟨Frame.withData .psh 1 largestDatagram, false⟩], false⟩) ∧
    ¬ ∃ frame, [⟨Frame.withData .psh 1 largestDatagram, false⟩] = [] ++ [(⟨frame, false⟩ : FrameWrite)] ∧
      Intact 1 (largestDatagram.take largestDatagram.length) frame.toBytes := by
  have size : largestDatagram.length = 65544 := by
    simp only [largestDatagram, List.length_append, List.length_cons, List.length_nil,
      BigEndian.bytes_length, List.length_replicate]
  refine ⟨?_, rfl, ?_⟩
  · simp only [uotEncodePacket, List.length_replicate]
    rfl
  · rintro ⟨frame, same, intact⟩
    simp only [List.nil_append, List.cons.injEq, FrameWrite.mk.injEq, and_true] at same
    subst same
    rw [List.take_length] at intact
    have bound := fits_of_intact 1 largestDatagram intact
    omega

end AnyTls

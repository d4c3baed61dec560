import AnyTls.Uot.Relay

/-! Packet boundaries in the UDP-over-TCP relay loops. A packet future that is
dropped with bytes in it takes them with it. While the other branches win only
between packets, the loop forwards the packets of the stream, in order. -/
namespace AnyTls
variable {Address : Type}

namespace Relay
variable {codec : AddressCodec Address} {s t : Relay Address}

def packetsOf (codec : AddressCodec Address) (kind : RelayKind Address) (bytes : Bytes) :
    List (Option Address × Bytes) × Bytes :=
  Framing.decodeAll (uotGetPacketFromStream codec kind.mode).decode bytes

/-- The datagrams of the stream's bytes, decoded without interruption. -/
def uninterrupted (codec : AddressCodec Address) (kind : RelayKind Address) (bytes : Bytes) :
    List (Address × Bytes) :=
  (packetsOf codec kind bytes).1.filterMap kind.route

/-- The packet future is where an undisturbed one would be. -/
structure Decoding (codec : AddressCodec Address) (s : Relay Address) : Prop where
  left : (packetsOf codec s.kind s.consumed).2 = s.taken
  position : (s.decoder, s.held) = (uotGetPacketFromStream codec s.kind.mode).feed s.taken
  room : ∀ len pc, s.readFut = some (len, pc) → s.decoder.wants s.held = len

/-- A packet is complete and the next future not yet made. -/
structure Between (codec : AddressCodec Address) (s : Relay Address) : Prop where
  left : (packetsOf codec s.kind s.consumed).2 = []
  readFut : s.readFut = none

def Progress (codec : AddressCodec Address) (s : Relay Address) : Prop :=
  match s.status with
  | .selecting => Decoding codec s ∧ s.forwarded = uninterrupted codec s.kind s.consumed
  | .received packet => Between codec s ∧ (s.kind.route packet).isSome = true ∧
      s.forwarded ++ (s.kind.route packet).toList = uninterrupted codec s.kind s.consumed
  | .sending datagram => Between codec s ∧ s.forwarded ++ [datagram] = uninterrupted codec s.kind s.consumed
  | .ended _ => s.forwarded <+: uninterrupted codec s.kind s.consumed
  | .panicked => False

structure Faithful (codec : AddressCodec Address) (s : Relay Address) : Prop where
  order : s.arrived = s.consumed ++ s.pipe.unread s.readFut.pc
  settled : s.readFut.pc.pastBuffer = true → s.pipe.buffer = []
  progress : Progress codec s

/-- Another branch wins only while the packet future has taken no byte, and the
client has learned where to send before a packet completes. -/
def atBoundary (s : Relay Address) : RelayAction → Bool
  | .tick true | .inbound (.ok ()) | .socks _ _ (.ok ()) => s.taken.isEmpty
  | .handle =>
    match s.kind with
    | .udpAssociate => s.incomingPort ≠ 0
    | _ => true
  | _ => true

theorem lawful (codec : AddressCodec Address) (mode : UotMode) :
    Framing.Lawful (uotGetPacketFromStream codec mode).decode :=
  ReadProgram.decode_lawful (uotGetPacketFromStream_consumes codec mode)

theorem route_isSome {input rest packet} (kind : RelayKind Address)
    (fed : (uotGetPacketFromStream codec kind.mode).feed input = (.done packet, rest)) :
    (kind.route packet).isSome = true := by
  cases kind with
  | connectedStream destination => rfl
  | datagramStream | udpAssociate =>
    obtain ⟨destination, known⟩ := uotGetPacketFromStream_destination codec fed
    obtain ⟨address, payload⟩ := packet
    cases known
    rfl

section
variable {kind : RelayKind Address} {consumed taken bytes : Bytes}

/-- Bytes that complete no packet change what is left over only. -/
theorem packetsOf_unfinished {decoder held} (left : (packetsOf codec kind consumed).2 = taken)
    (fed : (uotGetPacketFromStream codec kind.mode).feed (taken ++ bytes) = (decoder, held))
    (unfinished : ∀ packet, decoder ≠ .done packet) :
    packetsOf codec kind (consumed ++ bytes) = ((packetsOf codec kind consumed).1, taken ++ bytes) := by
  have stuck : (uotGetPacketFromStream codec kind.mode).decode (taken ++ bytes) = none := by
    cases decoded : (uotGetPacketFromStream codec kind.mode).decode (taken ++ bytes) with
    | none => rfl
    | some pair =>
      have complete := fed.symm.trans (ReadProgram.decode_iff.mp decoded)
      exact absurd (congrArg Prod.fst complete) (unfinished _)
  have appended := Framing.decodeAll_append (lawful codec kind.mode) consumed bytes
  unfold packetsOf at left ⊢
  rw [appended, left, Framing.decodeAll_none stuck, List.append_nil]

theorem packetsOf_complete {packet} (left : (packetsOf codec kind consumed).2 = taken)
    (fed : (uotGetPacketFromStream codec kind.mode).feed (taken ++ bytes) = (.done packet, [])) :
    packetsOf codec kind (consumed ++ bytes) = ((packetsOf codec kind consumed).1 ++ [packet], []) := by
  have appended := Framing.decodeAll_append (lawful codec kind.mode) consumed bytes
  unfold packetsOf at left ⊢
  rw [appended, left,
    Framing.decodeAll_some (lawful codec kind.mode) (ReadProgram.decode_iff.mpr fed)]
  rfl

end

theorem packetError_eq (s : Relay Address) (error) :
    ∃ result, s.packetError error = { s with status := .ended result } := by
  unfold packetError
  split
  · exact ⟨_, rfl⟩
  · split_ifs
    · exact ⟨_, rfl⟩
    · exact ⟨_, rfl⟩

theorem Faithful.ended (result) (faithful : Faithful codec s) (selecting : s.status = .selecting) :
    Faithful codec { s with status := .ended result } := by
  have progress := faithful.progress
  simp only [Progress, selecting] at progress
  refine ⟨faithful.order, faithful.settled, ?_⟩
  exact progress.2 ▸ List.prefix_refl _

theorem Faithful.packetError (error) (faithful : Faithful codec s) (selecting : s.status = .selecting) :
    Faithful codec (s.packetError error) := by
  obtain ⟨result, same⟩ := packetError_eq s error
  exact same ▸ faithful.ended result selecting

/-- A future dropped at a packet boundary is replaced by one in the same place. -/
theorem Faithful.restart (faithful : Faithful codec s) (selecting : s.status = .selecting)
    (boundary : s.taken = []) : Faithful codec (s.restart codec) := by
  obtain ⟨order, settled, progress⟩ := faithful
  simp only [Progress, selecting] at progress
  obtain ⟨decoding, forwarded⟩ := progress
  have position := decoding.position
  rw [boundary] at position
  refine ⟨order, settled, ⟨decoding.left.trans boundary, ?_, ?_⟩, forwarded⟩
  · exact Prod.ext rfl (ReadProgram.feed_nil _).symm
  · intro len pc reading
    have room := decoding.room len pc reading
    simp only [Prod.ext_iff, ReadProgram.feed_nil] at position
    rw [position.1, position.2] at room
    exact room

/-- A future that waits in the `select!` is not complete. -/
theorem Decoding.unfinished (decoding : Decoding codec s) (packet : Option Address × Bytes) :
    s.decoder ≠ .done packet := by
  intro complete
  have stuck := Framing.decodeAll_left (lawful codec s.kind.mode) s.consumed
  have left : (Framing.decodeAll (uotGetPacketFromStream codec s.kind.mode).decode s.consumed).2 =
      s.taken := decoding.left
  have fed := decoding.position.symm
  rw [complete] at fed
  rw [left, ReadProgram.decode_iff.mpr fed] at stuck
  cases stuck

/-- Bytes that fit the read in progress move the packet future on. -/
theorem ready_faithful {pipe bytes count next} (decoding : Decoding codec s)
    (selecting : s.status = .selecting) (forwarded : s.forwarded = uninterrupted codec s.kind s.consumed)
    (reading : s.decoder = .read count next) (fits : (s.held ++ bytes).length ≤ count)
    (order : s.arrived = s.consumed ++ bytes ++ pipe.unread .start) :
    Faithful codec (s.took pipe none bytes (.of (s.decoder.feed (s.held ++ bytes)))) := by
  have program : s.decoder.feed (s.held ++ bytes) =
      (uotGetPacketFromStream codec s.kind.mode).feed (s.taken ++ bytes) := by
    have continued := ReadProgram.feed_feed (uotGetPacketFromStream codec s.kind.mode) s.taken bytes
    rwa [← decoding.position] at continued
  have filled := ReadProgram.feed_wanted next fits
  rw [← reading, program] at filled
  rw [program]
  obtain ⟨⟨decoder, held⟩, fed⟩ :
      ∃ fed, (uotGetPacketFromStream codec s.kind.mode).feed (s.taken ++ bytes) = fed := ⟨_, rfl⟩
  rw [fed] at filled ⊢
  cases decoder with
  | done packet =>
    obtain rfl : held = [] := by
      rcases filled with empty | unfilled
      · exact empty
      · rw [reading] at unfilled
        cases unfilled
    have packets := packetsOf_complete decoding.left fed
    have more : uninterrupted codec s.kind (s.consumed ++ bytes) =
        s.forwarded ++ (s.kind.route packet).toList := by
      rw [uninterrupted, packets, List.filterMap_append, forwarded, uninterrupted]
      cases routed : s.kind.route packet with
      | none => simp [routed]
      | some datagram => simp [routed]
    exact ⟨order, nofun, ⟨congrArg Prod.snd packets, rfl⟩, route_isSome s.kind fed, more.symm⟩
  | fail error =>
    have packets := packetsOf_unfinished decoding.left fed nofun
    obtain ⟨result, same⟩ := packetError_eq { s with
      pipe, readFut := none, consumed := s.consumed ++ bytes, taken := s.taken ++ bytes } error
    simp only [took, Polled.of, same]
    refine ⟨order, nofun, ?_⟩
    simp only [Progress, uninterrupted, packets]
    exact forwarded ▸ List.prefix_refl _
  | read more rest =>
    have packets := packetsOf_unfinished decoding.left fed nofun
    refine ⟨order, nofun, ?_⟩
    simp only [Progress, took, Polled.of, selecting, uninterrupted, packets]
    exact ⟨⟨congrArg Prod.snd packets, fed.symm, nofun⟩, forwarded⟩

theorem poll_faithful (faithful : Faithful codec s) (selecting : s.status = .selecting)
    (polled : s.poll = some t) : Faithful codec t := by
  have progress := faithful.progress
  simp only [Progress, selecting] at progress
  obtain ⟨decoding, forwarded⟩ := progress
  obtain ⟨⟨pipe, fut, bytes, outcome⟩, polling, rfl⟩ := Option.map_eq_some_iff.mp polled
  have poll := pollProgram_cases polling
  -- the reader after a poll that takes no byte
  have waits {pipe : PipeInner} {fut : ReadFut}
      (unread : s.pipe.unread s.readFut.pc = [] ++ pipe.unread fut.pc)
      (settled : fut.pc.pastBuffer = true → pipe.buffer = [])
      (room : ∀ len pc, fut = some (len, pc) → s.decoder.wants s.held = len) :
      Faithful codec { s with pipe, readFut := fut } := by
    refine ⟨?_, settled, ?_⟩
    · rw [faithful.order, unread]
      rfl
    · simp only [Progress, selecting]
      exact ⟨⟨decoding.left, decoding.position, room⟩, forwarded⟩
  have order := poll.unread faithful.settled
  cases poll with
  | done packet complete => exact absurd complete (decoding.unfinished packet)
  | fail error => simpa [took] using faithful.packetError error selecting
  | start count next reading =>
    obtain ⟨unread, settled⟩ := order nofun
    have started := waits unread settled (by rintro _ _ ⟨⟩; rw [reading]; rfl)
    simpa [took] using started
  | running count next len pc pc' _ _ pending =>
    obtain ⟨unread, settled⟩ := order nofun
    have moved := waits unread settled (by rintro _ _ ⟨⟩; exact decoding.room len pc pending)
    simpa [took] using moved
  | error len pc _ error =>
    obtain ⟨unread, settled⟩ := order nofun
    have stopped := (waits unread settled nofun).packetError error selecting
    simpa [took] using stopped
  | panicked count next len pc _ data reading pending read tooLong =>
    have room := decoding.room len pc pending
    have bounded := PipeInner.readStep_length read
    rw [reading] at room
    simp only [ReadProgram.wants] at room
    omega
  | eof len pc =>
    obtain ⟨unread, settled⟩ := order nofun
    have stopped := (waits unread settled nofun).packetError earlyEof selecting
    simpa [took] using stopped
  | ready count next len pc _ _ reading _ _ filled fits =>
    obtain ⟨unread, settled⟩ := order (Polled.of_ne_panicked _)
    refine ready_faithful decoding selecting forwarded reading ?_ ?_
    · have positive := List.length_pos_of_ne_nil filled
      rw [List.length_append]
      omega
    · rw [faithful.order, unread, List.append_assoc]
      rfl

/-- The pipe changes below the loop. -/
theorem Faithful.below {pipe more} (faithful : Faithful codec s)
    (unread : pipe.unread s.readFut.pc = s.pipe.unread s.readFut.pc ++ more)
    (buffer : pipe.buffer = s.pipe.buffer) :
    Faithful codec { s with pipe, arrived := s.arrived ++ more } := by
  obtain ⟨order, settled, progress⟩ := faithful
  refine ⟨?_, fun past => buffer.trans (settled past), ?_⟩
  · rw [order, List.append_assoc, ← unread]
  · unfold Progress at progress ⊢
    cases status : s.status with
    | selecting =>
      simp only [status] at progress ⊢
      exact ⟨⟨progress.1.left, progress.1.position, progress.1.room⟩, progress.2⟩
    | received packet | sending datagram =>
      simp only [status] at progress ⊢
      exact ⟨⟨progress.1.left, progress.1.readFut⟩, progress.2⟩
    | ended result => simpa only [status] using progress
    | panicked => simp only [status] at progress

/-- The next packet future is made after a packet. -/
theorem Between.restart (between : Between codec s)
    (order : s.arrived = s.consumed ++ s.pipe.unread s.readFut.pc)
    (forwarded : s.forwarded = uninterrupted codec s.kind s.consumed) :
    Faithful codec (s.restart codec) := by
  have here : s.readFut.pc = .start := by rw [between.readFut]; rfl
  refine ⟨order, ?_, ⟨between.left, Prod.ext rfl (ReadProgram.feed_nil _).symm, ?_⟩, forwarded⟩
  · intro past
    rw [show (s.restart codec).readFut.pc = s.readFut.pc from rfl, here] at past
    cases past
  · intro len pc reading
    cases between.readFut.symm.trans reading

theorem handle_faithful {packet} (faithful : Faithful codec s) (received : s.status = .received packet)
    (known : s.kind = .udpAssociate → s.incomingPort ≠ 0) : Faithful codec (s.handle codec packet) := by
  obtain ⟨order, settled, progress⟩ := faithful
  simp only [Progress, received] at progress
  obtain ⟨between, routed, forwarded⟩ := progress
  obtain ⟨datagram, route⟩ := Option.isSome_iff_exists.mp routed
  have sends : s.handle codec packet = { s with status := .sending datagram } := by
    unfold handle
    split
    · rename_i client unknown
      exact absurd unknown (known client)
    · simp only [route]
  rw [sends]
  refine ⟨order, settled, ?_⟩
  rw [route] at forwarded
  exact ⟨⟨between.left, between.readFut⟩, forwarded⟩

theorem continueWith_faithful {result} (faithful : Faithful codec s) (selecting : s.status = .selecting)
    (boundary : result = .ok () → s.taken = []) :
    Faithful codec (s.continueWith codec result) := by
  cases result with
  | ok done => exact faithful.restart selecting (boundary rfl)
  | error error => exact faithful.ended _ selecting

theorem step_faithful {a} (faithful : Faithful codec s) (boundary : s.atBoundary a = true)
    (stepped : s.step codec a = some t) : Faithful codec t := by
  cases a with
  | push data =>
    simp only [step] at stepped
    split at stepped
    · rename_i pipe written
      cases stepped
      obtain ⟨unread, buffer⟩ := PipeInner.write_unread written
      exact faithful.below unread buffer
    · cases stepped
      exact faithful
  | finish error =>
    cases stepped
    obtain ⟨unread, buffer⟩ := PipeInner.finishStream_unread error
    simpa using faithful.below (unread.trans (List.append_nil _).symm) buffer
  | pipeClose =>
    cases stepped
    have same : (s.pipe.closeWithError none).unread s.readFut.pc = s.pipe.unread s.readFut.pc ++ [] := by
      rw [List.append_nil]
      rfl
    simpa using faithful.below same rfl
  | poll =>
    simp only [step] at stepped
    split at stepped
    · rename_i selecting
      exact poll_faithful faithful selecting stepped
    · cases stepped
  | handle =>
    simp only [step] at stepped
    split at stepped
    · rename_i packet received
      cases stepped
      refine handle_faithful faithful received fun client => ?_
      simpa [atBoundary, client] using boundary
    · cases stepped
  | sent result =>
    simp only [step] at stepped
    split at stepped
    · rename_i datagram sending
      obtain ⟨order, settled, progress⟩ := faithful
      simp only [Progress, sending] at progress
      obtain ⟨between, forwarded⟩ := progress
      split at stepped
      · cases stepped
        exact Between.restart ⟨between.left, between.readFut⟩ order forwarded
      · cases stepped
        exact ⟨order, settled, [datagram], forwarded⟩
    · cases stepped
  | tick approved =>
    simp only [step] at stepped
    split at stepped
    · cases stepped
    · rename_i selecting _
      cases stepped
      cases approved with
      | true => exact faithful.restart selecting (List.isEmpty_iff.mp boundary)
      | false => exact faithful.ended _ selecting
    · cases stepped
  | inbound result =>
    simp only [step] at stepped
    split at stepped
    · cases stepped
    · rename_i selecting _
      cases stepped
      refine continueWith_faithful faithful selecting fun done => ?_
      rw [done] at boundary
      exact List.isEmpty_iff.mp boundary
    · cases stepped
  | socks frag port result =>
    simp only [step] at stepped
    split at stepped
    · rename_i client selecting
      split_ifs at stepped
      · cases stepped
        exact faithful.ended _ selecting
      · cases stepped
        refine continueWith_faithful (s := { s with incomingPort := port }) ?_ selecting fun done => ?_
        · obtain ⟨order, settled, progress⟩ := faithful
          simp only [Progress, selecting] at progress
          refine ⟨order, settled, ?_⟩
          simp only [Progress, selecting]
          exact ⟨⟨progress.1.left, progress.1.position, progress.1.room⟩, progress.2⟩
        · rw [done] at boundary
          exact List.isEmpty_iff.mp boundary
    · cases stepped
  | replyClosed result =>
    simp only [step] at stepped
    split at stepped
    · rename_i client selecting
      cases stepped
      exact faithful.ended _ selecting
    · cases stepped

theorem start_faithful (codec) (kind : RelayKind Address) (pipe) :
    Faithful codec (start codec kind pipe) :=
  ⟨rfl, nofun, ⟨rfl, Prod.ext rfl (ReadProgram.feed_nil _).symm, nofun⟩, rfl⟩

theorem uninterrupted_prefix (codec : AddressCodec Address) (kind : RelayKind Address)
    (consumed unread : Bytes) :
    uninterrupted codec kind consumed <+: uninterrupted codec kind (consumed ++ unread) := by
  unfold uninterrupted packetsOf
  rw [Framing.decodeAll_append (lawful codec kind.mode), List.filterMap_append]
  exact List.prefix_append _ _

/-- Packet boundaries survive in every run in which the other branches win only at
packet boundaries. A loop that has not ended has forwarded the datagrams of the
bytes it has read, but for the one it is sending; it reads on while there is
something to read, and never panics. A loop that has ended has forwarded the first
of them. -/
theorem relay_keeps_boundaries (codec : AddressCodec Address) (kind : RelayKind Address)
    (pipe : PipeInner) (actions : List RelayAction) (s : Relay Address)
    (path : Transition.run (step codec) (start codec kind pipe) actions = some s)
    (boundary : Transition.Along (step codec) (fun s a => s.atBoundary a = true)
      (start codec kind pipe) actions) :
    s.forwarded <+: uninterrupted codec s.kind s.arrived ∧
    s.arrived = s.consumed ++ s.pipe.unread s.readFut.pc ∧
    match s.status with
    | .selecting => s.forwarded = uninterrupted codec s.kind s.consumed ∧
        (s.pipe.unread s.readFut.pc ≠ [] → ∃ t, s.step codec .poll = some t)
    | .received packet => s.forwarded ++ (s.kind.route packet).toList =
        uninterrupted codec s.kind s.consumed
    | .sending datagram => s.forwarded ++ [datagram] = uninterrupted codec s.kind s.consumed
    | .ended _ => True
    | .panicked => False := by
  have faithful : Faithful codec s :=
    Transition.invariant_along step_faithful (start_faithful codec kind pipe) boundary path
  have order := faithful.order
  have progress := faithful.progress
  have grows := uninterrupted_prefix codec s.kind s.consumed (s.pipe.unread s.readFut.pc)
  rw [← order] at grows
  refine ⟨List.IsPrefix.trans ?_ grows, order, ?_⟩
  · unfold Progress at progress
    split at progress
    · exact progress.2 ▸ List.prefix_refl _
    · exact ⟨_, progress.2.2⟩
    · exact ⟨_, progress.2⟩
    · exact progress
    · exact progress.elim
  · unfold Progress at progress
    split
    · rename_i selecting
      simp only [selecting] at progress
      refine ⟨progress.2, fun waiting => ?_⟩
      obtain ⟨next, polled⟩ := pollProgram_enabled s.decoder s.held faithful.settled waiting
      exact ⟨s.took next.1 next.2.1 next.2.2.1 next.2.2.2, by
        simp only [step, selecting, poll, polled, Option.map_some]⟩
    · rename_i received
      simp only [received] at progress
      exact progress.2.2
    · rename_i sending
      simp only [sending] at progress
      exact progress.2
    · trivial
    · rename_i panicked
      simp only [panicked] at progress

def resolver : RelayKind (Bytes × UInt16) := .connectedStream ([9, 9, 9, 9], 53)

/-- A read of the stream that finds an event waiting. -/
def fullRead : List RelayAction := [.poll, .poll, .poll, .poll, .poll]

/-- A read up to the point where it waits for an event. -/
def openRead : List RelayAction := [.poll, .poll, .poll]

/-- A tick between the read of nothing and a packet in two pieces. -/
theorem resolver_keeps_boundaries :
    ∃ s, Transition.run (step ipv4Codec) (start ipv4Codec resolver PipeInner.new)
        (openRead ++ [.tick true, .push [0, 1], .poll, .poll, .push [7]] ++ fullRead ++
          [.handle, .sent (.ok ())]) = some s ∧
      s.forwarded = [(([9, 9, 9, 9], 53), [7])] ∧
      s.forwarded <+: uninterrupted ipv4Codec s.kind s.arrived :=
  ⟨_, rfl, rfl, (relay_keeps_boundaries ipv4Codec resolver PipeInner.new
    (openRead ++ [RelayAction.tick true, .push [0, 1], .poll, .poll, .push [7]] ++ fullRead ++
      [RelayAction.handle, .sent (.ok ())]) _ rfl (by decide)).1⟩

/-- The tick wins when the length has been read and the payload awaited. The loop
forwards one datagram, made of the wrong bytes. -/
theorem tick_loses_boundary :
    ∃ s, Transition.run (step ipv4Codec) (start ipv4Codec resolver PipeInner.new)
        ([.push [0, 3]] ++ fullRead ++ openRead ++ [.tick true, .push [0, 1], .poll, .poll, .push [7]] ++
          fullRead ++ [.handle, .sent (.ok ())]) = some s ∧
      s.arrived = [0, 3, 0, 1, 7] ∧ s.pipe.unread s.readFut.pc = [] ∧
      s.forwarded = [(([9, 9, 9, 9], 53), [7])] ∧
      uninterrupted ipv4Codec resolver s.arrived = [(([9, 9, 9, 9], 53), [0, 1, 7])] :=
  ⟨_, rfl, rfl, rfl, rfl, rfl⟩

end Relay

end AnyTls

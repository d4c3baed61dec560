import AnyTls.Server.HandlerReads

/-! One destination per stream. `handle_session` goes round its loop after a relay
and reads another destination unless the stream is terminated. Every way a relay
ends leaves it so, except an error of the outbound side. -/
namespace AnyTls
variable {Address : Type}

/-- The address decoder reports malformed bytes, not a broken session. -/
def AddressCodec.Honest (codec : AddressCodec Address) : Prop :=
  codec.retrieve.FailsOnly fun error => isErrorOfSessionBroken error = false

theorem AddressCodec.Honest.packet {codec : AddressCodec Address} (honest : codec.Honest) (mode : UotMode) :
    (uotGetPacketFromStream codec mode).FailsOnly fun error => isErrorOfSessionBroken error = false := by
  have payload {α : Type} (f : Bytes → α) : (uotPayload.bind fun bytes => .done (f bytes)).FailsOnly
      fun error : IoError => isErrorOfSessionBroken error = false := by
    refine .bind (.bind ?_ ?_) fun _ => trivial
    · exact fun _ => trivial
    · exact fun _ _ => trivial
  cases mode with
  | datagram => exact .bind honest fun destination => payload _
  | connected => exact payload _

theorem PollCase.failsOnly {α : Type} {pipe pipe' fut fut'} {program : ReadProgram IoError α}
    {held bytes polled P} (poll : PollCase pipe fut program held pipe' fut' bytes polled)
    (fails : program.FailsOnly P) :
    ∀ next kept, polled = .pending next kept → next.FailsOnly P := by
  cases poll with
  | start | running =>
    rintro _ _ ⟨⟩
    exact fails
  | ready =>
    intro next kept same
    have fed := fails.feed (held ++ bytes)
    revert same fed
    generalize program.feed (held ++ bytes) = outcome
    obtain ⟨after, left⟩ := outcome
    cases after with
    | done value => nofun
    | fail error => nofun
    | read count next =>
      rintro ⟨⟩ fed
      exact fed
  | done | fail | error | panicked | eof => nofun

def S2oPc.isOver : S2oPc → Bool
  | .shutdown _ | .done => true
  | _ => false

def O2sPc.isOver : O2sPc → Bool
  | .done => true
  | _ => false

/-- How many destinations a handler has read, phase by phase, and that it comes back
to its loop with one only when the stream is terminated. -/
def Once (terminated : Bool) (count : Nat) : Phase Address → Prop
  | .check => count = 0 ∨ count = 1 ∧ terminated = true
  | .approve | .retrieve _ _ | .retrieveFailed _ => count = 0
  | .closing _ after =>
    match after with
    | .returnOk => count = 0
    | .returnError _ | .again => count = 1
  | .uotRequest _ _ | .uotCreate _ | .uotReady _ | .uotHandshake _ | .connect _ | .tcpHandshake _
  | .refuse _ => count = 1
  | .uotRelay relay => count = 1 ∧ (relay.status = .ended (.ok ()) → terminated = true) ∧
      relay.decoder.FailsOnly fun error => isErrorOfSessionBroken error = false
  | .tcpRelay s2o o2s cancel => count = 1 ∧
      ((cancel || s2o.isOver || o2s.isOver) = true → terminated = true)
  | .returned _ | .panicked => count ≤ 1

/-- The outbound side reports no error while the stream is open. -/
def outboundCalm (s : Handler Address) : HandlerAction → Bool
  | .s2o (.wrote (.error _)) | .o2s (.read (.error _)) => s.stream.isTerminated
  | _ => true

section
variable {s t : Handler Address} {codec : AddressCodec Address} {a : HandlerAction}

theorem event_terminated {event} {stream stream' : ServerStream}
    (happened : stream.event event = some stream') (terminated : stream.isTerminated = true) :
    stream'.isTerminated = true := by
  simp only [ServerStream.isTerminated, Bool.or_eq_true] at terminated ⊢
  exact terminated.imp (event_stays happened).1 (event_stays happened).2

theorem Once.mono {before after : Bool} {count : Nat} {phase : Phase Address}
    (once : Once before count phase) (later : before = true → after = true) :
    Once after count phase := by
  cases phase with
  | check => exact once.imp_right fun both => ⟨both.1, later both.2⟩
  | uotRelay relay => exact ⟨once.1, fun ended => later (once.2.1 ended), once.2.2⟩
  | tcpRelay s2o o2s cancel => exact ⟨once.1, fun left => later (once.2 left)⟩
  | _ => exact once

theorem Once.le {terminated : Bool} {count : Nat} {phase : Phase Address}
    (once : Once terminated count phase) : count ≤ 1 := by
  cases phase with
  | check => rcases once with unread | one <;> omega
  | closing pc after => cases after <;> simp only [Once] at once <;> omega
  | uotRelay relay | tcpRelay s2o o2s cancel => simp only [Once] at once; omega
  | returned result | panicked => exact once
  | _ => simp only [Once] at once; omega

theorem Quiet.once {phase : Phase Address} (quiet : Quiet codec s a phase) (honest : codec.Honest)
    (once : Once s.stream.isTerminated s.destinations.length s.phase)
    (calm : outboundCalm s a = true) :
    Once s.stream.isTerminated s.destinations.length phase := by
  have bound := once.le
  cases quiet with
  | terminated | exits | fails | createFails | handshakeFails | relayFails | relayPanics => exact bound
  | proceeds here live =>
    rw [here, live] at once
    rcases once with unread | ⟨-, ⟨⟩⟩
    exact unread
  | approved here | denied here => rwa [here] at once
  | created request _ here next => rw [here] at once; rcases next with rfl | rfl <;> exact once
  | ready request here => rwa [here] at once
  | readyFails request error here => rwa [here] at once
  | connects destination here => rwa [here] at once
  | connectFails destination error here => rwa [here] at once
  | uotStarts request here =>
    rw [here] at once
    exact ⟨once, nofun, (honest.packet _).feed []⟩
  | tcpStarts destination here =>
    rw [here] at once
    exact ⟨once, nofun⟩
  | refuses error here => rwa [here] at once
  | relayEnds relay here ended =>
    rw [here] at once
    exact .inr ⟨once.1, once.2.1 ended⟩
  | relayDenied relay here =>
    rw [here] at once
    exact once.1
  | joins cancel here =>
    rw [here] at once
    exact .inr ⟨once.1, once.2 (by simp [S2oPc.isOver])⟩
  | s2oCancelled o2s here =>
    rw [here] at once
    exact ⟨once.1, fun _ => once.2 rfl⟩
  | s2oTick o2s cancel approved here =>
    rw [here] at once
    cases approved <;> exact once
  | s2oWrote bytes o2s cancel here => rwa [here] at once
  | s2oFails bytes o2s cancel error here =>
    rw [here] at once
    exact ⟨once.1, fun _ => calm⟩
  | s2oShutdown failed o2s cancel result after here =>
    rw [here] at once
    exact ⟨once.1, fun _ => once.2 (by simp [S2oPc.isOver])⟩
  | o2sCancelled s2o here =>
    rw [here] at once
    exact ⟨once.1, fun _ => once.2 rfl⟩
  | o2sTick s2o cancel approved here =>
    rw [here] at once
    cases approved <;> exact once
  | o2sEof s2o cancel here => rwa [here] at once
  | o2sWrote s2o cancel bytes here => rwa [here] at once
  | o2sRefused s2o cancel bytes here gone =>
    rw [here] at once
    exact ⟨once.1, fun _ => gone⟩
  | o2sFails s2o cancel error here =>
    rw [here] at once
    exact ⟨once.1, fun _ => calm⟩

theorem Closes.once {pc : ClosePc} {outcome : ClosePc ⊕ Except IoError Unit} {before after : Phase Address}
    {count : Nat} {terminated : Bool} (closes : Closes before pc outcome after)
    (once : Once terminated count before) : Once true count after := by
  cases closes with
  | main pc next after => exact once.mono fun _ => rfl
  | mainDone pc after result =>
    cases after with
    | returnOk => exact Nat.le_trans (Nat.le_of_eq once) (Nat.zero_le 1)
    | returnError error => cases result <;> exact Nat.le_of_eq once
    | again => exact .inr ⟨once, rfl⟩
  | s2o | s2oDone | o2s | o2sDone => exact ⟨once.1, fun _ => rfl⟩

/-- A packet future fails with the error of a broken session only on a closed stream. -/
theorem broken_closed {α : Type} {program : ReadProgram IoError α} {held bytes pipe fut error}
    (reads : Reads s) (poll : PollCase s.stream.pipe s.readFut program held pipe fut bytes (.failed error))
    (honest : program.FailsOnly fun error => isErrorOfSessionBroken error = false)
    (broken : isErrorOfSessionBroken error = true) : s.stream.closed = true := by
  by_contra still
  have delivering := reads.delivering (by simpa using still)
  obtain ⟨left, rejected⟩ := (poll.delivers reads.room delivering).2 error rfl
  have verdict := honest.feed (held ++ bytes)
  rw [rejected] at verdict
  exact nomatch verdict.symm.trans broken

theorem Once.relay {relay next action count} (reads : Reads s) (honest : codec.Honest)
    (once : Once s.stream.isTerminated count (.uotRelay relay))
    (moved : Relay.Moved codec { relay with pipe := s.stream.pipe, readFut := s.readFut } action next) :
    Once s.stream.isTerminated count (.uotRelay next) := by
  obtain ⟨one, ended, decoder⟩ := once
  cases moved with
  | poll pipe fut bytes polled polling =>
    have poll := pollProgram_cases polling
    have pending := poll.failsOnly decoder
    cases polled with
    | pending program held => exact ⟨one, ended, pending program held rfl⟩
    | done packet => exact ⟨one, by rintro ⟨⟩, decoder⟩
    | failed error =>
      rcases Relay.packetError_ends { relay with
        pipe, readFut := fut, consumed := relay.consumed ++ bytes, taken := relay.taken ++ bytes } error
        with ⟨broken, same⟩ | same
      · have closed := broken_closed reads poll decoder broken
        simp only [Relay.took, same]
        exact ⟨one, fun _ => by simp [ServerStream.isTerminated, closed], decoder⟩
      · simp only [Relay.took, same]
        exact ⟨one, by rintro ⟨⟩, decoder⟩
    | panicked => exact ⟨one, by rintro ⟨⟩, decoder⟩
  | restarts action forwarded => exact ⟨one, by rintro ⟨⟩, (honest.packet _).feed []⟩
  | handles status running => exact ⟨one, fun ended => absurd ended (running _), decoder⟩
  | fails action error => exact ⟨one, by rintro ⟨⟩, decoder⟩

theorem once_step (honest : codec.Honest)
    (inv : Reads s ∧ Once s.stream.isTerminated s.destinations.length s.phase)
    (calm : outboundCalm s a = true) (stepped : s.step codec a = some t) :
    Reads t ∧ Once t.stream.isTerminated t.destinations.length t.phase := by
  obtain ⟨reads, once⟩ := inv
  refine ⟨reads.step stepped, ?_⟩
  have moved := Handler.step_moved stepped
  cases moved with
  | session event stream happened => exact once.mono (event_terminated happened)
  | quiet _ phase quiet => exact quiet.once honest once calm
  | close _ pc phase closes =>
    have closed := ServerStream.closeStep_closed fun past => reads.marked (closes.past past)
    simp only [ServerStream.isTerminated, closed, Bool.true_or]
    exact closes.once once
  | retrieve program held bytes pipe fut polled here poll =>
    rw [here] at once
    cases polled with
    | pending program held => exact once
    | done destination =>
      have one : (s.destinations ++ [destination]).length = 1 := by
        rw [List.length_append, once]
        rfl
      simp only [Handler.retrieved]
      split_ifs
      · exact one
      · exact one
    | failed error => exact once
    | panicked => exact once.le
  | request program held bytes pipe fut polled here poll =>
    rw [here] at once
    cases polled with
    | pending program held => exact once
    | done request => exact once
    | failed error => exact once.le
    | panicked => exact once.le
  | relay relay next outer inner here _ relayed looping =>
    rw [here] at once
    have looped : Once s.stream.isTerminated s.destinations.length (.uotRelay next) :=
      once.relay reads honest (Relay.step_moved relayed looping)
    exact looped
  | s2oPoll o2s cancel pipe fut result here polled =>
    rw [here] at once
    -- the read ends, or fails, only on a closed stream
    have ends (other : ¬ (result = .pending ∨ result = .panicked ∨
        ∃ bytes, bytes ≠ [] ∧ result = .ready bytes)) : s.stream.isTerminated = true := by
      have closed : s.stream.closed = true := by
        by_contra still
        exact other (pollRead_delivers reads.room (reads.delivering (by simpa using still)) polled).2
      simp [ServerStream.isTerminated, closed]
    cases result with
    | pending => exact once
    | ready bytes =>
      cases bytes with
      | nil => exact ⟨once.1, fun _ => ends (by simp)⟩
      | cons byte rest => exact once
    | failed error => exact ⟨once.1, fun _ => ends (by simp)⟩
    | panicked => exact once.le

end

/-- A stream carries one destination. In every run in which the outbound side
reports no error on an open stream, at most one destination is read, and once it is
read no byte is offered to the address decoder as another. -/
theorem one_destination (codec : AddressCodec Address) (honest : codec.Honest) (peerVersion : UInt8)
    (actions : List HandlerAction) (s : Handler Address)
    (path : Transition.run (Handler.step codec) (Handler.start peerVersion) actions = some s)
    (calm : Transition.Along (Handler.step codec) (fun s a => outboundCalm s a = true)
      (Handler.start peerVersion) actions) :
    s.destinations.length ≤ 1 ∧
    (s.destinations ≠ [] → ∀ program held, s.phase ≠ .retrieve program held) := by
  have inv : Reads s ∧ Once s.stream.isTerminated s.destinations.length s.phase :=
    Transition.invariant_along (once_step honest) ⟨.start peerVersion, .inl rfl⟩ calm path
  refine ⟨inv.2.le, fun read program held here => ?_⟩
  have unread := inv.2
  rw [here] at unread
  exact read (List.eq_nil_of_length_eq_zero unread)

theorem ipv4Codec_honest : ipv4Codec.Honest := by
  intro kind
  simp only
  split_ifs
  · exact fun _ _ => trivial
  · rfl

/-- The polls that read an IPv4 address that has arrived in one piece. -/
def addressRead : List HandlerAction := List.replicate 9 .poll

/-- A handler up to its TCP relay to 10.0.0.1:80. -/
def relaying : List HandlerAction :=
  [HandlerAction.advance, .approved true, .session (.push [1, 10, 0, 0, 1, 0, 80])] ++ addressRead ++
    [HandlerAction.connected (.ok ()), .advance]

/-- Payload, the end of the outbound connection, and the way out. -/
theorem relay_one_destination :
    ∃ s, Transition.run (Handler.step ipv4Codec) (Handler.start 2) (relaying ++
        [.session (.push [1, 10, 0, 0, 2, 0, 81]), .o2s (.read (.ok [])), .o2s .close, .o2s .close,
          .o2s .close, .o2s .close, .session .pipeClose, .s2o (.tick false), .s2o .close,
          .s2o (.shutdown (.ok ())), .advance, .advance]) = some s ∧
      s.phase = .returned (.ok ()) ∧ s.destinations.length ≤ 1 ∧
      (s.destinations ≠ [] → ∀ program held, s.phase ≠ .retrieve program held) :=
  ⟨_, rfl, rfl, one_destination ipv4Codec ipv4Codec_honest 2 (relaying ++
    [HandlerAction.session (.push [1, 10, 0, 0, 2, 0, 81]), .o2s (.read (.ok [])), .o2s .close, .o2s .close,
      .o2s .close, .o2s .close, .session .pipeClose, .s2o (.tick false), .s2o .close,
      .s2o (.shutdown (.ok ())), .advance, .advance]) _ rfl (by decide)⟩

/-- The outbound connection is reset while the relay waits for payload. Both halves end, the stream
is open, and the next payload is read as a second destination. Its first byte comes alone: the read
that the relay has left in the stream returns what comes first to a reader with room for one byte. -/
theorem reset_reads_destination :
    ∃ s, Transition.run (Handler.step ipv4Codec) (Handler.start 2) (relaying ++
        [.s2o .poll, .s2o .poll, .s2o .poll, .o2s (.read (.error ⟨.connectionReset, "reset"⟩)), .s2o .cancelled,
          .advance, .advance, .approved true, .session (.push [1]), .poll, .poll,
          .session (.push [10, 0, 0, 2, 0, 81])] ++ List.replicate 7 .poll) = some s ∧
      s.stream.closed = false ∧
      s.destinations = [([10, 0, 0, 1], 80), ([10, 0, 0, 2], 81)] ∧
      s.phase = .connect ([10, 0, 0, 2], 81) :=
  ⟨_, rfl, rfl, rfl, rfl⟩

end AnyTls

import AnyTls.Server.Handler

/-! What one step of a handler can do: an event of the session, a move that leaves
the stream alone, a step of a `close`, or a poll of the reader. The invariants of
handlers are proved from these lists. -/
namespace AnyTls
variable {Address : Type}

namespace Relay
variable {codec : AddressCodec Address} {r next : Relay Address} {action : RelayAction}

/-- The branches of the relay loop in a handler. -/
def inLoop : RelayAction → Bool
  | .poll | .handle | .sent _ | .tick true | .inbound _ => true
  | _ => false

/-- What a branch of the relay loop can do. -/
inductive Moved (codec : AddressCodec Address) (r : Relay Address) :
    RelayAction → Relay Address → Prop where
  | poll (pipe readFut bytes polled) :
      pollProgram r.pipe r.readFut r.decoder r.held = some (pipe, readFut, bytes, polled) →
      Moved codec r .poll (r.took pipe readFut bytes polled)
  | restarts (action forwarded) : Moved codec r action ({ r with forwarded }.restart codec)
  | handles (status) : (∀ result, status ≠ .ended result) → Moved codec r .handle { r with status }
  | fails (action error) : action = .sent (.error error) ∨ action = .inbound (.error error) →
      Moved codec r action { r with status := .ended (.error error) }

theorem step_moved (stepped : r.step codec action = some next) (looping : inLoop action = true) :
    Moved codec r action next := by
  cases action with
  | poll =>
    simp only [step] at stepped
    split at stepped
    · obtain ⟨⟨pipe, fut, bytes, polled⟩, polling, rfl⟩ := Option.map_eq_some_iff.mp stepped
      exact .poll pipe fut bytes polled polling
    · cases stepped
  | handle =>
    simp only [step] at stepped
    split at stepped
    · cases stepped
      unfold handle
      split
      · exact .restarts _ r.forwarded
      · split
        · exact .handles _ nofun
        · exact .handles _ nofun
    · cases stepped
  | sent result =>
    simp only [step] at stepped
    split at stepped
    · split at stepped
      · cases stepped
        exact .restarts _ _
      · cases stepped
        exact .fails _ _ (.inl rfl)
    · cases stepped
  | tick approved =>
    cases approved with
    | false => cases looping
    | true =>
      simp only [step] at stepped
      split at stepped
      · cases stepped
      · cases stepped
        exact .restarts _ r.forwarded
      · cases stepped
  | inbound result =>
    simp only [step] at stepped
    split at stepped
    · cases stepped
    · cases stepped
      cases result with
      | ok done => exact .restarts _ r.forwarded
      | error error => exact .fails _ error (.inr rfl)
    · cases stepped
  | push data | finish error | pipeClose | socks frag port result | replyClosed result => cases looping

/-- A failed packet future ends the loop, quietly only on an error of a broken session. -/
theorem packetError_ends (r : Relay Address) (error) :
    (isErrorOfSessionBroken error = true ∧ r.packetError error = { r with status := .ended (.ok ()) }) ∨
    r.packetError error = { r with status := .ended (.error error) } := by
  unfold packetError
  split
  · exact .inr rfl
  · split_ifs with broken
    · exact .inl ⟨broken, rfl⟩
    · exact .inr rfl

end Relay

section
variable {event : StreamEvent} {stream stream' : ServerStream}

theorem event_stays (happened : stream.event event = some stream') :
    (stream.closed = true → stream'.closed = true) ∧
    (stream.txClosed = true → stream'.txClosed = true) := by
  unfold ServerStream.event at happened
  split at happened
  · split_ifs at happened
    split at happened
    · cases happened
      exact ⟨id, id⟩
    · cases happened
      exact ⟨id, id⟩
  · split_ifs at happened
    cases happened
    exact ⟨id, id⟩
  · split at happened
    · split_ifs at happened
      · cases happened
        exact ⟨id, id⟩
      · cases happened
        exact ⟨fun _ => rfl, id⟩
    · cases happened
  · split at happened
    · cases happened
      exact ⟨id, id⟩
    · cases happened
  · split_ifs at happened
    cases happened
    exact ⟨id, id⟩
  · cases happened
    exact ⟨id, fun _ => rfl⟩

end

/-- The moves that change the phase only. -/
inductive Quiet (codec : AddressCodec Address) (s : Handler Address) :
    HandlerAction → Phase Address → Prop where
  | terminated : s.phase = .check → s.stream.isTerminated = true →
      Quiet codec s .advance (.returned (.ok ()))
  | proceeds : s.phase = .check → s.stream.isTerminated = false → Quiet codec s .advance .approve
  | approved : s.phase = .approve →
      Quiet codec s (.approved true) (.retrieve (codec.retrieve.feed []).1 [])
  | denied : s.phase = .approve → Quiet codec s (.approved false) (.closing .mark .returnOk)
  | exits (error) : s.phase = .retrieveFailed error → Quiet codec s .advance (.returned (.ok ()))
  | fails (error) : s.phase = .retrieveFailed error → Quiet codec s .advance (.returned (.error error))
  | created (request phase) : s.phase = .uotCreate request →
      phase = .uotHandshake request ∨ phase = .uotReady request →
      Quiet codec s (.createOutbound (.ok ())) phase
  | createFails (request error) : s.phase = .uotCreate request →
      Quiet codec s (.createOutbound (.error error)) (.returned (.error error))
  | ready (request) : s.phase = .uotReady request → Quiet codec s (.outboundReady (.ok ())) (.uotHandshake request)
  | readyFails (request error) : s.phase = .uotReady request →
      Quiet codec s (.outboundReady (.error error)) (.refuse error)
  | connects (destination) : s.phase = .connect destination →
      Quiet codec s (.connected (.ok ())) (.tcpHandshake destination)
  | connectFails (destination error) : s.phase = .connect destination →
      Quiet codec s (.connected (.error error)) (.refuse error)
  | handshakeFails (error) : (∃ request, s.phase = .uotHandshake request) ∨
        (∃ destination, s.phase = .tcpHandshake destination) ∨ (∃ cause, s.phase = .refuse cause) →
      s.stream.txClosed = true → Quiet codec s .advance (.returned (.error error))
  | uotStarts (request) : s.phase = .uotHandshake request →
      Quiet codec s .advance (.uotRelay (Relay.start codec (Handler.relayKind request) s.stream.pipe))
  | tcpStarts (destination) : s.phase = .tcpHandshake destination →
      Quiet codec s .advance (.tcpRelay .select .select false)
  | refuses (error) : s.phase = .refuse error → Quiet codec s .advance (.closing .mark (.returnError error))
  | relayEnds (relay) : s.phase = .uotRelay relay → relay.status = .ended (.ok ()) → Quiet codec s .advance .check
  | relayFails (relay error) : s.phase = .uotRelay relay →
      relay.status = .ended (.error error) → Quiet codec s .advance (.returned (.error error))
  | relayPanics (relay) : s.phase = .uotRelay relay → relay.status = .panicked → Quiet codec s .advance .panicked
  | relayDenied (relay) : s.phase = .uotRelay relay → Quiet codec s (.relay (.tick false)) (.closing .mark .again)
  | joins (cancel) : s.phase = .tcpRelay .done .done cancel → Quiet codec s .advance .check
  | s2oCancelled (o2s) : s.phase = .tcpRelay .select o2s true →
      Quiet codec s (.s2o .cancelled) (.tcpRelay .done o2s true)
  | s2oTick (o2s cancel approved) : s.phase = .tcpRelay .select o2s cancel → Quiet codec s (.s2o (.tick approved))
        (.tcpRelay (if approved then .select else .closing .mark) o2s cancel)
  | s2oWrote (bytes o2s cancel) : s.phase = .tcpRelay (.writing bytes) o2s cancel →
      Quiet codec s (.s2o (.wrote (.ok ()))) (.tcpRelay .select o2s cancel)
  | s2oFails (bytes o2s cancel error) : s.phase = .tcpRelay (.writing bytes) o2s cancel →
      Quiet codec s (.s2o (.wrote (.error error))) (.tcpRelay (.shutdown true) o2s cancel)
  | s2oShutdown (failed o2s cancel result after) : s.phase = .tcpRelay (.shutdown failed) o2s cancel →
      after = cancel ∨ after = (cancel || failed) →
      Quiet codec s (.s2o (.shutdown result)) (.tcpRelay .done o2s after)
  | o2sCancelled (s2o) : s.phase = .tcpRelay s2o .select true →
      Quiet codec s (.o2s .cancelled) (.tcpRelay s2o .done true)
  | o2sTick (s2o cancel approved) : s.phase = .tcpRelay s2o .select cancel → Quiet codec s (.o2s (.tick approved))
        (.tcpRelay s2o (if approved then .select else .closing .mark) cancel)
  | o2sEof (s2o cancel) : s.phase = .tcpRelay s2o .select cancel →
      Quiet codec s (.o2s (.read (.ok []))) (.tcpRelay s2o (.closing .mark) cancel)
  | o2sWrote (s2o cancel bytes) : s.phase = .tcpRelay s2o .select cancel →
      Quiet codec s (.o2s (.read (.ok bytes))) (.tcpRelay s2o .select cancel)
  | o2sRefused (s2o cancel bytes) : s.phase = .tcpRelay s2o .select cancel → s.stream.isTerminated = true →
      Quiet codec s (.o2s (.read (.ok bytes))) (.tcpRelay s2o .done true)
  | o2sFails (s2o cancel error) : s.phase = .tcpRelay s2o .select cancel →
      Quiet codec s (.o2s (.read (.error error))) (.tcpRelay s2o .done true)

/-- A phase in which a `close` is at `pc`, and the phase after that step. -/
inductive Closes : Phase Address → ClosePc → ClosePc ⊕ Except IoError Unit → Phase Address → Prop where
  | main (pc next after) : Closes (.closing pc after) pc (.inl next) (.closing next after)
  | mainDone (pc after result) : Closes (.closing pc after) pc (.inr result) (Handler.afterClose after result)
  | s2o (pc next o2s cancel) :
      Closes (.tcpRelay (.closing pc) o2s cancel) pc (.inl next) (.tcpRelay (.closing next) o2s cancel)
  | s2oDone (pc o2s cancel result) : Closes (.tcpRelay (.closing pc) o2s cancel) pc (.inr result)
        (.tcpRelay (.shutdown false) o2s cancel)
  | o2s (pc next s2o cancel) :
      Closes (.tcpRelay s2o (.closing pc) cancel) pc (.inl next) (.tcpRelay s2o (.closing next) cancel)
  | o2sDone (pc s2o cancel result) :
      Closes (.tcpRelay s2o (.closing pc) cancel) pc (.inr result) (.tcpRelay s2o .done cancel)

namespace Handler
variable {s t : Handler Address} {codec : AddressCodec Address} {a : HandlerAction}

inductive Moved (codec : AddressCodec Address) (s : Handler Address) :
    HandlerAction → Handler Address → Prop where
  | session (event stream) : s.stream.event event = some stream → Moved codec s (.session event) { s with stream }
  | quiet (a phase) : Quiet codec s a phase → Moved codec s a { s with phase }
  | close (a pc phase) : Closes s.phase pc (s.stream.closeStep pc).2 phase →
      Moved codec s a { s with stream := (s.stream.closeStep pc).1, phase }
  | retrieve (program held bytes pipe readFut polled) : s.phase = .retrieve program held →
      pollProgram s.stream.pipe s.readFut program held = some (pipe, readFut, bytes, polled) →
      Moved codec s .poll (s.retrieved codec pipe readFut polled)
  | request (program held bytes pipe readFut polled) : s.phase = .uotRequest program held →
      pollProgram s.stream.pipe s.readFut program held = some (pipe, readFut, bytes, polled) →
      Moved codec s .poll
        { s with stream := { s.stream with pipe }, readFut, phase := requested polled }
  | relay (relay next outer inner) : s.phase = .uotRelay relay → inner = outer ∨ (∃ result, outer = .inbound result ∧
        inner = .inbound (result.bind fun _ => s.stream.write)) →
      Relay.step codec { relay with pipe := s.stream.pipe, readFut := s.readFut } inner = some next →
      Relay.inLoop inner = true →
      Moved codec s (.relay outer)
        { s with
          stream := { s.stream with pipe := next.pipe }, readFut := next.readFut
          phase := .uotRelay next }
  | s2oPoll (o2s cancel pipe readFut result) : s.phase = .tcpRelay .select o2s cancel →
      pollRead s.stream.pipe s.readFut RELAY_BUFFER = some (pipe, readFut, result) →
      Moved codec s (.s2o .poll)
        { s with stream := { s.stream with pipe }, readFut, phase := relayRead o2s cancel result }

theorem handshake_error {stream : ServerStream} {error} (failed : stream.handshake = .error error) :
    stream.txClosed = true := by
  unfold ServerStream.handshake at failed
  split_ifs at failed with gone
  exact gone.2

theorem write_error {stream : ServerStream} {error} (failed : stream.write = .error error) :
    stream.isTerminated = true := by
  unfold ServerStream.write at failed
  split_ifs at failed with closed gone
  · simp [ServerStream.isTerminated, closed]
  · simp [ServerStream.isTerminated, gone]

theorem close_moved {pc next stream phase} (stepped : s.stream.closeStep pc = (stream, .inl next))
    (closes : Closes s.phase pc (.inl next) phase) : Moved codec s a { s with stream, phase } := by
  have moved : Moved codec s a _ := .close a pc phase (by rw [stepped]; exact closes)
  rwa [stepped] at moved

theorem close_done {pc result stream phase} (stepped : s.stream.closeStep pc = (stream, .inr result))
    (closes : Closes s.phase pc (.inr result) phase) : Moved codec s a { s with stream, phase } := by
  have moved : Moved codec s a _ := .close a pc phase (by rw [stepped]; exact closes)
  rwa [stepped] at moved

theorem advance_moved (advanced : s.advance codec = some t) : Moved codec s .advance t := by
  unfold advance at advanced
  split at advanced
  · rename_i here
    split_ifs at advanced with terminated
    · cases advanced
      exact .quiet _ _ (.terminated here terminated)
    · cases advanced
      exact .quiet _ _ (.proceeds here (by simpa using terminated))
  · rename_i error here
    split_ifs at advanced
    · cases advanced
      exact .quiet _ _ (.exits error here)
    · cases advanced
      exact .quiet _ _ (.fails error here)
  · rename_i request here
    split at advanced
    · rename_i failed
      cases advanced
      exact .quiet _ _ (.handshakeFails _ (.inl ⟨request, here⟩) (handshake_error failed))
    · cases advanced
      exact .quiet _ _ (.uotStarts request here)
  · rename_i relay here
    split at advanced
    · rename_i ended
      cases advanced
      exact .quiet _ _ (.relayEnds relay here ended)
    · rename_i error ended
      cases advanced
      exact .quiet _ _ (.relayFails relay error here ended)
    · rename_i panicked
      cases advanced
      exact .quiet _ _ (.relayPanics relay here panicked)
    · cases advanced
  · rename_i destination here
    split at advanced
    · rename_i failed
      cases advanced
      exact .quiet _ _ (.handshakeFails _ (.inr (.inl ⟨destination, here⟩)) (handshake_error failed))
    · cases advanced
      exact .quiet _ _ (.tcpStarts destination here)
  · rename_i cancel here
    cases advanced
    exact .quiet _ _ (.joins cancel here)
  · rename_i cause here
    split at advanced
    · rename_i failed
      cases advanced
      exact .quiet _ _ (.handshakeFails _ (.inr (.inr ⟨cause, here⟩)) (handshake_error failed))
    · cases advanced
      exact .quiet _ _ (.refuses cause here)
  · rename_i pc after here
    split at advanced
    · rename_i stepped
      cases advanced
      exact close_moved stepped (here ▸ .main pc _ after)
    · rename_i stepped
      cases advanced
      exact close_done stepped (here ▸ .mainDone pc after _)
  · cases advanced

theorem poll_moved (polled : s.poll codec = some t) : Moved codec s .poll t := by
  unfold poll at polled
  split at polled
  · rename_i program held here
    obtain ⟨⟨pipe, fut, bytes, outcome⟩, polling, rfl⟩ := Option.map_eq_some_iff.mp polled
    exact .retrieve program held bytes pipe fut outcome here polling
  · rename_i program held here
    obtain ⟨⟨pipe, fut, bytes, outcome⟩, polling, rfl⟩ := Option.map_eq_some_iff.mp polled
    exact .request program held bytes pipe fut outcome here polling
  · cases polled

theorem relay_moved {relay action} (here : s.phase = .uotRelay relay)
    (stepped : s.relay codec relay action = some t) : Moved codec s (.relay action) t := by
  cases action with
  | poll | handle | sent result =>
    obtain ⟨next, moved, rfl⟩ := Option.map_eq_some_iff.mp stepped
    exact .relay relay next _ _ here (.inl rfl) moved rfl
  | tick approved =>
    cases approved with
    | true =>
      obtain ⟨next, moved, rfl⟩ := Option.map_eq_some_iff.mp stepped
      exact .relay relay next _ _ here (.inl rfl) moved rfl
    | false =>
      simp only [Handler.relay] at stepped
      split at stepped
      · cases stepped
        exact .quiet _ _ (.relayDenied relay here)
      · cases stepped
  | inbound result =>
    obtain ⟨next, moved, rfl⟩ := Option.map_eq_some_iff.mp stepped
    exact .relay relay next _ _ here (.inr ⟨result, rfl, rfl⟩) moved rfl
  | push data | finish error | pipeClose | socks frag port result | replyClosed result => cases stepped

theorem s2o_moved {pc o2s cancel action} (here : s.phase = .tcpRelay pc o2s cancel)
    (stepped : s.s2o pc o2s cancel action = some t) :
    Moved codec s (.s2o action) t := by
  cases action with
  | cancelled =>
    simp only [Handler.s2o] at stepped
    split at stepped
    · split_ifs at stepped with told
      cases stepped
      subst told
      exact .quiet _ _ (.s2oCancelled o2s here)
    · cases stepped
  | tick approved =>
    simp only [Handler.s2o] at stepped
    split at stepped
    · cases stepped
      exact .quiet _ _ (.s2oTick o2s cancel approved here)
    · cases stepped
  | poll =>
    simp only [Handler.s2o] at stepped
    split at stepped
    · obtain ⟨⟨pipe, fut, result⟩, polled, rfl⟩ := Option.map_eq_some_iff.mp stepped
      exact .s2oPoll o2s cancel pipe fut result here polled
    · cases stepped
  | wrote result =>
    simp only [Handler.s2o] at stepped
    split at stepped
    · cases stepped
      exact .quiet _ _ (.s2oWrote _ o2s cancel here)
    · cases stepped
      exact .quiet _ _ (.s2oFails _ o2s cancel _ here)
    · cases stepped
  | close =>
    simp only [Handler.s2o] at stepped
    split at stepped
    · rename_i pc
      split at stepped
      · rename_i moved
        cases stepped
        exact close_moved moved (here ▸ .s2o pc _ o2s cancel)
      · rename_i moved
        cases stepped
        exact close_done moved (here ▸ .s2oDone pc o2s cancel _)
    · cases stepped
  | shutdown result =>
    simp only [Handler.s2o] at stepped
    split at stepped
    · cases stepped
      exact .quiet _ _ (.s2oShutdown _ o2s cancel _ _ here (.inr rfl))
    · cases stepped
      exact .quiet _ _ (.s2oShutdown _ o2s cancel _ _ here (.inl rfl))
    · cases stepped

theorem o2s_moved {s2o pc cancel action} (here : s.phase = .tcpRelay s2o pc cancel)
    (stepped : s.o2s s2o pc cancel action = some t) :
    Moved codec s (.o2s action) t := by
  cases action with
  | cancelled =>
    simp only [Handler.o2s] at stepped
    split at stepped
    · split_ifs at stepped with told
      cases stepped
      subst told
      exact .quiet _ _ (.o2sCancelled s2o here)
    · cases stepped
  | tick approved =>
    simp only [Handler.o2s] at stepped
    split at stepped
    · cases stepped
      exact .quiet _ _ (.o2sTick s2o cancel approved here)
    · cases stepped
  | read result =>
    simp only [Handler.o2s] at stepped
    split at stepped
    · cases stepped
      exact .quiet _ _ (.o2sEof s2o cancel here)
    · split at stepped
      · cases stepped
        exact .quiet _ _ (.o2sWrote s2o cancel _ here)
      · rename_i failed
        cases stepped
        exact .quiet _ _ (.o2sRefused s2o cancel _ here (write_error failed))
    · cases stepped
      exact .quiet _ _ (.o2sFails s2o cancel _ here)
    · cases stepped
  | close =>
    simp only [Handler.o2s] at stepped
    split at stepped
    · rename_i pc
      split at stepped
      · rename_i moved
        cases stepped
        exact close_moved moved (here ▸ .o2s pc _ s2o cancel)
      · rename_i moved
        cases stepped
        exact close_done moved (here ▸ .o2sDone pc s2o cancel _)
    · cases stepped

theorem step_moved (stepped : s.step codec a = some t) : Moved codec s a t := by
  cases a with
  | session event =>
    obtain ⟨stream, happened, rfl⟩ := Option.map_eq_some_iff.mp stepped
    exact .session event stream happened
  | advance => exact advance_moved stepped
  | approved result =>
    simp only [step] at stepped
    split at stepped
    · rename_i here
      cases stepped
      cases result with
      | true => exact .quiet _ _ (.approved here)
      | false => exact .quiet _ _ (.denied here)
    · cases stepped
  | poll => exact poll_moved stepped
  | createOutbound result =>
    simp only [step] at stepped
    split at stepped
    · rename_i here
      cases stepped
      exact .quiet _ _ (.createFails _ _ here)
    · rename_i request here
      cases stepped
      refine .quiet _ _ (.created request _ here ?_)
      cases request.mode with
      | datagram => exact .inl rfl
      | connected => exact .inr rfl
    · cases stepped
  | outboundReady result =>
    simp only [step] at stepped
    split at stepped
    · rename_i here
      cases stepped
      exact .quiet _ _ (.readyFails _ _ here)
    · rename_i here
      cases stepped
      exact .quiet _ _ (.ready _ here)
    · cases stepped
  | connected result =>
    simp only [step] at stepped
    split at stepped
    · rename_i here
      cases stepped
      exact .quiet _ _ (.connectFails _ _ here)
    · rename_i here
      cases stepped
      exact .quiet _ _ (.connects _ here)
    · cases stepped
  | relay action =>
    simp only [step] at stepped
    split at stepped
    · rename_i here
      exact relay_moved here stepped
    · cases stepped
  | s2o action =>
    simp only [step] at stepped
    split at stepped
    · rename_i here
      exact s2o_moved here stepped
    · cases stepped
  | o2s action =>
    simp only [step] at stepped
    split at stepped
    · rename_i here
      exact o2s_moved here stepped
    · cases stepped

end Handler

end AnyTls

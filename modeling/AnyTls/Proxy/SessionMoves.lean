import AnyTls.Library.ListUpdate
import AnyTls.Library.Transition
import AnyTls.Proxy.Session

/-! The moves of a session: each branch of its step function once, with what the branch has
tested and the state it leaves written out. An invariant about a few fields is proved by cases
of the move, most of which do not touch them. -/
namespace AnyTls

/-- What an action of the receive loop sends, whether it waits for the writer, and where the loop
stands when the frame is taken and when it is refused. -/
inductive ProtocolAction.Sending (rest : List ProtocolAction) :
    ProtocolAction → Frame → Bool → RecvPc → IoError → Prop where
  | sendFrame (frame) : Sending rest (.sendFrame frame) frame false (.applying rest) sessionClosed
  | sendFrameSync (frame) : Sending rest (.sendFrameSync frame) frame true (.awaitingAck rest) sessionClosed
  | alertAndFail (message) : Sending rest (.alertAndFail message)
      (Frame.withData .alert 0 (asBytes message)) true (.alerting message) (IoError.otherError message)

/-- The sid and the end an action takes out of the table. -/
inductive ProtocolAction.Ends : ProtocolAction → UInt32 → Option IoError → Prop where
  | closeLocal (sid) : Ends (.closeLocalStream sid) sid none
  | closeRemote (sid message) :
      Ends (.closeRemoteStream sid message) sid (some (IoError.otherError ("remote: " ++ message)))

/-- The handshake calls on a stream, with the data of their SynAck. -/
inductive SessionAction.Acknowledges (ref : StreamRef) : SessionAction → Bytes → Prop where
  | success : Acknowledges ref (.handshakeSuccess ref) []
  | failure (message) : Acknowledges ref (.handshakeFailure ref message) (asBytes message)

namespace Session

/-- The loop goes on to `next`, and nothing else changes. -/
inductive Turns (s : Session) : RecvPc → Prop where
  | woken : s.recv = .reading → s.closed = true → Turns s (.failed sessionClosed)
  | drained : s.recv = .decoding → Frame.next s.pending = none → Turns s .reading
  | applied : s.recv = .applying [] → Turns s .decoding
  | refused {action rest frame ack next error} : s.recv = .applying (action :: rest) →
      action.Sending rest frame ack next error → s.frameTx.isClosed = true → Turns s (.failed error)
  | pushes {sid data rest ref} :
      s.recv = .applying (.pushStreamData sid data :: rest) → s.streams.lookup sid = some ref →
      Turns s (.pushCheck ref data rest)
  | pushUnknown {sid data rest} :
      s.recv = .applying (.pushStreamData sid data :: rest) → s.streams.lookup sid = none →
      Turns s (.applying rest)
  | synZero {rest} : s.recv = .applying (.ensureIncomingStream 0 :: rest) →
      Turns s (.failed ⟨.invalidData, "SYN cannot use control sid 0"⟩)
  | synLate {sid rest} : s.recv = .applying (.ensureIncomingStream sid :: rest) → sid ≠ 0 → s.isTerminated = true →
      Turns s (.applying rest)
  | synPasses {sid rest} : s.recv = .applying (.ensureIncomingStream sid :: rest) → sid ≠ 0 → s.isTerminated = false →
      Turns s (.incoming sid rest)
  | synKnown {sid rest ref} : s.recv = .incoming sid rest → s.streams.lookup sid = some ref → Turns s (.applying rest)
  | acked {rest} : s.recv = .awaitingAck rest → s.acked = true → Turns s (.applying rest)
  | ackLost {rest} : s.recv = .awaitingAck rest → s.acked = false → s.frameTx.isClosed = true →
      Turns s (.failed s.ackError)
  | alerted {message} : s.recv = .alerting message → (s.acked || s.frameTx.isClosed) = true →
      Turns s (.failed (IoError.otherError message))
  | pushIgnored {ref data rest o} :
      s.recv = .pushCheck ref data rest → s.objects[ref]? = some o → o.stream.closed = true →
      Turns s (.applying rest)
  | pushChecked {ref data rest o} :
      s.recv = .pushCheck ref data rest → s.objects[ref]? = some o → o.stream.closed = false →
      Turns s (.pushData ref data rest)
  | pushClosed {ref data rest o} :
      s.recv = .pushData ref data rest → s.objects[ref]? = some o → o.stream.closed = true →
      Turns s (.pushError ref streamClosed rest)
  | pushOpen {ref data rest o} :
      s.recv = .pushData ref data rest → s.objects[ref]? = some o → o.stream.closed = false →
      Turns s (.pushPipe ref data rest)
  | pushRefused {ref data rest o error pipe} : s.recv = .pushPipe ref data rest → s.objects[ref]? = some o →
      o.stream.pipe.write data = (.error error, pipe) → Turns s (.pushError ref error rest)
  | pushForgiven {ref error rest o} :
      s.recv = .pushError ref error rest → s.objects[ref]? = some o → o.stream.closed = true →
      Turns s (.applying rest)
  | pushFails {ref error rest o} :
      s.recv = .pushError ref error rest → s.objects[ref]? = some o → o.stream.closed = false →
      Turns s (.failed error)
  | markedBefore {ref error rest o} :
      s.recv = .closeMark ref error rest → s.objects[ref]? = some o → o.stream.closed = true →
      Turns s (.applying rest)

/-- An `open_stream` call goes on to `next`, and nothing else changes. -/
inductive Waits (s : Session) : OpenPc → OpenPc → Prop where
  | checkFails {maxStreams} : s.isTerminated = true → Waits s (.check maxStreams) (.returned (.error sessionClosed))
  | checkPasses {maxStreams} : s.isTerminated = false → Waits s (.check maxStreams) (.insert maxStreams)
  | closed {maxStreams} : s.closed = true → Waits s (.insert maxStreams) (.returned (.error sessionClosed))
  | full {maxStreams} : s.closed = false → maxStreams ≤ s.streams.keys.length →
      Waits s (.insert maxStreams) (.returned (.error ⟨.wouldBlock, "Session stream limit reached"⟩))
  | synRefused {ref} : s.frameTx.isClosed = true → Waits s (.syn ref) (.undoRemove ref)
  | undoneBefore {ref o} : s.objects[ref]? = some o → o.stream.closed = true →
      Waits s (.undoMark ref) (.returned (.error sessionClosed))

inductive Move (md5 : Bytes → String) (s : Session) : SessionAction → Session → Prop where
  | asks (maxStreams) : Move md5 s (.openStream maxStreams) { s with opens := s.opens ++ [.check maxStreams] }
  | waits {i pc next} : s.opens[i]? = some pc → Waits s pc next →
      Move md5 s (.openStep i) { s with opens := s.opens.set i next }
  | exhausts {i maxStreams} : s.opens[i]? = some (.insert maxStreams) → s.closed = false →
      s.streams.keys.length < maxStreams → s.nextStreamId + 1 = 0 →
      Move md5 s (.openStep i) { s with
        nextStreamId := s.nextStreamId + 1
        opens := s.opens.set i (.returned (.error (IoError.otherError "Stream identifier exhausted"))) }
  | inserts {i maxStreams} : s.opens[i]? = some (.insert maxStreams) → s.closed = false →
      s.streams.keys.length < maxStreams → s.nextStreamId + 1 ≠ 0 →
      Move md5 s (.openStep i) { s with
        nextStreamId := s.nextStreamId + 1
        objects := s.objects ++ [StreamObject.new (s.nextStreamId + 1) .opening s.handled.length]
        streams := s.streams.insert (s.nextStreamId + 1) s.objects.length
        idleState := false
        opens := s.opens.set i (.syn s.objects.length) }
  | synSent {i ref o} : s.opens[i]? = some (.syn ref) → s.objects[ref]? = some o → s.frameTx.isClosed = false →
      Move md5 s (.openStep i) { s with
        frameTx := ⟨s.frameTx.queue ++ [⟨Frame.new .syn o.stream.id, false⟩], false⟩
        accepted := s.accepted ++ [Frame.new .syn o.stream.id]
        objects := s.objects.modify ref fun o => { o with writer := .idle }
        opens := s.opens.set i (.returned (.ok ref)) }
  | undoRemoves {i ref o} : s.opens[i]? = some (.undoRemove ref) → s.objects[ref]? = some o →
      Move md5 s (.openStep i) { s with
        streams := s.streams.erase o.stream.id
        opens := s.opens.set i (.undoAnnounce ref (s.streams.erase o.stream.id).keys.isEmpty) }
  | undoAnnounces {i ref isIdle} : s.opens[i]? = some (.undoAnnounce ref isIdle) →
      Move md5 s (.openStep i) { s with
        idleState := s.idleState || isIdle, opens := s.opens.set i (.undoMark ref) }
  | undoMarks {i ref o} : s.opens[i]? = some (.undoMark ref) → s.objects[ref]? = some o → o.stream.closed = false →
      Move md5 s (.openStep i) { s with
        objects := s.objects.modify ref (·.markClosed .openFailed), opens := s.opens.set i (.undoFinish ref) }
  | undoFinishes {i ref} : s.opens[i]? = some (.undoFinish ref) →
      Move md5 s (.openStep i) { s with
        objects := s.objects.modify ref
          (·.modifyPipe (·.finishStream (some (IoError.otherError "Session closed"))))
        opens := s.opens.set i (.returned (.error sessionClosed)) }
  | writes {ref o} (buf) : s.objects[ref]? = some o → o.writer = .idle →
      Move md5 s (.write ref buf) (s.modifyObject ref (·.startWrite buf))
  | closes {ref o} : s.objects[ref]? = some o → o.writer = .idle →
      Move md5 s (.close ref) (s.modifyObject ref StreamObject.startClose)
  | pshSent {ref o buf} : s.objects[ref]? = some o → o.writer = .sending buf → s.frameTx.isClosed = false →
      Move md5 s (.writeStep ref) { s with
        frameTx := ⟨s.frameTx.queue ++ [⟨Frame.withData .psh o.stream.id buf, false⟩], false⟩
        accepted := s.accepted ++ [Frame.withData .psh o.stream.id buf]
        objects := s.objects.modify ref fun o =>
          { o with writer := .idle, history := { o.history with sent := o.history.sent ++ buf } } }
  | finSent {ref o} : s.objects[ref]? = some o → o.writer = .finishing → s.frameTx.isClosed = false →
      Move md5 s (.writeStep ref) { s with
        frameTx := ⟨s.frameTx.queue ++ [⟨Frame.new .fin o.stream.id, false⟩], false⟩
        accepted := s.accepted ++ [Frame.new .fin o.stream.id]
        objects := s.objects.modify ref fun o =>
          { o with writer := .idle, history := { o.history with finSent := true } } }
  | sendRefused {ref o} : s.objects[ref]? = some o →
      (∃ buf, o.writer = .sending buf) ∨ o.writer = .finishing → s.frameTx.isClosed = true →
      Move md5 s (.writeStep ref) (s.modifyObject ref fun o => { o with writer := .idle })
  | removes {ref o} : s.objects[ref]? = some o → o.writer = .removing →
      Move md5 s (.writeStep ref) { s with
        streams := s.streams.erase o.stream.id
        objects := s.objects.modify ref fun o =>
          { o with writer := .announcing (s.streams.erase o.stream.id).keys.isEmpty } }
  | announces {ref o isIdle} : s.objects[ref]? = some o → o.writer = .announcing isIdle →
      Move md5 s (.writeStep ref) { s with
        idleState := s.idleState || isIdle
        objects := s.objects.modify ref fun o => { o with writer := .spawning } }
  | spawns {ref o} : s.objects[ref]? = some o → o.writer = .spawning → Move md5 s (.writeStep ref)
        (s.modifyObject ref fun o => { o with writer := .finishing, pipeClosing := true })
  | pipeCloses {ref o} : s.objects[ref]? = some o → o.pipeClosing = true →
      Move md5 s (.pipeClose ref) (s.modifyObject ref fun o =>
        { o.modifyPipe (·.closeWithError none) with pipeClosing := false })
  | reads {ref o} (len) : s.objects[ref]? = some o → o.reader = .idle →
      Move md5 s (.read ref len) (s.modifyObject ref fun o => { o with reader := .reading len .start })
  | readSteps {ref o len pc pipe state} : s.objects[ref]? = some o → o.reader = .reading len pc →
      o.stream.pipe.readStep len pc = some (pipe, state) →
      Move md5 s (.readStep ref) (s.modifyObject ref fun o => o.afterRead len pipe state)
  | readExpires {ref o len pc pipe state} : s.objects[ref]? = some o → o.reader = .reading len pc →
      o.stream.pipe.readDeadline pc = some (pipe, state) →
      Move md5 s (.readDeadline ref) (s.modifyObject ref fun o => o.afterRead len pipe state)
  | readDrops {ref o len pc} : s.objects[ref]? = some o → o.reader = .reading len pc →
      Move md5 s (.dropRead ref) (s.modifyObject ref fun o =>
        { o.modifyPipe (·.dropRead pc) with reader := .idle })
  | acknowledges {a ref o error} : a.Acknowledges ref error → s.objects[ref]? = some o → s.frameTx.isClosed = false →
      Move md5 s a { s with
        frameTx := ⟨s.frameTx.queue ++ [⟨Frame.withData .synAck o.stream.id error, false⟩], false⟩
        accepted := s.accepted ++ [Frame.withData .synAck o.stream.id error] }
  | acknowledged {a ref o error} : a.Acknowledges ref error → s.objects[ref]? = some o → Move md5 s a s
  | receives {chunk} : s.recv = .reading → chunk ≠ [] →
      Move md5 s (.receive chunk) { s with
        pending := s.pending ++ chunk, received := s.received ++ chunk, recv := .decoding }
  | disconnects : s.recv = .reading →
      Move md5 s .disconnect { s with recv := .failed ⟨.unexpectedEof, "Connection closed"⟩ }
  | turns {next} : Turns s next → Move md5 s .recvStep { s with recv := next }
  | alerts {frame rest} : s.recv = .decoding → Frame.next s.pending = some (frame, rest) → frame.cmd = .alert →
      Move md5 s .recvStep { s with
        pending := rest
        handled := s.handled ++ [frame]
        recv := .failed (IoError.otherError "Alert received") }
  | handles {frame rest} : s.recv = .decoding → Frame.next s.pending = some (frame, rest) → frame.cmd ≠ .alert →
      Move md5 s .recvStep { s with
        pending := rest
        handled := s.handled ++ [frame]
        protocolState := (Engine.onFrame md5 s.protocolState s.isClient frame).1
        recv := .applying (Engine.onFrame md5 s.protocolState s.isClient frame).2 }
  | answers {action rest frame ack next error} : s.recv = .applying (action :: rest) →
      action.Sending rest frame ack next error → s.frameTx.isClosed = false →
      Move md5 s .recvStep { s with
        frameTx := ⟨s.frameTx.queue ++ [⟨frame, ack⟩], false⟩
        accepted := s.accepted ++ [frame]
        acked := s.acked && !ack
        recv := next }
  | ends {action rest sid error} : s.recv = .applying (action :: rest) → action.Ends sid error →
      Move md5 s .recvStep { s with
        streams := s.streams.erase sid
        recv := .closeAnnounce (s.streams.lookup sid) (s.streams.erase sid).keys.isEmpty error rest }
  | releases {rest} : s.recv = .applying (.releaseWriteBuffering :: rest) →
      Move md5 s .recvStep { s with
        transcript := s.transcript.apply (.setBuffering false), recv := .applying rest }
  | creates {sid rest} : s.recv = .incoming sid rest → s.streams.lookup sid = none →
      Move md5 s .recvStep { s with
        objects := s.objects ++ [StreamObject.new sid .idle s.handled.length]
        streams := s.streams.insert sid s.objects.length
        idleState := false
        recv := .applying rest
        newStreams := s.newStreams ++ [s.objects.length] }
  | pushed {ref data rest o n pipe} : s.recv = .pushPipe ref data rest → s.objects[ref]? = some o →
      o.stream.pipe.write data = (.ok n, pipe) →
      Move md5 s .recvStep { s with
        objects := s.objects.modify ref fun o =>
          { o.modifyPipe fun _ => pipe with
            history := { o.history with pushed := o.history.pushed ++ data } }
        recv := .applying rest }
  | closeAnnounces {ref isIdle error rest} : s.recv = .closeAnnounce ref isIdle error rest →
      Move md5 s .recvStep { s with
        idleState := s.idleState || isIdle
        recv := match ref with
          | some ref => .closeMark ref error rest
          | none => .applying rest }
  | closeMarks {ref error rest o} :
      s.recv = .closeMark ref error rest → s.objects[ref]? = some o → o.stream.closed = false →
      Move md5 s .recvStep { s with
        objects := s.objects.modify ref (·.markClosed (.ofPeer error)), recv := .closeFinish ref error rest }
  | closeFinishes {ref error rest} : s.recv = .closeFinish ref error rest →
      Move md5 s .recvStep { s with
        objects := s.objects.modify ref (·.modifyPipe (·.finishStream error)), recv := .applying rest }
  | fails {error} : s.recv = .failed error →
      Move md5 s .recvStep { s with
        closed := true, ending := if s.closed then s.ending else .clear, recv := .ended }
  | terminates :
      Move md5 s .terminate { s with closed := true, ending := if s.closed then s.ending else .clear }
  | clears : s.ending = .clear →
      Move md5 s .endStep { s with
        streams := ∅, idleState := true, ending := .mark (s.streams.entries.map fun entry => entry.2) }
  | endsAll : s.ending = .mark [] → Move md5 s .endStep { s with ending := .none }
  | endSkips {ref refs o} : s.ending = .mark (ref :: refs) →
      s.objects[ref]? = some o → o.stream.closed = true → Move md5 s .endStep { s with ending := .mark refs }
  | endMarks {ref refs o} : s.ending = .mark (ref :: refs) → s.objects[ref]? = some o → o.stream.closed = false →
      Move md5 s .endStep { s with
        objects := s.objects.modify ref (·.markClosed .sessionEnd), ending := .finish ref refs }
  | endFinishes {ref refs} : s.ending = .finish ref refs →
      Move md5 s .endStep { s with
        objects := s.objects.modify ref (·.modifyPipe (·.finishStream none)), ending := .mark refs }
  | emits {next rest} (padding) : s.frameTx = ⟨next :: rest, false⟩ →
      Move md5 s (.emit padding) { s with
        frameTx := ⟨rest, false⟩
        transcript := s.transcript.apply (.write next.frame padding)
        acked := s.acked || next.ack }
  | writerFails {next rest} (padding count) : s.frameTx = ⟨next :: rest, false⟩ →
      Move md5 s (.writerFails padding count) { s with
        frameTx := ⟨[], true⟩
        transcript := { s.transcript with
          wire := s.transcript.wire ++
            ((writeConn s.transcript.writer next.frame.toBytes padding).records.flatten).take count }
        ackFailed := next.ack }

variable {md5 : Bytes → String} {s t : Session} {a : SessionAction}

theorem send_cases {frame ack result} (sent : s.send frame ack = some result) :
    (s.frameTx.isClosed = true ∧ result = none) ∨
    (s.frameTx.isClosed = false ∧ s.frameTx.queue.length < FrameTx.capacity ∧
      result = some { s with
        frameTx := ⟨s.frameTx.queue ++ [⟨frame, ack⟩], false⟩
        accepted := s.accepted ++ [frame] }) := by
  unfold Session.send FrameTx.trySend at sent
  cases gone : s.frameTx.isClosed with
  | true => simp [gone, FrameTx.send] at sent; exact .inl ⟨rfl, sent.symm⟩
  | false =>
    simp only [gone, Bool.false_or, FrameTx.send, Bool.false_eq_true, if_false] at sent
    split_ifs at sent with room
    · simp only [Option.map_some, Option.some.injEq] at sent
      exact .inr ⟨rfl, by simpa using room, sent.symm⟩
    · cases sent

theorem announce_eq (isIdle) :
    s.announce isIdle = { s with idleState := s.idleState || isIdle } := by
  cases isIdle with
  | true => simp [announce]
  | false => simp [announce]

theorem beginTerminate_eq :
    s.beginTerminate = { s with
      closed := true, ending := if s.closed then s.ending else .clear } := by
  obtain ⟨isClient, closed, rest⟩ := s
  cases closed with
  | true => rfl
  | false => rfl

theorem applyAction_move {rest action} (receiving : s.recv = .applying (action :: rest))
    (applied : s.applyAction rest action = some t) :
    Move md5 s .recvStep t := by
  cases action with
  | sendFrame frame =>
    obtain ⟨result, sent, rfl⟩ := Option.map_eq_some_iff.mp applied
    rcases send_cases sent with ⟨gone, rfl⟩ | ⟨alive, -, rfl⟩
    · exact .turns (.refused receiving (.sendFrame frame) gone)
    · have moves : Move md5 s .recvStep _ := .answers receiving (.sendFrame frame) alive
      simpa using moves
  | sendFrameSync frame =>
    obtain ⟨result, sent, rfl⟩ := Option.map_eq_some_iff.mp applied
    rcases send_cases sent with ⟨gone, rfl⟩ | ⟨alive, -, rfl⟩
    · exact .turns (.refused receiving (.sendFrameSync frame) gone)
    · have moves : Move md5 s .recvStep _ := .answers receiving (.sendFrameSync frame) alive
      simpa using moves
  | alertAndFail message =>
    obtain ⟨result, sent, rfl⟩ := Option.map_eq_some_iff.mp applied
    rcases send_cases sent with ⟨gone, rfl⟩ | ⟨alive, -, rfl⟩
    · exact .turns (.refused receiving (.alertAndFail message) gone)
    · have moves : Move md5 s .recvStep _ := .answers receiving (.alertAndFail message) alive
      simpa using moves
  | pushStreamData sid data =>
    simp only [applyAction] at applied
    split at applied
    · rename_i ref listed
      cases applied
      exact .turns (.pushes receiving listed)
    · rename_i absent
      cases applied
      exact .turns (.pushUnknown receiving absent)
  | ensureIncomingStream sid =>
    simp only [applyAction] at applied
    split_ifs at applied with zero ended
    · cases applied
      subst zero
      exact .turns (.synZero receiving)
    · cases applied
      exact .turns (.synLate receiving zero ended)
    · cases applied
      exact .turns (.synPasses receiving zero (by simpa using ended))
  | closeLocalStream sid =>
    cases applied
    exact .ends receiving (.closeLocal sid)
  | closeRemoteStream sid message =>
    cases applied
    exact .ends receiving (.closeRemote sid message)
  | releaseWriteBuffering =>
    cases applied
    exact .releases receiving

theorem recvStep_move (stepped : s.recvStep md5 = some t) : Move md5 s .recvStep t := by
  unfold recvStep at stepped
  split at stepped
  · rename_i receiving
    split_ifs at stepped with closed
    cases stepped
    exact .turns (.woken receiving closed)
  · rename_i receiving
    split at stepped
    · rename_i none
      cases stepped
      exact .turns (.drained receiving none)
    · rename_i frame rest found
      cases stepped
      unfold handleFrame
      split_ifs with alert
      · exact .alerts receiving found alert
      · exact .handles receiving found alert
  · rename_i receiving
    cases stepped
    exact .turns (.applied receiving)
  · rename_i action rest receiving
    exact applyAction_move receiving stepped
  · rename_i rest receiving
    split_ifs at stepped with acked gone
    · cases stepped
      exact .turns (.acked receiving acked)
    · cases stepped
      exact .turns (.ackLost receiving (by simpa using acked) gone)
  · rename_i message receiving
    split_ifs at stepped with done
    cases stepped
    exact .turns (.alerted receiving done)
  · rename_i sid rest receiving
    cases stepped
    unfold createIncoming
    split
    · rename_i ref listed
      exact .turns (.synKnown receiving listed)
    · rename_i absent
      exact .creates receiving absent
  · rename_i ref data rest receiving
    obtain ⟨o, stored, rfl⟩ := Option.map_eq_some_iff.mp stepped
    split_ifs with closed
    · exact .turns (.pushIgnored receiving stored closed)
    · exact .turns (.pushChecked receiving stored (by simpa using closed))
  · rename_i ref data rest receiving
    obtain ⟨o, stored, rfl⟩ := Option.map_eq_some_iff.mp stepped
    split_ifs with closed
    · exact .turns (.pushClosed receiving stored closed)
    · exact .turns (.pushOpen receiving stored (by simpa using closed))
  · rename_i ref data rest receiving
    obtain ⟨o, stored, rfl⟩ := Option.map_eq_some_iff.mp stepped
    split
    · rename_i n pipe written
      exact .pushed receiving stored written
    · rename_i error pipe refused
      exact .turns (.pushRefused receiving stored refused)
  · rename_i ref error rest receiving
    obtain ⟨o, stored, rfl⟩ := Option.map_eq_some_iff.mp stepped
    split_ifs with closed
    · exact .turns (.pushForgiven receiving stored closed)
    · exact .turns (.pushFails receiving stored (by simpa using closed))
  · rename_i ref isIdle error rest receiving
    cases stepped
    rw [announce_eq]
    exact .closeAnnounces receiving
  · rename_i ref error rest receiving
    obtain ⟨o, stored, rfl⟩ := Option.map_eq_some_iff.mp stepped
    split_ifs with closed
    · exact .turns (.markedBefore receiving stored closed)
    · exact .closeMarks receiving stored (by simpa using closed)
  · rename_i ref error rest receiving
    cases stepped
    exact .closeFinishes receiving
  · rename_i error receiving
    cases stepped
    rw [beginTerminate_eq]
    exact .fails receiving
  · cases stepped

theorem endStep_move (stepped : s.endStep = some t) : Move md5 s .endStep t := by
  unfold endStep at stepped
  split at stepped
  · cases stepped
  · rename_i ending
    cases stepped
    exact .clears ending
  · rename_i ending
    cases stepped
    exact .endsAll ending
  · rename_i ref refs ending
    obtain ⟨o, stored, rfl⟩ := Option.map_eq_some_iff.mp stepped
    split_ifs with closed
    · exact .endSkips ending stored closed
    · exact .endMarks ending stored (by simpa using closed)
  · rename_i ref refs ending
    cases stepped
    exact .endFinishes ending

theorem openStep_move {i pc next u} (placed : s.opens[i]? = some pc)
    (opened : s.openStep pc = some (u, next)) : Move md5 s (.openStep i) { u with opens := u.opens.set i next } := by
  cases pc with
  | check maxStreams =>
    simp only [openStep] at opened
    split_ifs at opened with ended
    · cases opened
      exact .waits placed (.checkFails ended)
    · cases opened
      exact .waits placed (.checkPasses (by simpa using ended))
  | insert maxStreams =>
    simp only [openStep, openInsert] at opened
    split_ifs at opened with closed full zero
    · cases opened
      exact .waits placed (.closed closed)
    · cases opened
      exact .waits placed (.full (by simpa using closed) full)
    · cases opened
      exact .exhausts placed (by simpa using closed) (Nat.lt_of_not_ge full) zero
    · cases opened
      exact .inserts placed (by simpa using closed) (Nat.lt_of_not_ge full) zero
  | syn ref =>
    obtain ⟨o, stored, sending⟩ := Option.bind_eq_some_iff.mp opened
    obtain ⟨result, sent, same⟩ := Option.map_eq_some_iff.mp sending
    rcases send_cases sent with ⟨gone, rfl⟩ | ⟨alive, -, rfl⟩
    · cases same
      exact .waits placed (.synRefused gone)
    · cases same
      exact .synSent placed stored alive
  | undoRemove ref =>
    obtain ⟨o, stored, same⟩ := Option.map_eq_some_iff.mp opened
    cases same
    exact .undoRemoves placed stored
  | undoAnnounce ref isIdle =>
    cases opened
    rw [announce_eq]
    exact .undoAnnounces placed
  | undoMark ref =>
    obtain ⟨o, stored, same⟩ := Option.map_eq_some_iff.mp opened
    split_ifs at same with closed
    · cases same
      exact .waits placed (.undoneBefore stored closed)
    · cases same
      exact .undoMarks placed stored (by simpa using closed)
  | undoFinish ref =>
    cases opened
    exact .undoFinishes placed
  | returned result => cases opened

theorem writeStep_move {ref o} (stored : s.objects[ref]? = some o) (stepped : s.writeStep ref o = some t) :
    Move md5 s (.writeStep ref) t := by
  unfold writeStep at stepped
  split at stepped
  · cases stepped
  · cases stepped
  · rename_i buf writing
    obtain ⟨result, sent, rfl⟩ := Option.map_eq_some_iff.mp stepped
    rcases send_cases sent with ⟨gone, rfl⟩ | ⟨alive, -, rfl⟩
    · exact .sendRefused stored (.inl ⟨buf, writing⟩) gone
    · exact .pshSent stored writing alive
  · rename_i removing
    cases stepped
    exact .removes stored removing
  · rename_i isIdle announcing
    cases stepped
    rw [announce_eq]
    exact .announces stored announcing
  · rename_i spawning
    cases stepped
    exact .spawns stored spawning
  · rename_i finishing
    obtain ⟨result, sent, rfl⟩ := Option.map_eq_some_iff.mp stepped
    rcases send_cases sent with ⟨gone, rfl⟩ | ⟨alive, -, rfl⟩
    · exact .sendRefused stored (.inr finishing) gone
    · exact .finSent stored finishing alive

theorem handshake_move {ref o error} (stored : s.objects[ref]? = some o)
    (acknowledges : a.Acknowledges ref error) (shaken : s.handshake o.stream.id error = some t) : Move md5 s a t := by
  unfold handshake at shaken
  split_ifs at shaken
  · obtain ⟨result, sent, rfl⟩ := Option.map_eq_some_iff.mp shaken
    rcases send_cases sent with ⟨gone, rfl⟩ | ⟨alive, -, rfl⟩
    · exact .acknowledged acknowledges stored
    · exact .acknowledges acknowledges stored alive
  · cases shaken
    exact .acknowledged acknowledges stored

theorem step_move (stepped : s.step md5 a = some t) : Move md5 s a t := by
  cases a with
  | openStream maxStreams =>
    cases stepped
    exact .asks maxStreams
  | openStep i =>
    obtain ⟨pc, placed, moved⟩ := Option.bind_eq_some_iff.mp stepped
    obtain ⟨⟨u, next⟩, opened, rfl⟩ := Option.map_eq_some_iff.mp moved
    exact openStep_move placed opened
  | write ref buf =>
    obtain ⟨o, stored, moved⟩ := Option.bind_eq_some_iff.mp stepped
    split_ifs at moved with idle
    cases moved
    exact .writes buf stored idle
  | close ref =>
    obtain ⟨o, stored, moved⟩ := Option.bind_eq_some_iff.mp stepped
    split_ifs at moved with idle
    cases moved
    exact .closes stored idle
  | writeStep ref =>
    obtain ⟨o, stored, moved⟩ := Option.bind_eq_some_iff.mp stepped
    exact writeStep_move stored moved
  | pipeClose ref =>
    obtain ⟨o, stored, moved⟩ := Option.bind_eq_some_iff.mp stepped
    split_ifs at moved with closing
    cases moved
    exact .pipeCloses stored closing
  | read ref len =>
    obtain ⟨o, stored, moved⟩ := Option.bind_eq_some_iff.mp stepped
    split_ifs at moved with idle
    cases moved
    exact .reads len stored idle
  | readStep ref =>
    obtain ⟨o, stored, moved⟩ := Option.bind_eq_some_iff.mp stepped
    split at moved
    · cases moved
    · rename_i len pc reading
      obtain ⟨⟨pipe, state⟩, read, rfl⟩ := Option.map_eq_some_iff.mp moved
      exact .readSteps stored reading read
  | readDeadline ref =>
    obtain ⟨o, stored, moved⟩ := Option.bind_eq_some_iff.mp stepped
    split at moved
    · cases moved
    · rename_i len pc reading
      obtain ⟨⟨pipe, state⟩, read, rfl⟩ := Option.map_eq_some_iff.mp moved
      exact .readExpires stored reading read
  | dropRead ref =>
    obtain ⟨o, stored, moved⟩ := Option.bind_eq_some_iff.mp stepped
    split at moved
    · cases moved
    · rename_i len pc reading
      cases moved
      exact .readDrops stored reading
  | handshakeSuccess ref =>
    obtain ⟨o, stored, shaken⟩ := Option.bind_eq_some_iff.mp stepped
    exact handshake_move stored .success shaken
  | handshakeFailure ref error =>
    obtain ⟨o, stored, shaken⟩ := Option.bind_eq_some_iff.mp stepped
    exact handshake_move stored (.failure error) shaken
  | receive chunk =>
    simp only [step] at stepped
    split_ifs at stepped with ready
    cases stepped
    exact .receives ready.1 ready.2
  | disconnect =>
    simp only [step] at stepped
    split_ifs at stepped with ready
    cases stepped
    exact .disconnects ready
  | recvStep => exact recvStep_move stepped
  | terminate =>
    cases stepped
    rw [beginTerminate_eq]
    exact .terminates
  | endStep => exact endStep_move stepped
  | emit padding =>
    simp only [step] at stepped
    split at stepped
    · rename_i next rest queued
      cases stepped
      exact .emits padding queued
    · cases stepped
  | writerFails padding count =>
    simp only [step] at stepped
    split at stepped
    · rename_i next rest queued
      cases stepped
      exact .writerFails padding count queued
    · cases stepped

end Session

end AnyTls

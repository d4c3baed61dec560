import AnyTls.Core.Engine
import AnyTls.Proxy.Stream
import AnyTls.Runtime.WriterRuns

/-! A session of `proxy/session/inner.rs` with its streams, its receive loop, its
writer task and the calls in progress on it. Every lock section, atomic access and
channel operation is one step. A stream has one task that writes to it and closes
it and one that reads from it. The history fields record what passed; no step
depends on them. -/
namespace AnyTls

abbrev StreamRef := Nat

/-- Who set the `closed` flag of a stream. -/
inductive CloseCause where
  | localClose | peerFin | synAckError | sessionEnd | openFailed
deriving DecidableEq, Repr

/-- `close_from_peer` passes an error only for a SynAck error. -/
def CloseCause.ofPeer : Option IoError → CloseCause
  | none => .peerFin
  | some _ => .synAckError

inductive ReaderPc where
  | idle
  | reading (len : Nat) (pc : ReadPc)
deriving DecidableEq, Repr

/-- The writing task of a stream: between two calls, in `write` past the check of
the closed flag, or in `close` past `mark_closed`. A stream whose `open_stream`
has not returned has no such task yet. -/
inductive WriterPc where
  | opening
  | idle
  | sending (buf : Bytes)
  | removing
  | announcing (isIdle : Bool)
  | spawning
  | finishing
deriving DecidableEq, Repr

structure StreamHistory where
  /-- the buffers passed to `write` -/
  written : Bytes
  /-- those among them whose frame the channel has accepted -/
  sent : Bytes
  /-- what `push_data` has put into the pipe -/
  pushed : Bytes
  /-- what reads have returned -/
  got : Bytes
  /-- a read with a non-empty buffer has returned `Ok(0)` -/
  eof : Bool
  /-- the first such result or error of a read -/
  firstEnd : Option (Except IoError Unit)
  cause : Option CloseCause
  /-- `written` when `close` set the flag -/
  writtenAtClose : Option Bytes
  /-- the channel has accepted the FIN of `close` -/
  finSent : Bool
  /-- how many frames had been handled when the stream was made -/
  born : Nat
deriving DecidableEq

structure StreamObject where
  stream : Stream
  reader : ReaderPc
  writer : WriterPc
  /-- the task spawned by `close_with_error` has yet to run -/
  pipeClosing : Bool
  history : StreamHistory
deriving DecidableEq

def StreamObject.new (sid : UInt32) (writer : WriterPc) (born : Nat) : StreamObject :=
  ⟨Stream.new sid, .idle, writer, false, ⟨[], [], [], [], false, none, none, none, false, born⟩⟩

/-- The receive loop: waiting for bytes, looking for a frame, applying the actions
of one, inside one of them, or past its end. -/
inductive RecvPc where
  | reading
  | decoding
  | applying (actions : List ProtocolAction)
  | awaitingAck (actions : List ProtocolAction)
  | alerting (message : String)
  | incoming (sid : UInt32) (actions : List ProtocolAction)
  | pushCheck (ref : StreamRef) (data : Bytes) (actions : List ProtocolAction)
  | pushData (ref : StreamRef) (data : Bytes) (actions : List ProtocolAction)
  | pushPipe (ref : StreamRef) (data : Bytes) (actions : List ProtocolAction)
  | pushError (ref : StreamRef) (error : IoError) (actions : List ProtocolAction)
  | closeAnnounce (ref : Option StreamRef) (isIdle : Bool) (error : Option IoError)
      (actions : List ProtocolAction)
  | closeMark (ref : StreamRef) (error : Option IoError) (actions : List ProtocolAction)
  | closeFinish (ref : StreamRef) (error : Option IoError) (actions : List ProtocolAction)
  | failed (error : IoError)
  | ended
deriving DecidableEq

inductive OpenPc where
  | check (maxStreams : Nat)
  | insert (maxStreams : Nat)
  | syn (ref : StreamRef)
  | undoRemove (ref : StreamRef)
  | undoAnnounce (ref : StreamRef) (isIdle : Bool)
  | undoMark (ref : StreamRef)
  | undoFinish (ref : StreamRef)
  | returned (result : Except IoError StreamRef)
deriving DecidableEq

/-- `terminate` past its swap of the closed flag. -/
inductive EndPc where
  | none
  | clear
  | mark (refs : List StreamRef)
  | finish (ref : StreamRef) (refs : List StreamRef)
deriving DecidableEq, Repr

structure Session where
  isClient : Bool
  closed : Bool
  /-- every stream ever made, in the order of creation -/
  objects : List StreamObject
  streams : AList fun _ : UInt32 => StreamRef
  nextStreamId : UInt32
  idleState : Bool
  protocolState : State
  frameTx : FrameTx
  /-- the writer task, with all it has written to the connection -/
  transcript : Transcript
  /-- the writer has acknowledged the frame the receive loop waits for -/
  acked : Bool
  /-- the writer has reported that the write of that frame failed -/
  ackFailed : Bool
  pending : Bytes
  recv : RecvPc
  opens : List OpenPc
  ending : EndPc
  /-- history: the bytes received, the frames taken from them, the frames the
  channel has accepted, the streams passed to `on_new_stream` -/
  received : Bytes
  handled : List Frame
  accepted : List Frame
  newStreams : List StreamRef

inductive SessionAction where
  | openStream (maxStreams : Nat)
  | openStep (call : Nat)
  | write (ref : StreamRef) (buf : Bytes)
  | close (ref : StreamRef)
  | writeStep (ref : StreamRef)
  | pipeClose (ref : StreamRef)
  | read (ref : StreamRef) (len : Nat)
  | readStep (ref : StreamRef)
  | readDeadline (ref : StreamRef)
  | dropRead (ref : StreamRef)
  | handshakeSuccess (ref : StreamRef)
  | handshakeFailure (ref : StreamRef) (error : String)
  | receive (chunk : Bytes)
  | disconnect
  | recvStep
  | terminate
  | endStep
  /-- the writer task writes the next frame -/
  | emit (padding : PaddingDraw)
  /-- a write of the writer task fails after so many bytes, and the task ends -/
  | writerFails (padding : PaddingDraw) (count : Nat)

namespace Session

def new (isClient : Bool) (padding : PaddingFactory) : Session :=
  { isClient, closed := false, objects := [], streams := ∅, nextStreamId := 0, idleState := true
    protocolState := State.new padding, frameTx := ⟨[], false⟩, transcript := Transcript.start isClient
    acked := false, ackFailed := false, pending := [], recv := .reading, opens := [], ending := .none
    received := [], handled := [], accepted := [], newStreams := [] }

def isTerminated (s : Session) : Bool := s.closed || s.frameTx.isClosed

def modifyObject (s : Session) (ref : StreamRef) (f : StreamObject → StreamObject) : Session :=
  { s with objects := s.objects.modify ref f }

/-- `frame_tx.send(..).await`: `none` while pending, then whether it was accepted. -/
def send (s : Session) (frame : Frame) (ack : Bool) : Option (Option Session) :=
  (s.frameTx.trySend ⟨frame, ack⟩).map fun sent => sent.map fun tx =>
    { s with frameTx := tx, accepted := s.accepted ++ [frame] }

/-- `ensure_started`, which applies the actions of `on_session_start` before any
other call is made. -/
def ensureStarted (iterate : StringMap.Order) (s : Session) : Session :=
  (Engine.onSessionStart iterate s.protocolState s.isClient PROGRAM_VERSION_NAME).foldl
    (fun s action => match action with
      | .sendFrame frame => ((s.send frame false).bind id).getD s
      | _ => s) s

/-- The lock section that takes a sid out of the table; whether it emptied it. -/
def removeSid (s : Session) (sid : UInt32) : Session × Bool :=
  let streams := s.streams.erase sid
  ({ s with streams := streams }, streams.keys.isEmpty)

def announce (s : Session) (isIdle : Bool) : Session :=
  if isIdle then { s with idleState := true } else s

end Session

namespace StreamObject

/-- `mark_closed` in one of the closing calls. -/
def markClosed (object : StreamObject) (cause : CloseCause) : StreamObject :=
  { object with
    stream := { object.stream with closed := true }
    history := { object.history with cause := some cause } }

def modifyPipe (object : StreamObject) (f : PipeInner → PipeInner) : StreamObject :=
  { object with stream := { object.stream with pipe := f object.stream.pipe } }

def startWrite (object : StreamObject) (buf : Bytes) : StreamObject :=
  { object with
    writer := if object.stream.closed then .idle else .sending buf
    history := { object.history with written := object.history.written ++ buf } }

def startClose (object : StreamObject) : StreamObject :=
  if object.stream.closed then object
  else
    { object.markClosed .localClose with
      writer := .removing
      history :=
        { object.history with
          cause := some .localClose
          writtenAtClose := some object.history.written } }

/-- The outcome of a step of a read. -/
def afterRead (object : StreamObject) (len : Nat) (pipe : PipeInner) (state : ReadState) : StreamObject :=
  let object := { object with stream := { object.stream with pipe := pipe } }
  match state with
  | .running pc => { object with reader := .reading len pc }
  | .returned (.ok bytes) =>
    { object with
      reader := .idle
      history :=
        { object.history with
          got := object.history.got ++ bytes
          eof := object.history.eof || (bytes.isEmpty && decide (0 < len))
          firstEnd :=
            if bytes.isEmpty && decide (0 < len) then object.history.firstEnd.or (some (.ok ()))
            else object.history.firstEnd } }
  | .returned (.error error) =>
    { object with
      reader := .idle
      history :=
        { object.history with firstEnd := object.history.firstEnd.or (some (.error error)) } }

/-- A step of a read changes the pipe, the reader and what the reads have returned. -/
theorem afterRead_eq (object : StreamObject) (len pipe) (state : ReadState) :
    ∃ reader got eof firstEnd, object.afterRead len pipe state =
      { object with
        stream := { object.stream with pipe := pipe }
        reader := reader
        history := { object.history with got := got, eof := eof, firstEnd := firstEnd } } := by
  unfold afterRead
  split
  · exact ⟨_, _, _, _, rfl⟩
  · exact ⟨_, _, _, _, rfl⟩
  · exact ⟨_, _, _, _, rfl⟩

end StreamObject

namespace Session

/-- `remove_stream` of `close_logical_stream` and `terminate_session`. -/
def beginClose (s : Session) (sid : UInt32) (error : Option IoError)
    (rest : List ProtocolAction) : Session :=
  let (removed, isIdle) := s.removeSid sid
  { removed with recv := .closeAnnounce (s.streams.lookup sid) isIdle error rest }

/-- The first step of an action in `apply_actions`. -/
def applyAction (s : Session) (rest : List ProtocolAction) : ProtocolAction → Option Session
  | .sendFrame frame => (s.send frame false).map fun
    | some sent => { sent with recv := .applying rest }
    | none => { s with recv := .failed sessionClosed }
  | .sendFrameSync frame => (s.send frame true).map fun
    | some sent => { sent with recv := .awaitingAck rest, acked := false }
    | none => { s with recv := .failed sessionClosed }
  | .pushStreamData sid data =>
    match s.streams.lookup sid with
    | some ref => some { s with recv := .pushCheck ref data rest }
    | none => some { s with recv := .applying rest }
  | .ensureIncomingStream sid =>
    if sid = 0 then some { s with recv := .failed ⟨.invalidData, "SYN cannot use control sid 0"⟩ }
    else if s.isTerminated then some { s with recv := .applying rest }
    else some { s with recv := .incoming sid rest }
  | .closeLocalStream sid => some (s.beginClose sid none rest)
  | .closeRemoteStream sid message =>
    some (s.beginClose sid (some (IoError.otherError ("remote: " ++ message))) rest)
  | .releaseWriteBuffering =>
    some { s with transcript := s.transcript.apply (.setBuffering false), recv := .applying rest }
  | .alertAndFail message => (s.send (Frame.withData .alert 0 (asBytes message)) true).map fun
    | some sent => { sent with recv := .alerting message, acked := false }
    | none => { s with recv := .failed (IoError.otherError message) }

/-- The lock section of `create_incoming_stream`, and the spawn of `on_new_stream` that
follows it without suspension. -/
def createIncoming (s : Session) (sid : UInt32) (rest : List ProtocolAction) : Session :=
  match s.streams.lookup sid with
  | some _ => { s with recv := .applying rest }
  | none =>
    { s with
      objects := s.objects ++ [StreamObject.new sid .idle s.handled.length]
      streams := s.streams.insert sid s.objects.length
      idleState := false
      recv := .applying rest
      newStreams := s.newStreams ++ [s.objects.length] }

/-- `handle_frame` up to its first action. -/
def handleFrame (md5 : Bytes → String) (s : Session) (frame : Frame) : Session :=
  if frame.cmd = .alert then { s with recv := .failed (IoError.otherError "Alert received") }
  else
    let (state, actions) := Engine.onFrame md5 s.protocolState s.isClient frame
    { s with protocolState := state, recv := .applying actions }

/-- `terminate` up to its swap of the closed flag. -/
def beginTerminate (s : Session) : Session :=
  if s.closed then s else { s with closed := true, ending := .clear }

/-- What `send_frame_sync` returns when the writer task ends before it has written the frame. -/
def ackError (s : Session) : IoError := ⟨.brokenPipe, if s.ackFailed then "Write failed" else "Writer dropped"⟩

/-- The next step of the receive loop, and of `run` once the loop has failed. -/
def recvStep (md5 : Bytes → String) (s : Session) : Option Session :=
  match s.recv with
  | .reading => if s.closed then some { s with recv := .failed sessionClosed } else none
  | .decoding =>
    match Frame.next s.pending with
    | none => some { s with recv := .reading }
    | some (frame, rest) =>
      some (handleFrame md5 { s with pending := rest, handled := s.handled ++ [frame] } frame)
  | .applying [] => some { s with recv := .decoding }
  | .applying (action :: rest) => s.applyAction rest action
  | .awaitingAck rest =>
    if s.acked then some { s with recv := .applying rest }
    else if s.frameTx.isClosed then some { s with recv := .failed s.ackError }
    else none
  | .alerting message =>
    if s.acked || s.frameTx.isClosed then some { s with recv := .failed (IoError.otherError message) }
    else none
  | .incoming sid rest => some (s.createIncoming sid rest)
  | .pushCheck ref data rest => (s.objects[ref]?).map fun object =>
    if object.stream.closed then { s with recv := .applying rest }
    else { s with recv := .pushData ref data rest }
  | .pushData ref data rest => (s.objects[ref]?).map fun object =>
    if object.stream.closed then { s with recv := .pushError ref streamClosed rest }
    else { s with recv := .pushPipe ref data rest }
  | .pushPipe ref data rest => (s.objects[ref]?).map fun object =>
    match object.stream.pipe.write data with
    | (.ok _, pipe) =>
      { s.modifyObject ref fun object =>
          { object.modifyPipe fun _ => pipe with
            history := { object.history with pushed := object.history.pushed ++ data } }
        with recv := .applying rest }
    | (.error error, _) => { s with recv := .pushError ref error rest }
  | .pushError ref error rest => (s.objects[ref]?).map fun object =>
    if object.stream.closed then { s with recv := .applying rest }
    else { s with recv := .failed error }
  | .closeAnnounce ref isIdle error rest =>
    some { s.announce isIdle with
      recv := match ref with
        | some ref => .closeMark ref error rest
        | none => .applying rest }
  | .closeMark ref error rest => (s.objects[ref]?).map fun object =>
    if object.stream.closed then { s with recv := .applying rest }
    else { s.modifyObject ref (·.markClosed (.ofPeer error)) with recv := .closeFinish ref error rest }
  | .closeFinish ref error rest =>
    some { s.modifyObject ref (·.modifyPipe (·.finishStream error)) with recv := .applying rest }
  | .failed _ => some { s.beginTerminate with recv := .ended }
  | .ended => none

/-- The next step of `terminate`. -/
def endStep (s : Session) : Option Session :=
  match s.ending with
  | .none => none
  | .clear =>
    some { s with
      streams := ∅
      idleState := true
      ending := .mark (s.streams.entries.map fun entry => entry.2) }
  | .mark [] => some { s with ending := .none }
  | .mark (ref :: refs) => (s.objects[ref]?).map fun object =>
    if object.stream.closed then { s with ending := .mark refs }
    else { s.modifyObject ref (·.markClosed .sessionEnd) with ending := .finish ref refs }
  | .finish ref refs =>
    some { s.modifyObject ref (·.modifyPipe (·.finishStream none)) with ending := .mark refs }

/-- The lock section of `open_stream`. -/
def openInsert (s : Session) (maxStreams : Nat) : Session × OpenPc :=
  if s.closed then (s, .returned (.error sessionClosed))
  else if s.streams.keys.length ≥ maxStreams then
    (s, .returned (.error ⟨.wouldBlock, "Session stream limit reached"⟩))
  else
    let sid := s.nextStreamId + 1
    let s := { s with nextStreamId := s.nextStreamId + 1 }
    if sid = 0 then (s, .returned (.error (IoError.otherError "Stream identifier exhausted")))
    else
      ({ s with
          objects := s.objects ++ [StreamObject.new sid .opening s.handled.length]
          streams := s.streams.insert sid s.objects.length
          idleState := false },
        .syn s.objects.length)

/-- The next step of an `open_stream` call. -/
def openStep (s : Session) : OpenPc → Option (Session × OpenPc)
  | .check maxStreams =>
    if s.isTerminated then some (s, .returned (.error sessionClosed)) else some (s, .insert maxStreams)
  | .insert maxStreams => some (s.openInsert maxStreams)
  | .syn ref => (s.objects[ref]?).bind fun object =>
    (s.send (Frame.new .syn object.stream.id) false).map fun
      | some sent =>
        (sent.modifyObject ref fun object => { object with writer := .idle }, .returned (.ok ref))
      | none => (s, .undoRemove ref)
  | .undoRemove ref => (s.objects[ref]?).map fun object =>
    ((s.removeSid object.stream.id).1, .undoAnnounce ref (s.removeSid object.stream.id).2)
  | .undoAnnounce ref isIdle => some (s.announce isIdle, .undoMark ref)
  | .undoMark ref => (s.objects[ref]?).map fun object =>
    if object.stream.closed then (s, .returned (.error sessionClosed))
    else (s.modifyObject ref (·.markClosed .openFailed), .undoFinish ref)
  | .undoFinish ref =>
    some (s.modifyObject ref (·.modifyPipe (·.finishStream (some (IoError.otherError "Session closed")))),
      .returned (.error sessionClosed))
  | .returned _ => none

/-- The next step of `write` or `close`. -/
def writeStep (s : Session) (ref : StreamRef) (object : StreamObject) : Option Session :=
  match object.writer with
  | .opening | .idle => none
  | .sending buf => (s.send (Frame.withData .psh object.stream.id buf) false).map fun
    | some sent => sent.modifyObject ref fun object =>
      { object with
        writer := .idle
        history := { object.history with sent := object.history.sent ++ buf } }
    | none => s.modifyObject ref fun object => { object with writer := .idle }
  | .removing =>
    some ((s.removeSid object.stream.id).1.modifyObject ref fun object =>
      { object with writer := .announcing (s.removeSid object.stream.id).2 })
  | .announcing isIdle =>
    some ((s.announce isIdle).modifyObject ref fun object => { object with writer := .spawning })
  | .spawning =>
    some (s.modifyObject ref fun object => { object with writer := .finishing, pipeClosing := true })
  | .finishing => (s.send (Frame.new .fin object.stream.id) false).map fun
    | some sent => sent.modifyObject ref fun object =>
      { object with writer := .idle, history := { object.history with finSent := true } }
    | none => s.modifyObject ref fun object => { object with writer := .idle }

/-- `handshake_success` and `handshake_failure`. -/
def handshake (s : Session) (sid : UInt32) (error : Bytes) : Option Session :=
  if s.protocolState.peerVersion ≥ MIN_PROTOCOL_VERSION then
    (s.send (Frame.withData .synAck sid error) false).map fun sent => sent.getD s
  else some s

/-- A running read goes on. -/
def advanceRead (s : Session) (ref : StreamRef)
    (next : PipeInner → Nat → ReadPc → Option (PipeInner × ReadState)) : Option Session :=
  (s.objects[ref]?).bind fun object =>
    match object.reader with
    | .idle => none
    | .reading len pc => (next object.stream.pipe len pc).map fun (pipe, state) =>
      s.modifyObject ref fun object => object.afterRead len pipe state

def step (md5 : Bytes → String) (s : Session) : SessionAction → Option Session
  | .openStream maxStreams => some { s with opens := s.opens ++ [.check maxStreams] }
  | .openStep i => (s.opens[i]?).bind fun pc => (s.openStep pc).map fun (t, pc) =>
    { t with opens := t.opens.set i pc }
  | .write ref buf => (s.objects[ref]?).bind fun object =>
    if object.writer = .idle then some (s.modifyObject ref (·.startWrite buf)) else none
  | .close ref => (s.objects[ref]?).bind fun object =>
    if object.writer = .idle then some (s.modifyObject ref StreamObject.startClose) else none
  | .writeStep ref => (s.objects[ref]?).bind fun object => s.writeStep ref object
  | .pipeClose ref => (s.objects[ref]?).bind fun object =>
    if object.pipeClosing then
      some (s.modifyObject ref fun object =>
        { object.modifyPipe (·.closeWithError none) with pipeClosing := false })
    else none
  | .read ref len => (s.objects[ref]?).bind fun object =>
    if object.reader = .idle then
      some (s.modifyObject ref fun object => { object with reader := .reading len .start })
    else none
  | .readStep ref => s.advanceRead ref PipeInner.readStep
  | .readDeadline ref => s.advanceRead ref fun pipe _ pc => pipe.readDeadline pc
  | .dropRead ref => (s.objects[ref]?).bind fun object =>
    match object.reader with
    | .idle => none
    | .reading _ pc => some (s.modifyObject ref fun object =>
        { object.modifyPipe (·.dropRead pc) with reader := .idle })
  | .handshakeSuccess ref => (s.objects[ref]?).bind fun object => s.handshake object.stream.id []
  | .handshakeFailure ref error => (s.objects[ref]?).bind fun object =>
    s.handshake object.stream.id (asBytes error)
  | .receive chunk =>
    if s.recv = .reading ∧ chunk ≠ [] then
      some { s with pending := s.pending ++ chunk, received := s.received ++ chunk, recv := .decoding }
    else none
  | .disconnect =>
    if s.recv = .reading then some { s with recv := .failed ⟨.unexpectedEof, "Connection closed"⟩ }
    else none
  | .recvStep => s.recvStep md5
  | .terminate => some s.beginTerminate
  | .endStep => s.endStep
  | .emit padding =>
    match s.frameTx with
    | ⟨next :: rest, false⟩ =>
      some { s with
        frameTx := ⟨rest, false⟩
        transcript := s.transcript.apply (.write next.frame padding)
        acked := s.acked || next.ack }
    | _ => none
  | .writerFails padding count =>
    match s.frameTx with
    | ⟨next :: _, false⟩ =>
      let written := (writeConn s.transcript.writer next.frame.toBytes padding).records.flatten
      some { s with
        frameTx := ⟨[], true⟩
        transcript := { s.transcript with wire := s.transcript.wire ++ written.take count }
        ackFailed := next.ack }
    | _ => none

end Session

end AnyTls

import AnyTls.Proxy.Session
import AnyTls.Uot.Relay

/-! `handle_session` of `bin/server.rs` on one stream, with `handle_uot_stream`, its
two relay loops and `handle_tcp_stream`. What the outbound side and the approval
check answer are arguments of the steps; the session acts on the stream between
any two steps of the handler. -/
namespace AnyTls

/-- What the handler shares with the session. -/
structure ServerStream where
  closed : Bool
  /-- the session's table maps the sid to this stream -/
  inMap : Bool
  pipe : PipeInner
  /-- the task spawned by `close_with_error` has yet to run -/
  pipeClosing : Bool
  /-- a closing by the session that has taken the stream out of the table: its
  cause, the error it passes on, and whether it has set the flag -/
  closer : Option (CloseCause × Option IoError × Bool)
  /-- the writer task is gone -/
  txClosed : Bool
  peerVersion : UInt8
  /-- history: who set the flag, and how many FIN frames the channel has accepted -/
  cause : Option CloseCause
  fins : Nat

/-- The steps of the session on the stream. -/
inductive StreamEvent where
  | push (data : Bytes)
  | remove (cause : CloseCause) (error : Option IoError)
  | mark
  | finish
  | pipeClose
  | writerDies

/-- The steps of `Stream::close`. -/
inductive ClosePc where
  | mark | remove | spawn | fin
deriving DecidableEq, Repr

namespace ServerStream

/-- A stream the session has just made and handed to the handler. -/
def new (peerVersion : UInt8) : ServerStream :=
  ⟨false, true, PipeInner.new, false, none, false, peerVersion, none, 0⟩

def isTerminated (stream : ServerStream) : Bool := stream.closed || stream.txClosed

def event (stream : ServerStream) : StreamEvent → Option ServerStream
  | .push data =>
    if data.isEmpty then none
    else match stream.pipe.write data with
      | (.ok _, pipe) => some { stream with pipe }
      | (.error _, _) => some stream
  | .remove cause error =>
    if stream.inMap ∧ stream.closer = none ∧ cause ≠ .localClose then
      some { stream with inMap := false, closer := some (cause, error, false) }
    else none
  | .mark =>
    match stream.closer with
    | some (cause, error, false) =>
      if stream.closed then some { stream with closer := none }
      else some { stream with closed := true, cause := some cause, closer := some (cause, error, true) }
    | _ => none
  | .finish =>
    match stream.closer with
    | some (_, error, true) => some { stream with pipe := stream.pipe.finishStream error, closer := none }
    | _ => none
  | .pipeClose =>
    if stream.pipeClosing then
      some { stream with pipe := stream.pipe.closeWithError none, pipeClosing := false }
    else none
  | .writerDies => some { stream with txClosed := true }

/-- A step of `Stream::close` or `Stream::terminate`: the next one, or the result. -/
def closeStep (stream : ServerStream) : ClosePc → ServerStream × (ClosePc ⊕ Except IoError Unit)
  | .mark =>
    if stream.closed then (stream, .inr (.ok ()))
    else ({ stream with closed := true, cause := some .localClose }, .inl .remove)
  | .remove => ({ stream with inMap := false }, .inl .spawn)
  | .spawn => ({ stream with pipeClosing := true }, .inl .fin)
  | .fin =>
    if stream.txClosed then (stream, .inr (.error sessionClosed))
    else ({ stream with fins := stream.fins + 1 }, .inr (.ok ()))

/-- `handshake_success` and `handshake_failure`. -/
def handshake (stream : ServerStream) : Except IoError Unit :=
  if stream.peerVersion ≥ MIN_PROTOCOL_VERSION ∧ stream.txClosed then .error sessionClosed else .ok ()

def write (stream : ServerStream) : Except IoError Unit :=
  if stream.closed then .error streamClosed
  else if stream.txClosed then .error sessionClosed
  else .ok ()

end ServerStream

/-- The relay half from the stream to the outbound. -/
inductive S2oPc where
  | select
  | writing (bytes : Bytes)
  | closing (pc : ClosePc)
  | shutdown (failed : Bool)
  | done

/-- The relay half from the outbound to the stream. -/
inductive O2sPc where
  | select
  | closing (pc : ClosePc)
  | done

/-- What follows a `close` that the handler waits for. -/
inductive AfterClose where
  | returnOk
  | returnError (error : IoError)
  | again

variable {Address : Type}

inductive Phase (Address : Type) where
  | check
  | approve
  | retrieve (program : ReadProgram IoError Address) (held : Bytes)
  | retrieveFailed (error : IoError)
  | uotRequest (program : ReadProgram IoError (UotRequest Address)) (held : Bytes)
  | uotCreate (request : UotRequest Address)
  | uotReady (request : UotRequest Address)
  | uotHandshake (request : UotRequest Address)
  | uotRelay (relay : Relay Address)
  | connect (destination : Address)
  | tcpHandshake (destination : Address)
  | tcpRelay (s2o : S2oPc) (o2s : O2sPc) (cancel : Bool)
  /-- `handshake_failure`, then `terminate`, then the error -/
  | refuse (error : IoError)
  | closing (pc : ClosePc) (after : AfterClose)
  | returned (result : Except IoError Unit)
  | panicked

structure Handler (Address : Type) where
  stream : ServerStream
  readFut : ReadFut
  phase : Phase Address
  /-- history: the destinations retrieved -/
  destinations : List Address

inductive S2oAction where
  | cancelled
  | tick (approved : Bool)
  | poll
  | wrote (result : Except IoError Unit)
  | close
  | shutdown (result : Except IoError Unit)

inductive O2sAction where
  | cancelled
  | tick (approved : Bool)
  | read (result : Except IoError Bytes)
  | close

inductive HandlerAction where
  | session (event : StreamEvent)
  /-- a step with no answer from outside -/
  | advance
  | approved (result : Bool)
  | poll
  | createOutbound (result : Except IoError Unit)
  | outboundReady (result : Except IoError Unit)
  | connected (result : Except IoError Unit)
  | relay (action : RelayAction)
  | s2o (action : S2oAction)
  | o2s (action : O2sAction)

namespace Handler

def start (peerVersion : UInt8) : Handler Address := ⟨.new peerVersion, none, .check, []⟩

def RELAY_BUFFER : Nat := 4096

def afterClose : AfterClose → Except IoError Unit → Phase Address
  | .returnOk, _ => .returned (.ok ())
  | .returnError _, .error error => .returned (.error error)
  | .returnError error, .ok () => .returned (.error error)
  | .again, _ => .check

def relayKind (request : UotRequest Address) : RelayKind Address :=
  match request.mode with
  | .datagram => .datagramStream
  | .connected => .connectedStream request.destination

/-- The steps whose outcome the handler's own state decides. -/
def advance (codec : AddressCodec Address) (s : Handler Address) : Option (Handler Address) :=
  match s.phase with
  | .check =>
    if s.stream.isTerminated then some { s with phase := .returned (.ok ()) }
    else some { s with phase := .approve }
  | .retrieveFailed error =>
    if s.stream.isTerminated || isErrorOfSessionBroken error then
      some { s with phase := .returned (.ok ()) }
    else some { s with phase := .returned (.error error) }
  | .uotHandshake request =>
    match s.stream.handshake with
    | .error error => some { s with phase := .returned (.error error) }
    | .ok () => some { s with phase := .uotRelay (Relay.start codec (relayKind request) s.stream.pipe) }
  | .uotRelay relay =>
    match relay.status with
    | .ended (.ok ()) => some { s with phase := .check }
    | .ended (.error error) => some { s with phase := .returned (.error error) }
    | .panicked => some { s with phase := .panicked }
    | _ => none
  | .tcpHandshake _ =>
    match s.stream.handshake with
    | .error error => some { s with phase := .returned (.error error) }
    | .ok () => some { s with phase := .tcpRelay .select .select false }
  | .tcpRelay .done .done _ => some { s with phase := .check }
  | .refuse error =>
    match s.stream.handshake with
    | .error error => some { s with phase := .returned (.error error) }
    | .ok () => some { s with phase := .closing .mark (.returnError error) }
  | .closing pc after =>
    match s.stream.closeStep pc with
    | (stream, .inl next) => some { s with stream, phase := .closing next after }
    | (stream, .inr result) => some { s with stream, phase := afterClose after result }
  | _ => none

/-- The handler after a poll of the future that reads the destination. -/
def retrieved (codec : AddressCodec Address) (s : Handler Address) (pipe : PipeInner) (readFut : ReadFut) :
    Polled Address → Handler Address
  | .pending program held =>
    { s with stream := { s.stream with pipe }, readFut, phase := .retrieve program held }
  | .done destination =>
    { s with
      stream := { s.stream with pipe }, readFut
      destinations := s.destinations ++ [destination]
      phase := if uotIsSentinelDestination codec destination then
          .uotRequest ((uotGetRequestFromStream codec).feed []).1 []
        else .connect destination }
  | .failed error =>
    { s with stream := { s.stream with pipe }, readFut, phase := .retrieveFailed error }
  | .panicked => { s with stream := { s.stream with pipe }, readFut, phase := .panicked }

/-- The phase after a poll of the future that reads the UOT request. -/
def requested : Polled (UotRequest Address) → Phase Address
  | .pending program held => .uotRequest program held
  | .done request => .uotCreate request
  | .failed error => .returned (.error error)
  | .panicked => .panicked

/-- The phase after a poll of the stream by the relay half. -/
def relayRead (o2s : O2sPc) (cancel : Bool) : PollRead → Phase Address
  | .pending => .tcpRelay .select o2s cancel
  | .ready [] => .tcpRelay (.shutdown false) o2s cancel
  | .ready bytes => .tcpRelay (.writing bytes) o2s cancel
  | .failed _ => .tcpRelay (.shutdown true) o2s cancel
  | .panicked => .panicked

/-- A poll of the future that reads the destination or the UOT request. -/
def poll (codec : AddressCodec Address) (s : Handler Address) : Option (Handler Address) :=
  match s.phase with
  | .retrieve program held =>
    (pollProgram s.stream.pipe s.readFut program held).map fun (pipe, readFut, _, polled) =>
      s.retrieved codec pipe readFut polled
  | .uotRequest program held =>
    (pollProgram s.stream.pipe s.readFut program held).map fun (pipe, readFut, _, polled) =>
      { s with stream := { s.stream with pipe }, readFut, phase := requested polled }
  | _ => none

/-- A step of the UOT relay loop, over the handler's reader. -/
def relayStep (codec : AddressCodec Address) (s : Handler Address) (relay : Relay Address)
    (action : RelayAction) : Option (Handler Address) :=
  (Relay.step codec { relay with pipe := s.stream.pipe, readFut := s.readFut } action).map fun next =>
    { s with
      stream := { s.stream with pipe := next.pipe }, readFut := next.readFut, phase := .uotRelay next }

def relay (codec : AddressCodec Address) (s : Handler Address) (relay : Relay Address) :
    RelayAction → Option (Handler Address)
  | .poll => s.relayStep codec relay .poll
  | .handle => s.relayStep codec relay .handle
  | .sent result => s.relayStep codec relay (.sent result)
  | .tick true => s.relayStep codec relay (.tick true)
  | .tick false =>
    match relay.status with
    | .selecting => some { s with phase := .closing .mark .again }
    | _ => none
  | .inbound result => s.relayStep codec relay (.inbound (result.bind fun _ => s.stream.write))
  | _ => none

def s2o (s : Handler Address) (pc : S2oPc) (o2s : O2sPc) (cancel : Bool) :
    S2oAction → Option (Handler Address)
  | .cancelled =>
    match pc with
    | .select => if cancel then some { s with phase := .tcpRelay .done o2s cancel } else none
    | _ => none
  | .tick approved =>
    match pc with
    | .select => some { s with
        phase := .tcpRelay (if approved then .select else .closing .mark) o2s cancel }
    | _ => none
  | .poll =>
    match pc with
    | .select => (pollRead s.stream.pipe s.readFut RELAY_BUFFER).map fun (pipe, readFut, result) =>
      { s with stream := { s.stream with pipe }, readFut, phase := relayRead o2s cancel result }
    | _ => none
  | .wrote result =>
    match pc, result with
    | .writing _, .ok () => some { s with phase := .tcpRelay .select o2s cancel }
    | .writing _, .error _ => some { s with phase := .tcpRelay (.shutdown true) o2s cancel }
    | _, _ => none
  | .close =>
    match pc with
    | .closing pc =>
      match s.stream.closeStep pc with
      | (stream, .inl next) => some { s with stream, phase := .tcpRelay (.closing next) o2s cancel }
      | (stream, .inr _) => some { s with stream, phase := .tcpRelay (.shutdown false) o2s cancel }
    | _ => none
  | .shutdown result =>
    match pc, result with
    | .shutdown failed, .ok () => some { s with phase := .tcpRelay .done o2s (cancel || failed) }
    | .shutdown _, .error _ => some { s with phase := .tcpRelay .done o2s cancel }
    | _, _ => none

def o2s (s : Handler Address) (s2o : S2oPc) (pc : O2sPc) (cancel : Bool) :
    O2sAction → Option (Handler Address)
  | .cancelled =>
    match pc with
    | .select => if cancel then some { s with phase := .tcpRelay s2o .done cancel } else none
    | _ => none
  | .tick approved =>
    match pc with
    | .select => some { s with
        phase := .tcpRelay s2o (if approved then .select else .closing .mark) cancel }
    | _ => none
  | .read result =>
    match pc, result with
    | .select, .ok [] => some { s with phase := .tcpRelay s2o (.closing .mark) cancel }
    | .select, .ok _ =>
      match s.stream.write with
      | .ok () => some { s with phase := .tcpRelay s2o .select cancel }
      | .error _ => some { s with phase := .tcpRelay s2o .done true }
    | .select, .error _ => some { s with phase := .tcpRelay s2o .done true }
    | _, _ => none
  | .close =>
    match pc with
    | .closing pc =>
      match s.stream.closeStep pc with
      | (stream, .inl next) => some { s with stream, phase := .tcpRelay s2o (.closing next) cancel }
      | (stream, .inr _) => some { s with stream, phase := .tcpRelay s2o .done cancel }
    | _ => none

def step (codec : AddressCodec Address) (s : Handler Address) : HandlerAction → Option (Handler Address)
  | .session event => (s.stream.event event).map fun stream => { s with stream }
  | .advance => s.advance codec
  | .approved result =>
    match s.phase with
    | .approve =>
      some { s with
        phase := if result then .retrieve (codec.retrieve.feed []).1 [] else .closing .mark .returnOk }
    | _ => none
  | .poll => s.poll codec
  | .createOutbound result =>
    match s.phase, result with
    | .uotCreate _, .error error => some { s with phase := .returned (.error error) }
    | .uotCreate request, .ok () =>
      some { s with
        phase := match request.mode with
          | .datagram => .uotHandshake request
          | .connected => .uotReady request }
    | _, _ => none
  | .outboundReady result =>
    match s.phase, result with
    | .uotReady _, .error error => some { s with phase := .refuse error }
    | .uotReady request, .ok () => some { s with phase := .uotHandshake request }
    | _, _ => none
  | .connected result =>
    match s.phase, result with
    | .connect _, .error error => some { s with phase := .refuse error }
    | .connect destination, .ok () => some { s with phase := .tcpHandshake destination }
    | _, _ => none
  | .relay action =>
    match s.phase with
    | .uotRelay relay => s.relay codec relay action
    | _ => none
  | .s2o action =>
    match s.phase with
    | .tcpRelay pc o2s cancel => s.s2o pc o2s cancel action
    | _ => none
  | .o2s action =>
    match s.phase with
    | .tcpRelay s2o pc cancel => s.o2s s2o pc cancel action
    | _ => none

end Handler

end AnyTls

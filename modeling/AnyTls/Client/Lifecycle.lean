import AnyTls.Core.Handshake
import AnyTls.Proxy.Client
import AnyTls.Proxy.SessionSteps

/-! The client of `proxy/session/client.rs` over whole sessions, from the dial of a connection
to `close`. The steps of `create_session` and of `close` are separate, so that any number of
calls, the tasks of their sessions and `close` interleave in every way. The dial is that of
`client_runner.rs`: it reads the padding cell of the client for the authentication preamble,
and `new_client_session` reads it again for the state of the session. -/
namespace AnyTls

/-! ### The preamble -/

/-- `padding_sizes[0] as u16`, raised to the length of the client id. -/
def preamblePadding (random : Nat → Int → Int → Int) (padding : PaddingFactory) (clientId : Bytes) : Nat :=
  let paddingLen :=
    match padding.generateRecordPayloadSizes random 0 with
    | [] => 0
    | size :: _ => (size % 2 ^ 16).toNat
  if clientId.isEmpty then paddingLen else max paddingLen (clientId.length % 2 ^ 16)

/-- What `dail_out_callback` sends on a new connection. -/
def authPreamble (random : Nat → Int → Int → Int) (padding : PaddingFactory) (passwordSha256 clientId : Bytes) :
    Bytes :=
  let paddingLen := preamblePadding random padding clientId
  passwordSha256 ++ BigEndian.bytes 2 paddingLen ++
    (clientId ++ List.replicate (paddingLen - clientId.length) 0)

/-! ### The state -/

/-- The task spawned for a session: `run`, then the removal from the active sessions. -/
inductive RunPc where
  | unspawned
  | starting (seq : UInt64)
  | receiving (seq : UInt64)
  | gone
deriving DecidableEq, Repr

/-- A session the client has made. `preamble` and `issued` are history: what the dial sent, and
the scheme last issued to the client when it dialed. -/
structure Connection where
  session : Session
  started : Bool
  task : RunPc
  preamble : Bytes
  issued : Option PaddingFactory

/-- The steps of `take_reusable` and of the scan of the active sessions, but for the end of a
stale session. -/
def CreatePc.searches : CreatePc → Bool
  | .take _ | .popped .. | .aged .. | .snapshot _ | .scan .. | .capacity .. => true
  | _ => false

/-- A `create_stream` call; `attempt` counts the rounds of its retry loop. -/
inductive CallPc where
  | begin
  | round (attempt : Nat)
  | find (attempt : Nat)
  | search (pc : CreatePc)
  | dropStale (attempt : Nat) (entry : IdleEntry) (pc : TerminatePc)
  | recheck (attempt : Nat)
  | dial (attempt : Nat)
  | make (attempt : Nat) (preamble : Bytes) (issued : Option PaddingFactory)
  | start (attempt : Nat) (id : SessionId)
  | check (attempt : Nat) (id : SessionId)
  | abandon (id : SessionId) (pc : TerminatePc)
  | number (attempt : Nat) (id : SessionId)
  | register (attempt : Nat) (seq : UInt64) (id : SessionId)
  | openStream (attempt : Nat) (seq : UInt64) (id : SessionId)
  | opening (attempt : Nat) (seq : UInt64) (id : SessionId) (call : Nat)
  | giveUp (attempt : Nat) (id : SessionId) (pc : TerminatePc) (error : IoError)
  | returned (result : Except IoError (SessionId × StreamRef))

/-- Where a search has led: to a session, to one that is stale, to none, or to its next step. -/
def CallPc.found : CreatePc → CallPc
  | .openCheck attempt seq id => .openStream attempt seq id
  | .dropStale attempt entry pc => .dropStale attempt entry pc
  | .dial attempt => .recheck attempt
  | pc => .search pc

/-- The call of `close` that found the flag unset. -/
inductive ClientClosePc where
  | uncalled
  | cancelled
  | drainActive
  | drainPool (sessions : List SessionId)
  | terminating (sessions : List SessionId) (pc : TerminatePc)
  | returned
deriving DecidableEq, Repr

structure ClientSetup extends ClientConfig where
  passwordSha256 : Bytes
  clientId : Bytes

/-- `issued` is history: the scheme of the last `UpdatePaddingScheme` frame that a session accepted. -/
structure Client where
  padding : PaddingFactory
  closedFlag : Bool
  sessions : List Connection
  active : List (UInt64 × SessionId)
  pool : IdleSessionPool
  seqNumber : UInt64
  calls : List CallPc
  idleTasks : List IdleTask
  cleanup : List (SessionId × TerminatePc)
  closing : ClientClosePc
  now : Nat
  issued : Option PaddingFactory

inductive Dialed where
  | connected (random : Nat → Int → Int → Int)
  | failed (error : IoError)

inductive LifecycleAction where
  | createStream
  | advance (call : Nat) (dialed : Dialed)
  | runStart (id : SessionId)
  | runEnd (id : SessionId)
  /-- a step of the streams, the writer task or the receive loop of a session -/
  | session (id : SessionId) (action : SessionAction)
  | idle (task : Nat)
  | cleanupTick
  | cleanupStep
  | elapse (duration : Nat)
  | close
  | closeStep

def clientClosed : IoError := ⟨.brokenPipe, "Client closed"⟩

/-- The frames and calls of the receive loop, which runs only in the task of the session. -/
def SessionAction.receives : SessionAction → Bool
  | .receive _ | .disconnect | .recvStep => true
  | _ => false

/-- Calls that only `create_stream`, `close` and the cleanup make. -/
def SessionAction.managed : SessionAction → Bool
  | .openStream _ | .openStep _ | .terminate => true
  | _ => false

/-- The scheme of a frame that makes `on_frame` replace the scheme of a client's state. -/
def acceptedScheme (md5 : Bytes → String) (frame : Frame) : Option PaddingFactory :=
  if frame.cmd = .updatePaddingScheme then PaddingFactory.new md5 frame.data else none

namespace Session

/-- The actions of `on_session_start`, which only sends frames. -/
def startWith (s : Session) : List ProtocolAction → Option (Except IoError Unit × Session)
  | [] => some (.ok (), s)
  | .sendFrame frame :: rest => (s.send frame false).bind fun
    | some sent => sent.startWith rest
    | none => some (.error sessionClosed, s)
  | _ :: rest => s.startWith rest

/-- What the calls and tasks of a client see of a session. -/
def view (s : Session) : ClientSession :=
  ⟨s.closed, s.frameTx.isClosed, s.streams.keys, s.nextStreamId, s.idleState, 0⟩

/-- The schemes that the frames handled between two states have issued, last first. -/
def issuedSince (md5 : Bytes → String) (before after : Session) : List PaddingFactory :=
  ((after.handled.drop before.handled.length).filterMap (acceptedScheme md5)).reverse

end Session

namespace Connection

def new (padding : PaddingFactory) (preamble : Bytes) (issued : Option PaddingFactory) : Connection :=
  ⟨Session.new true padding, false, .unspawned, preamble, issued⟩

/-- `Session::ensure_started`. -/
def ensureStarted (iterate : StringMap.Order) (conn : Connection) :
    Option (Except IoError Unit × Connection) :=
  if conn.started then some (.ok (), conn)
  else
    (conn.session.startWith (Engine.onSessionStart iterate conn.session.protocolState
      conn.session.isClient PROGRAM_VERSION_NAME)).map fun
      | (.ok (), session) => (.ok (), { conn with session := session, started := true })
      | (.error error, session) => (.error error, { conn with session := session })

end Connection

namespace Client
variable (md5 : Bytes → String) (iterate : StringMap.Order)

def new (padding : PaddingFactory) : Client :=
  ⟨padding, false, [], [], [], 0, [], [], [], .uncalled, 0, none⟩

/-- What the calls and tasks see of the client, which is what they search and look at. -/
def view (c : Client) : ClientState :=
  ⟨c.sessions.map (·.session.view), c.active, c.pool, c.seqNumber, [], c.idleTasks, c.cleanup, c.now⟩

def setConnection (c : Client) (id : SessionId) (conn : Connection) : Client :=
  { c with sessions := c.sessions.set id conn }

/-- A step of one session. -/
def onSession (c : Client) (id : SessionId) (action : SessionAction) : Option Client :=
  (c.sessions[id]?).bind fun conn => (conn.session.step md5 action).map fun session =>
    c.setConnection id { conn with session := session }

/-- One step of `Session::terminate`; `none` when it has returned. -/
def terminateStep (c : Client) (id : SessionId) :
    TerminatePc → Option (Option TerminatePc × Client)
  | .swap => (c.sessions[id]?).bind fun conn =>
    if conn.session.closed then some (none, c)
    else (c.onSession md5 id .terminate).map fun c => (some .clear, c)
  | .clear => (c.sessions[id]?).bind fun conn =>
    if conn.session.ending = .none then some (none, c)
    else (c.onSession md5 id .endStep).map fun c => (some .clear, c)

/-- A test of the closed flag. -/
def unlessClosed (c : Client) (next : CallPc) : CallPc :=
  if c.closedFlag then .returned (.error clientClosed) else next

/-- What `create_stream` does after a failed round. -/
def retry (attempt : Nat) (error : IoError) : CallPc :=
  if attempt + 1 < 3 then .round (attempt + 1) else .returned (.error error)

/-- `ensure_started` of `create_session`. -/
def startSession (c : Client) (attempt : Nat) (id : SessionId) : Option (CallPc × Client) :=
  (c.sessions[id]?).bind fun conn => (conn.ensureStarted iterate).map fun
    | (.ok (), conn) => (.check attempt id, c.setConnection id conn)
    | (.error error, conn) => (.returned (.error error), c.setConnection id conn)

/-- The insertion into the active sessions and the spawn of the session's task. -/
def registerSession (c : Client) (seq : UInt64) (id : SessionId) : Option Client :=
  (c.sessions[id]?).map fun conn =>
    { c.setConnection id { conn with task := .starting seq } with active := insertKey c.active seq id }

/-- What `create_stream` does once `open_stream` has returned. -/
def afterOpen (c : Client) (attempt : Nat) (seq : UInt64) (id : SessionId) :
    Except IoError StreamRef → CallPc × Client
  | .ok ref =>
    (.returned (.ok (id, ref)), { c with idleTasks := c.idleTasks ++ [⟨seq, id, .start⟩] })
  | .error error =>
    (if error.kind = .wouldBlock then retry attempt error else .giveUp attempt id .swap error, c)

def stepCall (setup : ClientSetup) (c : Client) (dialed : Dialed) : CallPc → Option (CallPc × Client)
  | .begin => some (c.unlessClosed (.round 0), c)
  | .round attempt => some (c.unlessClosed (.find attempt), c)
  | .find attempt => some (c.unlessClosed (.search (.take attempt)), c)
  | .search pc =>
    if pc.searches then
      (c.view.stepCall setup.toClientConfig (.ok ()) pc).map fun (next, seen) =>
        (.found next, { c with pool := seen.pool })
    else none
  | .dropStale attempt entry pc => (c.terminateStep md5 entry.session pc).map fun (next, c) =>
    (match next with
      | some pc => .dropStale attempt entry pc
      | none => .search (.take attempt), c)
  | .recheck attempt => some (c.unlessClosed (.dial attempt), c)
  | .dial attempt =>
    match dialed with
    | .failed error => some (.returned (.error error), c)
    | .connected random =>
      some (.make attempt (authPreamble random c.padding setup.passwordSha256 setup.clientId) c.issued, c)
  | .make attempt preamble issued =>
    some (.start attempt c.sessions.length,
      { c with sessions := c.sessions ++ [Connection.new c.padding preamble issued] })
  | .start attempt id => c.startSession iterate attempt id
  | .check attempt id => some (if c.closedFlag then .abandon id .swap else .number attempt id, c)
  | .abandon id pc => (c.terminateStep md5 id pc).map fun (next, c) =>
    (match next with
      | some pc => .abandon id pc
      | none => .returned (.error clientClosed), c)
  | .number attempt id =>
    some (.register attempt c.seqNumber id, { c with seqNumber := c.seqNumber + 1 })
  | .register attempt seq id => (c.registerSession seq id).map fun c => (.openStream attempt seq id, c)
  | .openStream attempt seq id => (c.sessions[id]?).bind fun conn =>
    (c.onSession md5 id (.openStream setup.maxStreamsPerSession)).map fun c =>
      (.opening attempt seq id conn.session.opens.length, c)
  | .opening attempt seq id call => (c.sessions[id]?).bind fun conn =>
    match conn.session.opens[call]? with
    | some (.returned result) => some (c.afterOpen attempt seq id result)
    | _ => (c.onSession md5 id (.openStep call)).map fun c => (.opening attempt seq id call, c)
  | .giveUp attempt id pc error => (c.terminateStep md5 id pc).map fun (next, c) =>
    (match next with
      | some pc => .giveUp attempt id pc error
      | none => retry attempt error, c)
  | .returned _ => none

/-- One step of an idle-return task on its session. -/
def stepIdle (c : Client) (task : IdleTask) (session : Session) : Option (IdlePc × Client) :=
  (c.view.stepIdle task session.view).map fun (pc, seen) => (pc, { c with pool := seen.pool })

/-- The next step of `close`. -/
def stepClose (c : Client) : Option Client :=
  match c.closing with
  | .uncalled | .returned => none
  | .cancelled => if c.cleanup.isEmpty then some { c with closing := .drainActive } else none
  | .drainActive =>
    some { c with active := [], closing := .drainPool (c.active.map fun entry => entry.2) }
  | .drainPool sessions =>
    some { c with
      pool := [], closing := .terminating (sessions ++ c.pool.map fun entry => entry.session) .swap }
  | .terminating [] _ => some { c with closing := .returned }
  | .terminating (id :: rest) pc => (c.terminateStep md5 id pc).map fun (next, c) =>
    { c with closing := match next with
        | some pc => .terminating (id :: rest) pc
        | none => .terminating rest .swap }

def step (setup : ClientSetup) (c : Client) : LifecycleAction → Option Client
  | .createStream => some { c with calls := c.calls ++ [.begin] }
  | .advance i dialed =>
    (c.calls[i]?).bind fun pc => (c.stepCall md5 iterate setup dialed pc).map fun (pc, t) =>
      { t with calls := t.calls.set i pc }
  | .runStart id => (c.sessions[id]?).bind fun conn =>
    match conn.task with
    | .starting seq => (conn.ensureStarted iterate).map fun
      | (.ok (), conn) => c.setConnection id { conn with task := .receiving seq }
      | (.error _, conn) =>
        { c.setConnection id { conn with task := .gone } with active := swapRemove c.active seq }
    | _ => none
  | .runEnd id => (c.sessions[id]?).bind fun conn =>
    match conn.task with
    | .receiving seq =>
      if conn.session.recv = .ended then
        some { c.setConnection id { conn with task := .gone } with active := swapRemove c.active seq }
      else none
    | _ => none
  | .session id action => (c.sessions[id]?).bind fun conn =>
    if action.managed || (action.receives && !(conn.task matches .receiving _)) then none
    else (conn.session.step md5 action).map fun session =>
      { c.setConnection id { conn with session := session } with
        issued := (conn.session.issuedSince md5 session).head?.or c.issued }
  | .idle i =>
    (c.idleTasks[i]?).bind fun task => (c.sessions[task.session]?).bind fun conn =>
      (c.stepIdle task conn.session).map fun (pc, t) =>
        { t with idleTasks := t.idleTasks.set i { task with pc := pc } }
  | .cleanupTick =>
    if c.cleanup.isEmpty ∧ (c.closing = .uncalled ∨ c.closing = .cancelled) then
      let (pool, removed) := c.pool.cleanupStale c.now setup.idleSessionTimeout setup.minIdleSessions
      some { c with pool := pool, cleanup := removed.map fun session => (session, .swap) }
    else none
  | .cleanupStep =>
    match c.cleanup with
    | [] => none
    | (id, pc) :: rest => (c.terminateStep md5 id pc).map fun (next, t) =>
      { t with cleanup := match next with
          | some pc => (id, pc) :: rest
          | none => rest }
  | .elapse duration => some { c with now := c.now + duration }
  | .close => if c.closedFlag then some c else some { c with closedFlag := true, closing := .cancelled }
  | .closeStep => c.stepClose md5

end Client

end AnyTls

import AnyTls.Core.Io
import AnyTls.Proxy.IdlePool

/-! The multiplexing client of `proxy/session/client.rs`: any number of
`create_stream` calls, the idle-return tasks they spawn and the cleanup task, over
sessions whose streams are opened, closed and lost. Each task is a program counter
over its lock sections and atomic accesses; what it holds between two of them is
part of the counter. -/
namespace AnyTls

/-- What the client sees of a `Session`: the `closed` flag, whether the writer
task has dropped the frame channel, the sids of the stream table, and the idle
flag with the removals that have yet to raise it. -/
structure ClientSession where
  closed : Bool
  writerGone : Bool
  streams : List UInt32
  nextStreamId : UInt32
  idleState : Bool
  idleSends : Nat
deriving DecidableEq, Repr

namespace ClientSession

def new : ClientSession := ⟨false, false, [], 0, true, 0⟩

def isTerminated (session : ClientSession) : Bool := session.closed || session.writerGone

def isStreamOpen (session : ClientSession) : Bool := !session.streams.isEmpty

def hasStreamCapacity (session : ClientSession) (maxStreams : Nat) : Bool :=
  session.streams.length < maxStreams

/-- The lock section of `open_stream`. -/
def insertStream (session : ClientSession) (maxStreams : Nat) :
    Except IoError UInt32 × ClientSession :=
  if session.closed then (.error ⟨.brokenPipe, "Session closed"⟩, session)
  else if session.streams.length ≥ maxStreams then
    (.error ⟨.wouldBlock, "Session stream limit reached"⟩, session)
  else
    let sid := session.nextStreamId + 1
    let session := { session with nextStreamId := session.nextStreamId + 1 }
    if sid = 0 then (.error (IoError.otherError "Stream identifier exhausted"), session)
    else (.ok sid, { session with streams := session.streams.insert sid, idleState := false })

/-- The lock section of `remove_stream` and of `Stream::remove_from_session`. -/
def removeStream (session : ClientSession) (sid : UInt32) : ClientSession :=
  let streams := session.streams.erase sid
  { session with
    streams := streams
    idleSends := if streams.isEmpty then session.idleSends + 1 else session.idleSends }

/-- `idle_state.send_replace(true)` after a removal that emptied the table. -/
def announceIdle (session : ClientSession) : ClientSession :=
  { session with idleState := true, idleSends := session.idleSends - 1 }

/-- The lock section of `terminate`. -/
def clearStreams (session : ClientSession) : ClientSession :=
  { session with streams := [], idleState := true }

end ClientSession

/-- The two steps of `Session::terminate`; a session already closed has no second. -/
inductive TerminatePc where
  | swap | clear
deriving DecidableEq, Repr

/-- A `create_stream` call; `attempt` counts the rounds of its retry loop. -/
inductive CreatePc where
  | take (attempt : Nat)
  | popped (attempt : Nat) (entry : IdleEntry) (guarded : Bool)
  | aged (attempt : Nat) (entry : IdleEntry) (guarded : Bool)
  | dropStale (attempt : Nat) (entry : IdleEntry) (pc : TerminatePc)
  | snapshot (attempt : Nat)
  | scan (attempt : Nat) (active : List (UInt64 × SessionId))
  | capacity (attempt : Nat) (seq : UInt64) (session : SessionId)
      (active : List (UInt64 × SessionId))
  | dial (attempt : Nat)
  | register (attempt : Nat) (seq : UInt64) (session : SessionId)
  | openCheck (attempt : Nat) (seq : UInt64) (session : SessionId)
  | insert (attempt : Nat) (seq : UInt64) (session : SessionId)
  | syn (attempt : Nat) (seq : UInt64) (session : SessionId) (sid : UInt32)
  | undo (attempt : Nat) (session : SessionId) (sid : UInt32) (error : IoError)
  | giveUp (attempt : Nat) (session : SessionId) (pc : TerminatePc) (error : IoError)
  | returned (result : Except IoError (SessionId × UInt32))
deriving DecidableEq

/-- An idle-return task. -/
inductive IdlePc where
  | start | firstLook | waiting | woken | secondLook | returning | finished
deriving DecidableEq, Repr

structure IdleTask where
  seq : UInt64
  session : SessionId
  pc : IdlePc
deriving DecidableEq, Repr

structure ClientConfig where
  idleSessionTimeout : Nat
  minIdleSessions : Nat
  maxStreamsPerSession : Nat

structure ClientState where
  sessions : List ClientSession
  active : List (UInt64 × SessionId)
  pool : IdleSessionPool
  seqNumber : UInt64
  calls : List CreatePc
  idleTasks : List IdleTask
  /-- the sessions `cleanup_stale` has still to terminate -/
  cleanup : List (SessionId × TerminatePc)
  now : Nat

inductive ClientAction where
  | createStream
  /-- the next step of a `create_stream` call; `dialed` is the result of a dial -/
  | advance (call : Nat) (dialed : Except IoError Unit)
  | idle (task : Nat)
  | cleanupTick
  | cleanupStep
  | removeStream (session : SessionId) (sid : UInt32)
  | announceIdle (session : SessionId)
  | writerExits (session : SessionId)
  /-- the connection ends: `run` terminates the session -/
  | close (session : SessionId)
  | clear (session : SessionId)
  | dropActive (seq : UInt64)
  | elapse (duration : Nat)

namespace ClientState

def new : ClientState := ⟨[], [], [], 0, [], [], [], 0⟩

def modifySession (s : ClientState) (session : SessionId) (f : ClientSession → ClientSession) :
    ClientState :=
  { s with sessions := s.sessions.modify session f }

/-- One step of `Session::terminate`; `none` when it has returned. -/
def terminateStep (s : ClientState) (id : SessionId) :
    TerminatePc → Option (Option TerminatePc × ClientState)
  | .swap => (s.sessions[id]?).map fun session =>
    if session.closed then (none, s)
    else (some .clear, s.modifySession id fun session => { session with closed := true })
  | .clear => some (none, s.modifySession id ClientSession.clearStreams)

/-- What `create_stream` does after a failed round. -/
def retry (attempt : Nat) (error : IoError) : CreatePc :=
  if attempt + 1 < 3 then .take (attempt + 1) else .returned (.error error)

/-- `create_session` from a successful dial to the `fetch_add`: the new session, which no
other task knows yet, is started and gets the next number. -/
def addSession (s : ClientState) : ClientState :=
  { s with sessions := s.sessions ++ [ClientSession.new], seqNumber := s.seqNumber + 1 }

def stepCall (config : ClientConfig) (s : ClientState) (dialed : Except IoError Unit) :
    CreatePc → Option (CreatePc × ClientState)
  | .take attempt =>
    match s.pool.popLast config.minIdleSessions with
    | none => some (.snapshot attempt, s)
    | some ((entry, guarded), pool) => some (.popped attempt entry guarded, { s with pool := pool })
  | .popped attempt entry guarded => (s.sessions[entry.session]?).map fun session =>
    (if session.isTerminated then .take attempt else .aged attempt entry guarded, s)
  | .aged attempt entry guarded =>
    if !guarded && decide (config.idleSessionTimeout ≤ s.now - entry.idleSince) then
      some (.dropStale attempt entry .swap, s)
    else some (.openCheck attempt entry.seq entry.session, s)
  | .dropStale attempt entry pc => (s.terminateStep entry.session pc).map fun (next, s) =>
    (match next with
      | some pc => .dropStale attempt entry pc
      | none => .take attempt, s)
  | .snapshot attempt => some (.scan attempt s.active, s)
  | .scan attempt [] => some (.dial attempt, s)
  | .scan attempt ((seq, id) :: rest) => (s.sessions[id]?).map fun session =>
    (if session.isTerminated then .scan attempt rest else .capacity attempt seq id rest, s)
  | .capacity attempt seq id rest => (s.sessions[id]?).map fun session =>
    (if session.hasStreamCapacity config.maxStreamsPerSession then .openCheck attempt seq id
      else .scan attempt rest, s)
  | .dial attempt =>
    match dialed with
    | .error error => some (.returned (.error error), s)
    | .ok () => some (.register attempt s.seqNumber s.sessions.length, s.addSession)
  | .register attempt seq id => some (.openCheck attempt seq id, { s with active := insertKey s.active seq id })
  | .openCheck attempt seq id => (s.sessions[id]?).map fun session =>
    (if session.isTerminated then .giveUp attempt id .swap ⟨.brokenPipe, "Session closed"⟩
      else .insert attempt seq id, s)
  | .insert attempt seq id => (s.sessions[id]?).map fun session =>
    match session.insertStream config.maxStreamsPerSession with
    | (.ok sid, session) => (.syn attempt seq id sid, s.modifySession id fun _ => session)
    | (.error error, session) =>
      (if error.kind = .wouldBlock then retry attempt error else .giveUp attempt id .swap error,
        s.modifySession id fun _ => session)
  | .syn attempt seq id sid => (s.sessions[id]?).map fun session =>
    if session.writerGone then (.undo attempt id sid ⟨.brokenPipe, "Session closed"⟩, s)
    else (.returned (.ok (id, sid)), { s with idleTasks := s.idleTasks ++ [⟨seq, id, .start⟩] })
  | .undo attempt id sid error =>
    some (.giveUp attempt id .swap error, s.modifySession id (·.removeStream sid))
  | .giveUp attempt id pc error => (s.terminateStep id pc).map fun (next, s) =>
    (match next with
      | some pc => .giveUp attempt id pc error
      | none => retry attempt error, s)
  | .returned _ => none

/-- One step of an idle-return task on its session. -/
def stepIdle (s : ClientState) (task : IdleTask) (session : ClientSession) :
    Option (IdlePc × ClientState) :=
  match task.pc with
  | .start => some (if session.isTerminated then .finished else .firstLook, s)
  | .firstLook => some (if session.isStreamOpen then .waiting else .returning, s)
  | .waiting => if session.idleState || session.isTerminated then some (.woken, s) else none
  | .woken => some (if session.isTerminated then .finished else .secondLook, s)
  | .secondLook => some (if session.isStreamOpen then .finished else .returning, s)
  | .returning => some (.finished, { s with pool := s.pool.returnSession task.seq task.session s.now })
  | .finished => none

def step (config : ClientConfig) (s : ClientState) : ClientAction → Option ClientState
  | .createStream => some { s with calls := s.calls ++ [.take 0] }
  | .advance i dialed =>
    (s.calls[i]?).bind fun pc => (s.stepCall config dialed pc).map fun (pc, t) =>
      { t with calls := t.calls.set i pc }
  | .idle i =>
    (s.idleTasks[i]?).bind fun task => (s.sessions[task.session]?).bind fun session =>
      (s.stepIdle task session).map fun (pc, t) =>
        { t with idleTasks := t.idleTasks.set i { task with pc := pc } }
  | .cleanupTick =>
    if s.cleanup.isEmpty then
      let (pool, removed) := s.pool.cleanupStale s.now config.idleSessionTimeout config.minIdleSessions
      some { s with pool := pool, cleanup := removed.map fun session => (session, .swap) }
    else none
  | .cleanupStep =>
    match s.cleanup with
    | [] => none
    | (session, pc) :: rest => (s.terminateStep session pc).map fun (next, t) =>
      { t with cleanup := match next with
          | some pc => (session, pc) :: rest
          | none => rest }
  | .removeStream session sid => some (s.modifySession session (·.removeStream sid))
  | .announceIdle session => (s.sessions[session]?).bind fun current =>
    if current.idleSends = 0 then none else some (s.modifySession session ClientSession.announceIdle)
  | .writerExits session => some (s.modifySession session fun session => { session with writerGone := true })
  | .close session => some (s.modifySession session fun session => { session with closed := true })
  | .clear session => (s.sessions[session]?).bind fun current =>
    if current.closed then some (s.modifySession session ClientSession.clearStreams) else none
  | .dropActive seq => some { s with active := swapRemove s.active seq }
  | .elapse duration => some { s with now := s.now + duration }

/-! ### Steps that several tasks take -/

variable {s t : ClientState}

theorem terminateStep_cases {id pc after} (stepped : s.terminateStep id pc = some (after, t)) :
    (after = none ∧ t = s) ∨
    (pc = .swap ∧ after = some .clear ∧ t = s.modifySession id fun session => { session with closed := true }) ∨
    (after = none ∧ t = s.modifySession id ClientSession.clearStreams) := by
  cases pc with
  | swap =>
    obtain ⟨session, -, same⟩ := Option.map_eq_some_iff.mp stepped
    split_ifs at same
    · cases same
      exact .inl ⟨rfl, rfl⟩
    · cases same
      exact .inr (.inl ⟨rfl, rfl, rfl⟩)
  | clear =>
    cases stepped
    exact .inr (.inr ⟨rfl, rfl⟩)

theorem stepIdle_cases {task session pc} (stepped : s.stepIdle task session = some (pc, t)) :
    (t = s ∧ (pc = .returning → session.isStreamOpen = false)) ∨
    (task.pc = .returning ∧ pc = .finished ∧
      t = { s with pool := s.pool.returnSession task.seq task.session s.now }) := by
  unfold stepIdle at stepped
  split at stepped
  · cases stepped
    exact .inl ⟨rfl, by split_ifs <;> simp⟩
  · cases stepped
    refine .inl ⟨rfl, ?_⟩
    split_ifs with opened
    · simp
    · simpa using opened
  · split_ifs at stepped
    cases stepped
    exact .inl ⟨rfl, by simp⟩
  · cases stepped
    exact .inl ⟨rfl, by split_ifs <;> simp⟩
  · cases stepped
    refine .inl ⟨rfl, ?_⟩
    split_ifs with opened
    · simp
    · simpa using opened
  · rename_i returning
    cases stepped
    exact .inr ⟨returning, rfl, rfl⟩
  · cases stepped

end ClientState

end AnyTls

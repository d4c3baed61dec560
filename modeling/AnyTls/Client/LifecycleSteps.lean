import AnyTls.Client.Lifecycle
import AnyTls.Proxy.ClientMoves

/-! What one step of a client does: the moves of a `create_stream` call, and those of the other
tasks, each with what it saw of the client. The invariants of clients are proved from them. -/
namespace AnyTls

namespace CallPc

/-- The session the call is making; no other call knows of it yet. -/
def owned : CallPc → Option SessionId
  | .start _ id | .check _ id | .abandon id _ | .number _ id | .register _ _ id => some id
  | _ => none

/-- The sessions the call has found among those in use. -/
def refs : CallPc → List SessionId
  | .search pc => pc.sessions
  | .dropStale _ entry _ => [entry.session]
  | .openStream _ _ id | .opening _ _ id _ | .giveUp _ id _ _ => [id]
  | _ => []

/-- The call is neither making a session nor has it returned one. -/
def plain : CallPc → Bool
  | .make .. | .start .. | .check .. | .abandon .. | .number .. | .register .. | .returned (.ok _) => false
  | _ => true

/-- Nor is it inside `open_stream`. -/
def still : CallPc → Bool
  | .opening .. => false
  | pc => pc.plain

theorem plain_owned {pc : CallPc} (plain : pc.plain = true) : pc.owned = none := by
  cases pc <;> first | rfl | cases plain

theorem still_plain {pc : CallPc} (still : pc.still = true) : pc.plain = true := by
  cases pc <;> first | exact still | rfl

end CallPc

def ClientClosePc.sessions : ClientClosePc → List SessionId
  | .drainPool sessions | .terminating sessions _ => sessions
  | _ => []

/-- The step of `terminate` that the task at `pc` takes next. -/
def TerminatePc.Takes (pc : TerminatePc) (action : SessionAction) : Prop :=
  (pc = .swap ∧ action = .terminate) ∨ (pc = .clear ∧ action = .endStep)

namespace Client
variable {md5 : Bytes → String} {iterate : StringMap.Order}
variable {setup : ClientSetup} {c t : Client}

section
variable (md5 iterate setup)

inductive CallMove (c : Client) : CallPc → CallPc → Client → Prop where
  | walks {pc next} : pc.plain = true → next.still = true →
      (∀ id ∈ next.refs, id ∈ pc.refs ∨ ∃ entry ∈ c.active, entry.2 = id) → CallMove c pc next c
  | pops {attempt entry guarded pool} : c.pool.popLast setup.minIdleSessions = some ((entry, guarded), pool) →
      CallMove c (.search (.take attempt)) (.search (.popped attempt entry guarded)) { c with pool := pool }
  | acts {pc next id conn session} (action) :
      pc.plain = true → next.still = true → id ∈ pc.refs → (∀ other ∈ next.refs, other ∈ pc.refs) →
      c.sessions[id]? = some conn → conn.session.step md5 action = some session →
      CallMove c pc next (c.setConnection id { conn with session := session })
  | asks {attempt seq id conn session} : c.sessions[id]? = some conn →
      conn.session.step md5 (.openStream setup.maxStreamsPerSession) = some session →
      CallMove c (.openStream attempt seq id) (.opening attempt seq id conn.session.opens.length)
        (c.setConnection id { conn with session := session })
  | opens {attempt seq id call conn session} :
      c.sessions[id]? = some conn → conn.session.step md5 (.openStep call) = some session →
      CallMove c (.opening attempt seq id call) (.opening attempt seq id call)
        (c.setConnection id { conn with session := session })
  | dials {attempt} (random) : CallMove c (.dial attempt)
        (.make attempt (authPreamble random c.padding setup.passwordSha256 setup.clientId) c.issued) c
  | makes {attempt preamble issued} : CallMove c (.make attempt preamble issued) (.start attempt c.sessions.length)
        { c with sessions := c.sessions ++ [Connection.new c.padding preamble issued] }
  | starts {attempt id conn started} : c.sessions[id]? = some conn →
      conn.ensureStarted iterate = some (.ok (), started) →
      CallMove c (.start attempt id) (.check attempt id) (c.setConnection id started)
  | startFails {attempt id conn after error} :
      c.sessions[id]? = some conn → conn.ensureStarted iterate = some (.error error, after) →
      CallMove c (.start attempt id) (.returned (.error error)) (c.setConnection id after)
  | admits {attempt id} : c.closedFlag = false → CallMove c (.check attempt id) (.number attempt id) c
  | rejects {attempt id} : c.closedFlag = true → CallMove c (.check attempt id) (.abandon id .swap) c
  | abandons {id pc conn session} (action) :
      pc.Takes action → c.sessions[id]? = some conn → conn.session.step md5 action = some session →
      CallMove c (.abandon id pc) (.abandon id .clear) (c.setConnection id { conn with session := session })
  | abandoned {id pc conn} : c.sessions[id]? = some conn → (pc = .swap → conn.session.closed = true) →
      CallMove c (.abandon id pc) (.returned (.error clientClosed)) c
  | numbers {attempt id} : CallMove c (.number attempt id) (.register attempt c.seqNumber id)
        { c with seqNumber := c.seqNumber + 1 }
  | registers {attempt seq id conn} : c.sessions[id]? = some conn →
      CallMove c (.register attempt seq id) (.openStream attempt seq id)
        { c.setConnection id { conn with task := .starting seq } with active := insertKey c.active seq id }
  | opened {attempt seq id call conn ref} :
      c.sessions[id]? = some conn → conn.session.opens[call]? = some (.returned (.ok ref)) →
      CallMove c (.opening attempt seq id call) (.returned (.ok (id, ref)))
        { c with idleTasks := c.idleTasks ++ [⟨seq, id, .start⟩] }

inductive Move (c : Client) : LifecycleAction → Client → Prop where
  | creates : Move c .createStream { c with calls := c.calls ++ [.begin] }
  | call {i dialed pc next t} : c.calls[i]? = some pc →
      CallMove md5 iterate setup c pc next t → Move c (.advance i dialed) { t with calls := t.calls.set i next }
  | runs {id conn started seq} : c.sessions[id]? = some conn →
      conn.task = .starting seq → conn.ensureStarted iterate = some (.ok (), started) →
      Move c (.runStart id) (c.setConnection id { started with task := .receiving seq })
  | runFails {id conn after seq error} : c.sessions[id]? = some conn → conn.task = .starting seq →
      conn.ensureStarted iterate = some (.error error, after) →
      Move c (.runStart id)
        { c.setConnection id { after with task := .gone } with active := swapRemove c.active seq }
  | runEnds {id conn seq} : c.sessions[id]? = some conn → conn.task = .receiving seq → conn.session.recv = .ended →
      Move c (.runEnd id)
        { c.setConnection id { conn with task := .gone } with active := swapRemove c.active seq }
  | session {id action conn session} : c.sessions[id]? = some conn → action.managed = false →
      (action.receives = true → ∃ seq, conn.task = .receiving seq) →
      conn.session.step md5 action = some session →
      Move c (.session id action)
        { c.setConnection id { conn with session := session } with
          issued := (conn.session.issuedSince md5 session).head?.or c.issued }
  | idles {i task} (pc) : c.idleTasks[i]? = some task →
      Move c (.idle i) { c with idleTasks := c.idleTasks.set i { task with pc := pc } }
  | returns {i task} : c.idleTasks[i]? = some task →
      Move c (.idle i) { c with
        idleTasks := c.idleTasks.set i { task with pc := .finished }
        pool := c.pool.returnSession task.seq task.session c.now }
  | cleans : Move c .cleanupTick { c with
      pool := (c.pool.cleanupStale c.now setup.idleSessionTimeout setup.minIdleSessions).1
      cleanup := (c.pool.cleanupStale c.now setup.idleSessionTimeout setup.minIdleSessions).2.map
        fun session => (session, .swap) }
  | cleanupActs {id pc rest conn session} (action) : c.cleanup = (id, pc) :: rest →
      c.sessions[id]? = some conn → conn.session.step md5 action = some session →
      Move c .cleanupStep
        { c.setConnection id { conn with session := session } with cleanup := (id, .clear) :: rest }
  | cleanupDone {id pc rest} : c.cleanup = (id, pc) :: rest → Move c .cleanupStep { c with cleanup := rest }
  | elapses (duration) : Move c (.elapse duration) { c with now := c.now + duration }
  | closes : c.closedFlag = false → Move c .close { c with closedFlag := true, closing := .cancelled }
  | closedBefore : c.closedFlag = true → Move c .close c
  | awaits : c.closing = .cancelled → Move c .closeStep { c with closing := .drainActive }
  | drainsActive : c.closing = .drainActive →
      Move c .closeStep { c with active := [], closing := .drainPool (c.active.map fun entry => entry.2) }
  | drainsPool {sessions} : c.closing = .drainPool sessions →
      Move c .closeStep { c with
        pool := [], closing := .terminating (sessions ++ c.pool.map fun entry => entry.session) .swap }
  | closeReturns {pc} : c.closing = .terminating [] pc → Move c .closeStep { c with closing := .returned }
  | closeActs {id pc rest conn session} (action) : c.closing = .terminating (id :: rest) pc → pc.Takes action →
      c.sessions[id]? = some conn → conn.session.step md5 action = some session →
      Move c .closeStep
        { c.setConnection id { conn with session := session } with closing := .terminating (id :: rest) .clear }
  | closeGoesOn {id pc rest conn} : c.closing = .terminating (id :: rest) pc → c.sessions[id]? = some conn →
      (pc = .swap → conn.session.closed = true) →
      Move c .closeStep { c with closing := .terminating rest .swap }

end

theorem onSession_eq {id action} (acted : c.onSession md5 id action = some t) :
    ∃ conn session, c.sessions[id]? = some conn ∧ conn.session.step md5 action = some session ∧
      t = c.setConnection id { conn with session := session } := by
  obtain ⟨conn, stored, moved⟩ := Option.bind_eq_some_iff.mp acted
  obtain ⟨session, stepped, rfl⟩ := Option.map_eq_some_iff.mp moved
  exact ⟨conn, session, stored, stepped, rfl⟩

theorem terminateStep_cases {id pc next} (stepped : c.terminateStep md5 id pc = some (next, t)) :
    (next = none ∧ t = c ∧ ∃ conn, c.sessions[id]? = some conn ∧ (pc = .swap → conn.session.closed = true)) ∨
    (next = some .clear ∧ ∃ action, pc.Takes action ∧ ∃ conn session, c.sessions[id]? = some conn ∧
      conn.session.step md5 action = some session ∧ t = c.setConnection id { conn with session := session }) := by
  cases pc with
  | swap =>
    obtain ⟨conn, stored, moved⟩ := Option.bind_eq_some_iff.mp stepped
    split_ifs at moved with closed
    · cases moved
      exact .inl ⟨rfl, rfl, conn, stored, fun _ => closed⟩
    · obtain ⟨after, acted, same⟩ := Option.map_eq_some_iff.mp moved
      cases same
      exact .inr ⟨rfl, .terminate, .inl ⟨rfl, rfl⟩, onSession_eq acted⟩
  | clear =>
    obtain ⟨conn, stored, moved⟩ := Option.bind_eq_some_iff.mp stepped
    split_ifs at moved
    · cases moved
      exact .inl ⟨rfl, rfl, conn, stored, by rintro ⟨⟩⟩
    · obtain ⟨after, acted, same⟩ := Option.map_eq_some_iff.mp moved
      cases same
      exact .inr ⟨rfl, .endStep, .inr ⟨rfl, rfl⟩, onSession_eq acted⟩

/-- A test of the closed flag goes on, or ends the call. -/
theorem unlessClosed_move {pc next} (before : pc.plain = true) (after : next.still = true)
    (empty : next.refs = []) : CallMove md5 iterate setup c pc (c.unlessClosed next) c := by
  unfold unlessClosed
  split_ifs
  · exact .walks before rfl (by simp [CallPc.refs])
  · exact .walks before after (by simp [empty])

theorem retry_still (attempt error) :
    (retry attempt error).still = true ∧ (retry attempt error).refs = [] := by
  unfold retry
  split_ifs
  · exact ⟨rfl, rfl⟩
  · exact ⟨rfl, rfl⟩

/-- What a search does it does in the model of its own. -/
theorem search_move {pc next seen} (searching : pc.searches = true)
    (moves : ClientState.CallMove setup.toClientConfig c.view (.ok ()) pc next seen) :
    CallMove md5 iterate setup c (.search pc) (.found next) { c with pool := seen.pool } := by
  cases moves with
  | walks walks =>
    cases walks with
    | misses | dead | exhausted => exact .walks rfl rfl (by rintro _ ⟨⟩)
    | alive | expires | reuses | considers => exact .walks rfl rfl fun id member => .inl member
    | passes | full => exact .walks rfl rfl fun id member => .inl (List.mem_cons_of_mem _ member)
    | settles =>
      exact .walks rfl rfl fun other member => .inl (List.mem_singleton.mp member ▸ List.mem_cons_self)
    | lists =>
      refine .walks rfl rfl fun id member => .inr ?_
      obtain ⟨entry, listed, same⟩ := List.mem_map.mp member
      exact ⟨entry, listed, same⟩
    | undialed | refused | admitted | unsent => cases searching
  | pops popped => exact .pops popped
  | _ => cases searching

theorem stepCall_move {dialed pc next} (stepped : c.stepCall md5 iterate setup dialed pc = some (next, t)) :
    CallMove md5 iterate setup c pc next t := by
  cases pc with
  | begin | round attempt | find attempt | recheck attempt =>
    cases stepped
    exact unlessClosed_move rfl rfl rfl
  | search pc =>
    simp only [stepCall] at stepped
    split_ifs at stepped with searching
    obtain ⟨⟨after, seen⟩, searched, same⟩ := Option.map_eq_some_iff.mp stepped
    cases same
    exact search_move searching (ClientState.stepCall_move searched)
  | dropStale attempt entry pc =>
    obtain ⟨⟨after, u⟩, terminated, same⟩ := Option.map_eq_some_iff.mp stepped
    cases same
    rcases terminateStep_cases terminated with ⟨rfl, rfl, -⟩ | ⟨rfl, action, -, conn, session, stored, acted, rfl⟩
    · exact .walks rfl rfl (by simp [CallPc.refs, CreatePc.sessions])
    · exact .acts action rfl rfl List.mem_cons_self (fun other member => member) stored acted
  | dial attempt =>
    simp only [stepCall] at stepped
    split at stepped
    · cases stepped
      exact .walks rfl rfl (by simp [CallPc.refs])
    · rename_i random
      cases stepped
      exact .dials random
  | make attempt preamble issued =>
    cases stepped
    exact .makes
  | start attempt id =>
    obtain ⟨conn, stored, moved⟩ := Option.bind_eq_some_iff.mp stepped
    obtain ⟨⟨result, after⟩, started, same⟩ := Option.map_eq_some_iff.mp moved
    cases result with
    | ok done =>
      cases same
      exact .starts stored started
    | error error =>
      cases same
      exact .startFails stored started
  | check attempt id =>
    cases stepped
    split_ifs with flag
    · exact .rejects flag
    · exact .admits (by simpa using flag)
  | abandon id pc =>
    obtain ⟨⟨after, u⟩, terminated, same⟩ := Option.map_eq_some_iff.mp stepped
    cases same
    rcases terminateStep_cases terminated with
      ⟨rfl, rfl, conn, stored, closed⟩ | ⟨rfl, action, takes, conn, session, stored, acted, rfl⟩
    · exact .abandoned stored closed
    · exact .abandons action takes stored acted
  | number attempt id =>
    cases stepped
    exact .numbers
  | register attempt seq id =>
    obtain ⟨u, registered, same⟩ := Option.map_eq_some_iff.mp stepped
    obtain ⟨conn, stored, rfl⟩ := Option.map_eq_some_iff.mp registered
    cases same
    exact .registers stored
  | openStream attempt seq id =>
    obtain ⟨conn, found, moved⟩ := Option.bind_eq_some_iff.mp stepped
    obtain ⟨u, acted, same⟩ := Option.map_eq_some_iff.mp moved
    obtain ⟨conn', session, stored, called, rfl⟩ := onSession_eq acted
    cases found.symm.trans stored
    cases same
    exact .asks stored called
  | opening attempt seq id call =>
    obtain ⟨conn, stored, moved⟩ := Option.bind_eq_some_iff.mp stepped
    split at moved
    · rename_i result returned
      cases result with
      | ok ref =>
        cases moved
        exact .opened stored returned
      | error error =>
        cases moved
        split_ifs
        · exact .walks rfl (retry_still ..).1 (by simp [retry_still])
        · exact .walks rfl rfl fun other member => .inl member
    · obtain ⟨u, acted, same⟩ := Option.map_eq_some_iff.mp moved
      obtain ⟨conn, session, stored, called, rfl⟩ := onSession_eq acted
      cases same
      exact .opens stored called
  | giveUp attempt id pc error =>
    obtain ⟨⟨after, u⟩, terminated, same⟩ := Option.map_eq_some_iff.mp stepped
    cases same
    rcases terminateStep_cases terminated with ⟨rfl, rfl, -⟩ | ⟨rfl, action, -, conn, session, stored, acted, rfl⟩
    · exact .walks rfl (retry_still ..).1 (by simp [retry_still])
    · exact .acts action rfl rfl List.mem_cons_self (fun other member => member) stored acted
  | returned result => cases stepped

theorem stepIdle_cases {task session pc} (stepped : c.stepIdle task session = some (pc, t)) :
    t = c ∨ (pc = .finished ∧ t = { c with pool := c.pool.returnSession task.seq task.session c.now }) := by
  obtain ⟨⟨after, seen⟩, looked, same⟩ := Option.map_eq_some_iff.mp stepped
  cases same
  rcases ClientState.stepIdle_cases looked with ⟨rfl, -⟩ | ⟨-, rfl, rfl⟩
  · exact .inl rfl
  · exact .inr ⟨rfl, rfl⟩

theorem stepClose_move (stepped : c.stepClose md5 = some t) : Move md5 iterate setup c .closeStep t := by
  unfold stepClose at stepped
  split at stepped
  · cases stepped
  · cases stepped
  · rename_i closing
    split_ifs at stepped
    cases stepped
    exact .awaits closing
  · rename_i closing
    cases stepped
    exact .drainsActive closing
  · rename_i sessions closing
    cases stepped
    exact .drainsPool closing
  · rename_i pc closing
    cases stepped
    exact .closeReturns closing
  · rename_i id rest pc closing
    obtain ⟨⟨after, u⟩, terminated, rfl⟩ := Option.map_eq_some_iff.mp stepped
    rcases terminateStep_cases terminated with
      ⟨rfl, rfl, conn, stored, closed⟩ | ⟨rfl, action, takes, conn, session, stored, acted, rfl⟩
    · exact .closeGoesOn closing stored closed
    · exact .closeActs action closing takes stored acted

theorem step_move {a} (stepped : c.step md5 iterate setup a = some t) :
    Move md5 iterate setup c a t := by
  cases a with
  | createStream => cases stepped; exact .creates
  | advance i dialed =>
    obtain ⟨pc, placed, moved⟩ := Option.bind_eq_some_iff.mp stepped
    obtain ⟨⟨next, u⟩, called, rfl⟩ := Option.map_eq_some_iff.mp moved
    exact .call placed (stepCall_move called)
  | runStart id =>
    obtain ⟨conn, stored, moved⟩ := Option.bind_eq_some_iff.mp stepped
    split at moved
    · rename_i seq starting
      obtain ⟨⟨result, after⟩, started, rfl⟩ := Option.map_eq_some_iff.mp moved
      cases result with
      | ok done => exact .runs stored starting started
      | error error => exact .runFails stored starting started
    · cases moved
  | runEnd id =>
    obtain ⟨conn, stored, moved⟩ := Option.bind_eq_some_iff.mp stepped
    split at moved
    · rename_i seq receiving
      split_ifs at moved with ended
      cases moved
      exact .runEnds stored receiving ended
    · cases moved
  | session id action =>
    obtain ⟨conn, stored, moved⟩ := Option.bind_eq_some_iff.mp stepped
    split_ifs at moved with barred
    obtain ⟨session, acted, rfl⟩ := Option.map_eq_some_iff.mp moved
    simp only [Bool.or_eq_true, Bool.and_eq_true, not_or, not_and, Bool.not_eq_true] at barred
    refine .session stored barred.1 (fun receives => ?_) acted
    have task := barred.2 receives
    cases running : conn.task with
    | receiving seq => exact ⟨seq, rfl⟩
    | unspawned | starting seq | gone => simp [running] at task
  | idle i =>
    obtain ⟨task, placed, moved⟩ := Option.bind_eq_some_iff.mp stepped
    obtain ⟨conn, -, moved⟩ := Option.bind_eq_some_iff.mp moved
    obtain ⟨⟨pc, u⟩, idled, rfl⟩ := Option.map_eq_some_iff.mp moved
    rcases stepIdle_cases idled with rfl | ⟨rfl, rfl⟩
    · exact .idles pc placed
    · exact .returns placed
  | cleanupTick =>
    simp only [step] at stepped
    split_ifs at stepped
    cases stepped
    exact .cleans
  | cleanupStep =>
    simp only [step] at stepped
    split at stepped
    · cases stepped
    · rename_i id pc rest queued
      obtain ⟨⟨after, u⟩, terminated, rfl⟩ := Option.map_eq_some_iff.mp stepped
      rcases terminateStep_cases terminated with ⟨rfl, rfl, -⟩ | ⟨rfl, action, -, conn, session, stored, acted, rfl⟩
      · exact .cleanupDone queued
      · exact .cleanupActs action queued stored acted
  | elapse duration => cases stepped; exact .elapses duration
  | close =>
    simp only [step] at stepped
    split_ifs at stepped with flag
    · cases stepped
      exact .closedBefore flag
    · cases stepped
      exact .closes (by simpa using flag)
  | closeStep => exact stepClose_move stepped

/-! ### The sessions as they are seen -/

theorem view_stored {id : SessionId} {conn : Connection} (stored : c.sessions[id]? = some conn) :
    c.view.sessions[id]? = some conn.session.view := by
  rw [view, List.getElem?_map, stored, Option.map_some]

/-- A step of a session, as it is seen. -/
theorem view_set {id conn} (stored : c.sessions[id]? = some conn) {session : Session}
    {f : ClientSession → ClientSession}
    (same : session.view = f conn.session.view) :
    (c.setConnection id { conn with session := session }).view = c.view.modifySession id f := by
  rw [ClientState.modifySession, ListUpdate.modify_eq_set (view_stored stored), ← same]
  simp only [view, setConnection, List.map_set]

theorem view_unseen {id conn} (stored : c.sessions[id]? = some conn) {session : Session}
    (same : session.view = conn.session.view) :
    (c.setConnection id { conn with session := session }).view = c.view := by
  rw [view_set stored (f := fun seen => seen) same, ClientState.modifySession]
  exact congrArg (fun sessions => { c.view with sessions }) (List.modify_id ..)

/-- `terminate` in the two models. The swap of the flag is the same step; the step that empties the
table is the other one there, and those that end the streams are not seen. -/
theorem terminateStep_view {id pc next} (stepped : c.terminateStep md5 id pc = some (next, t)) :
    (pc = .swap → c.view.terminateStep id .swap = some (next, t.view)) ∧
    (pc = .clear → t.view = c.view ∨ c.view.terminateStep id .clear = some (none, t.view)) := by
  refine ⟨?_, ?_⟩
  · rintro rfl
    obtain ⟨conn, stored, moved⟩ := Option.bind_eq_some_iff.mp stepped
    have flag : conn.session.view.closed = conn.session.closed := rfl
    rw [ClientState.terminateStep, view_stored stored, Option.map_some, flag]
    split_ifs at moved with closed
    · cases moved
      rw [if_pos closed]
    · obtain ⟨after, acted, same⟩ := Option.map_eq_some_iff.mp moved
      obtain ⟨conn', session, stored', swapped, rfl⟩ := onSession_eq acted
      cases stored.symm.trans stored'
      cases same
      cases swapped
      rw [if_neg closed, view_set stored]
      rw [Session.beginTerminate, if_neg closed]
      rfl
  · rintro rfl
    obtain ⟨conn, stored, moved⟩ := Option.bind_eq_some_iff.mp stepped
    split_ifs at moved with ended
    · cases moved
      exact .inl rfl
    · obtain ⟨after, acted, same⟩ := Option.map_eq_some_iff.mp moved
      obtain ⟨conn', session, stored', cleared, rfl⟩ := onSession_eq acted
      cases same
      cases Session.step_move cleared with
      | clears => exact .inr (congrArg (fun s => some (none, s)) (view_set stored' rfl).symm)
      | endsAll | endSkips | endMarks | endFinishes =>
        exact .inl (view_unseen stored' rfl)
      | acknowledges acknowledges | acknowledged acknowledges => cases acknowledges

end Client

/-- The lock section of `open_stream` does to what is seen of the session what it does in the
multiplexing model, as long as the table does not hold the next sid. -/
theorem Session.openInsert_view (s : Session) (maxStreams) (fresh : s.nextStreamId + 1 ∉ s.streams) :
    (s.openInsert maxStreams).1.view = (s.view.insertStream maxStreams).2 ∧
    ∀ error, (s.openInsert maxStreams).2 = .returned (.error error) ↔
      (s.view.insertStream maxStreams).1 = .error error := by
  have added : (s.streams.insert (s.nextStreamId + 1) s.objects.length).keys =
      s.streams.keys.insert (s.nextStreamId + 1) := by
    rw [AList.keys_insert, List.erase_of_not_mem fresh, List.insert_of_not_mem fresh]
  by_cases closed : s.closed = true
  · simp [openInsert, ClientSession.insertStream, view, closed, sessionClosed]
  by_cases full : maxStreams ≤ s.streams.keys.length
  · simp [openInsert, ClientSession.insertStream, view, closed, full]
  by_cases last : s.nextStreamId + 1 = 0
  · simp [openInsert, ClientSession.insertStream, view, closed, full, last]
  · simp [openInsert, ClientSession.insertStream, view, closed, full, last, added]

end AnyTls

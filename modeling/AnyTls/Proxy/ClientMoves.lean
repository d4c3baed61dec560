import AnyTls.Library.Transition
import AnyTls.Proxy.Client

/-! The moves of the multiplexing client: each branch of its step function once, with what the
branch has tested and the state it leaves. The invariants of the client are proved by cases of
the move. -/
namespace AnyTls

/-- The sessions the call knows of. -/
def CreatePc.sessions : CreatePc → List SessionId
  | .popped _ entry _ | .aged _ entry _ | .dropStale _ entry _ => [entry.session]
  | .scan _ active => active.map Prod.snd
  | .capacity _ _ id active => id :: active.map Prod.snd
  | .register _ _ id | .openCheck _ _ id | .insert _ _ id | .syn _ _ id _ | .undo _ id _ _ | .giveUp _ id _ _ => [id]
  | _ => []

namespace ClientState
variable (config : ClientConfig)

/-- A `create_stream` call goes on to `next`, and nothing else changes. -/
inductive Walks (s : ClientState) (dialed : Except IoError Unit) : CreatePc → CreatePc → Prop where
  | misses {attempt} : s.pool.popLast config.minIdleSessions = none →
      Walks s dialed (.take attempt) (.snapshot attempt)
  | dead {attempt entry guarded session} : s.sessions[entry.session]? = some session → session.isTerminated = true →
      Walks s dialed (.popped attempt entry guarded) (.take attempt)
  | alive {attempt entry guarded session} : s.sessions[entry.session]? = some session → session.isTerminated = false →
      Walks s dialed (.popped attempt entry guarded) (.aged attempt entry guarded)
  | expires {attempt entry guarded} :
      (!guarded && decide (config.idleSessionTimeout ≤ s.now - entry.idleSince)) = true →
      Walks s dialed (.aged attempt entry guarded) (.dropStale attempt entry .swap)
  | reuses {attempt entry guarded} :
      (!guarded && decide (config.idleSessionTimeout ≤ s.now - entry.idleSince)) = false →
      Walks s dialed (.aged attempt entry guarded) (.openCheck attempt entry.seq entry.session)
  | lists {attempt} : Walks s dialed (.snapshot attempt) (.scan attempt s.active)
  | exhausted {attempt} : Walks s dialed (.scan attempt []) (.dial attempt)
  | passes {attempt seq id rest session} : s.sessions[id]? = some session → session.isTerminated = true →
      Walks s dialed (.scan attempt ((seq, id) :: rest)) (.scan attempt rest)
  | considers {attempt seq id rest session} : s.sessions[id]? = some session → session.isTerminated = false →
      Walks s dialed (.scan attempt ((seq, id) :: rest)) (.capacity attempt seq id rest)
  | settles {attempt seq id rest session} : s.sessions[id]? = some session →
      session.hasStreamCapacity config.maxStreamsPerSession = true →
      Walks s dialed (.capacity attempt seq id rest) (.openCheck attempt seq id)
  | full {attempt seq id rest session} : s.sessions[id]? = some session →
      session.hasStreamCapacity config.maxStreamsPerSession = false →
      Walks s dialed (.capacity attempt seq id rest) (.scan attempt rest)
  | undialed {attempt error} : dialed = .error error → Walks s dialed (.dial attempt) (.returned (.error error))
  | refused {attempt seq id session} : s.sessions[id]? = some session → session.isTerminated = true →
      Walks s dialed (.openCheck attempt seq id) (.giveUp attempt id .swap ⟨.brokenPipe, "Session closed"⟩)
  | admitted {attempt seq id session} : s.sessions[id]? = some session → session.isTerminated = false →
      Walks s dialed (.openCheck attempt seq id) (.insert attempt seq id)
  | unsent {attempt seq id sid session} : s.sessions[id]? = some session → session.writerGone = true →
      Walks s dialed (.syn attempt seq id sid) (.undo attempt id sid ⟨.brokenPipe, "Session closed"⟩)

inductive CallMove (s : ClientState) (dialed : Except IoError Unit) :
    CreatePc → CreatePc → ClientState → Prop where
  | walks {pc next} : Walks config s dialed pc next → CallMove s dialed pc next s
  | pops {attempt entry guarded rest} : s.pool.popLast config.minIdleSessions = some ((entry, guarded), rest) →
      CallMove s dialed (.take attempt) (.popped attempt entry guarded) { s with pool := rest }
  | drops {attempt entry pc after t} : s.terminateStep entry.session pc = some (some after, t) →
      CallMove s dialed (.dropStale attempt entry pc) (.dropStale attempt entry after) t
  | dropped {attempt entry pc t} : s.terminateStep entry.session pc = some (none, t) →
      CallMove s dialed (.dropStale attempt entry pc) (.take attempt) t
  | dials {attempt} : dialed = .ok () →
      CallMove s dialed (.dial attempt) (.register attempt s.seqNumber s.sessions.length) s.addSession
  | registers {attempt seq id} : CallMove s dialed (.register attempt seq id) (.openCheck attempt seq id)
        { s with active := insertKey s.active seq id }
  | inserts {attempt seq id sid session after} :
      s.sessions[id]? = some session → session.insertStream config.maxStreamsPerSession = (.ok sid, after) →
      CallMove s dialed (.insert attempt seq id) (.syn attempt seq id sid) (s.modifySession id fun _ => after)
  | crowded {attempt seq id error session after} :
      s.sessions[id]? = some session → session.insertStream config.maxStreamsPerSession = (.error error, after) →
      CallMove s dialed (.insert attempt seq id) (retry attempt error) (s.modifySession id fun _ => after)
  | fails {attempt seq id error session after} :
      s.sessions[id]? = some session → session.insertStream config.maxStreamsPerSession = (.error error, after) →
      CallMove s dialed (.insert attempt seq id) (.giveUp attempt id .swap error) (s.modifySession id fun _ => after)
  | returns {attempt seq id sid} : CallMove s dialed (.syn attempt seq id sid) (.returned (.ok (id, sid)))
        { s with idleTasks := s.idleTasks ++ [⟨seq, id, .start⟩] }
  | undoes {attempt id sid error} : CallMove s dialed (.undo attempt id sid error) (.giveUp attempt id .swap error)
        (s.modifySession id (·.removeStream sid))
  | gives {attempt id pc after error t} : s.terminateStep id pc = some (some after, t) →
      CallMove s dialed (.giveUp attempt id pc error) (.giveUp attempt id after error) t
  | gaveUp {attempt id pc error t} : s.terminateStep id pc = some (none, t) →
      CallMove s dialed (.giveUp attempt id pc error) (retry attempt error) t

inductive Move (s : ClientState) : ClientAction → ClientState → Prop where
  | creates : Move s .createStream { s with calls := s.calls ++ [.take 0] }
  | calls {i dialed pc next t} : s.calls[i]? = some pc →
      CallMove config s dialed pc next t → Move s (.advance i dialed) { t with calls := t.calls.set i next }
  | idles {i task session pc} : s.idleTasks[i]? = some task →
      s.sessions[task.session]? = some session → (pc = .returning → session.isStreamOpen = false) →
      Move s (.idle i) { s with idleTasks := s.idleTasks.set i { task with pc := pc } }
  | returns {i task} : s.idleTasks[i]? = some task → task.pc = .returning →
      Move s (.idle i) { s with
        pool := s.pool.returnSession task.seq task.session s.now
        idleTasks := s.idleTasks.set i { task with pc := .finished } }
  | ticks : Move s .cleanupTick { s with
      pool := (s.pool.cleanupStale s.now config.idleSessionTimeout config.minIdleSessions).1
      cleanup := (s.pool.cleanupStale s.now config.idleSessionTimeout config.minIdleSessions).2.map
        fun session => (session, .swap) }
  | cleans {id pc after rest t} : s.cleanup = (id, pc) :: rest → s.terminateStep id pc = some (some after, t) →
      Move s .cleanupStep { t with cleanup := (id, after) :: rest }
  | cleaned {id pc rest t} : s.cleanup = (id, pc) :: rest → s.terminateStep id pc = some (none, t) →
      Move s .cleanupStep { t with cleanup := rest }
  | removes (id sid) : Move s (.removeStream id sid) (s.modifySession id (·.removeStream sid))
  | announces (id) : Move s (.announceIdle id) (s.modifySession id ClientSession.announceIdle)
  | exits (id) : Move s (.writerExits id) (s.modifySession id fun session => { session with writerGone := true })
  | closes (id) : Move s (.close id) (s.modifySession id fun session => { session with closed := true })
  | clears (id) : Move s (.clear id) (s.modifySession id ClientSession.clearStreams)
  | forgets (seq) : Move s (.dropActive seq) { s with active := swapRemove s.active seq }
  | elapses (duration) : Move s (.elapse duration) { s with now := s.now + duration }

variable {config} {s t : ClientState} {dialed : Except IoError Unit} {pc next : CreatePc} {a : ClientAction}

theorem stepCall_move (stepped : s.stepCall config dialed pc = some (next, t)) :
    CallMove config s dialed pc next t := by
  cases pc with
  | take attempt =>
    simp only [stepCall] at stepped
    split at stepped
    · rename_i none
      cases stepped
      exact .walks (.misses none)
    · rename_i popped
      cases stepped
      exact .pops popped
  | popped attempt entry guarded =>
    obtain ⟨session, stored, same⟩ := Option.map_eq_some_iff.mp stepped
    cases terminated : session.isTerminated with
    | true =>
      rw [terminated] at same
      cases same
      exact .walks (.dead stored terminated)
    | false =>
      rw [terminated] at same
      cases same
      exact .walks (.alive stored terminated)
  | aged attempt entry guarded =>
    simp only [stepCall] at stepped
    split_ifs at stepped with stale
    · cases stepped
      exact .walks (.expires stale)
    · cases stepped
      exact .walks (.reuses (by simpa using stale))
  | dropStale attempt entry terminating =>
    obtain ⟨⟨after, u⟩, terminated, same⟩ := Option.map_eq_some_iff.mp stepped
    cases after with
    | none =>
      cases same
      exact .dropped terminated
    | some pc =>
      cases same
      exact .drops terminated
  | snapshot attempt =>
    cases stepped
    exact .walks .lists
  | scan attempt active =>
    cases active with
    | nil =>
      cases stepped
      exact .walks .exhausted
    | cons first rest =>
      obtain ⟨session, stored, same⟩ := Option.map_eq_some_iff.mp stepped
      cases terminated : session.isTerminated with
      | true =>
        rw [terminated] at same
        cases same
        exact .walks (.passes stored terminated)
      | false =>
        rw [terminated] at same
        cases same
        exact .walks (.considers stored terminated)
  | capacity attempt seq id rest =>
    obtain ⟨session, stored, same⟩ := Option.map_eq_some_iff.mp stepped
    cases room : session.hasStreamCapacity config.maxStreamsPerSession with
    | true =>
      rw [room] at same
      cases same
      exact .walks (.settles stored room)
    | false =>
      rw [room] at same
      cases same
      exact .walks (.full stored room)
  | dial attempt =>
    cases dialed with
    | error error =>
      cases stepped
      exact .walks (.undialed rfl)
    | ok _ =>
      cases stepped
      exact .dials rfl
  | register attempt seq id =>
    cases stepped
    exact .registers
  | openCheck attempt seq id =>
    obtain ⟨session, stored, same⟩ := Option.map_eq_some_iff.mp stepped
    cases terminated : session.isTerminated with
    | true =>
      rw [terminated] at same
      cases same
      exact .walks (.refused stored terminated)
    | false =>
      rw [terminated] at same
      cases same
      exact .walks (.admitted stored terminated)
  | insert attempt seq id =>
    obtain ⟨session, stored, same⟩ := Option.map_eq_some_iff.mp stepped
    split at same
    · rename_i sid after inserted
      cases same
      exact .inserts stored inserted
    · rename_i error after failed
      split_ifs at same
      · cases same
        exact .crowded stored failed
      · cases same
        exact .fails stored failed
  | syn attempt seq id sid =>
    obtain ⟨session, stored, same⟩ := Option.map_eq_some_iff.mp stepped
    split_ifs at same with gone
    · cases same
      exact .walks (.unsent stored gone)
    · cases same
      exact .returns
  | undo attempt id sid error =>
    cases stepped
    exact .undoes
  | giveUp attempt id terminating error =>
    obtain ⟨⟨after, u⟩, terminated, same⟩ := Option.map_eq_some_iff.mp stepped
    cases after with
    | none =>
      cases same
      exact .gaveUp terminated
    | some pc =>
      cases same
      exact .gives terminated
  | returned result => cases stepped

theorem step_move (stepped : s.step config a = some t) : Move config s a t := by
  cases a with
  | createStream =>
    cases stepped
    exact .creates
  | advance i dialed =>
    obtain ⟨pc, found, moved⟩ := Option.bind_eq_some_iff.mp stepped
    obtain ⟨⟨next, u⟩, called, rfl⟩ := Option.map_eq_some_iff.mp moved
    exact .calls found (stepCall_move called)
  | idle i =>
    obtain ⟨task, found, moved⟩ := Option.bind_eq_some_iff.mp stepped
    obtain ⟨session, stored, moved⟩ := Option.bind_eq_some_iff.mp moved
    obtain ⟨⟨pc, u⟩, advanced, rfl⟩ := Option.map_eq_some_iff.mp moved
    rcases stepIdle_cases advanced with ⟨rfl, seen⟩ | ⟨returning, rfl, rfl⟩
    · exact .idles found stored seen
    · exact .returns found returning
  | cleanupTick =>
    simp only [step] at stepped
    split_ifs at stepped
    cases stepped
    exact .ticks
  | cleanupStep =>
    simp only [step] at stepped
    split at stepped
    · cases stepped
    · rename_i id pc rest pending
      obtain ⟨⟨after, u⟩, terminated, rfl⟩ := Option.map_eq_some_iff.mp stepped
      cases after with
      | none => exact .cleaned pending terminated
      | some pc => exact .cleans pending terminated
  | removeStream id sid =>
    cases stepped
    exact .removes id sid
  | announceIdle id =>
    obtain ⟨current, -, moved⟩ := Option.bind_eq_some_iff.mp stepped
    split_ifs at moved
    cases moved
    exact .announces id
  | writerExits id =>
    cases stepped
    exact .exits id
  | close id =>
    cases stepped
    exact .closes id
  | clear id =>
    obtain ⟨current, -, moved⟩ := Option.bind_eq_some_iff.mp stepped
    split_ifs at moved
    cases moved
    exact .clears id
  | dropActive seq =>
    cases stepped
    exact .forgets seq
  | elapse duration =>
    cases stepped
    exact .elapses duration

end ClientState

end AnyTls

import AnyTls.Proxy.ClientMoves

/-! Whether the idle pool endangers streams in use. A session in the pool is also
an active session, so a call that found the pool empty may open a stream on it
after it has been returned; the cleanup then terminates it under that stream. In
the runs without such an opening the pool holds idle sessions only. -/
namespace AnyTls

/-- The session a call has taken out of the pool and has not yet decided on. -/
def CreatePc.candidate? : CreatePc → Option SessionId
  | .popped _ entry _ | .aged _ entry _ | .dropStale _ entry _ => some entry.session
  | _ => none

namespace ClientState

/-- The session is in the pool, on its way into it from a task that has seen it
idle, or taken out of it by a call or a cleanup that has not finished with it. -/
def AtRisk (s : ClientState) (id : SessionId) : Prop :=
  (∃ entry ∈ s.pool, entry.session = id) ∨
  (∃ task ∈ s.idleTasks, task.session = id ∧ task.pc = .returning) ∨
  (∃ pc ∈ s.calls, pc.candidate? = some id) ∨
  (∃ job ∈ s.cleanup, job.1 = id)

instance (s : ClientState) (id : SessionId) : Decidable (s.AtRisk id) := inferInstanceAs
  (Decidable ((∃ entry ∈ s.pool, entry.session = id) ∨
    (∃ task ∈ s.idleTasks, task.session = id ∧ task.pc = .returning) ∨
    (∃ pc ∈ s.calls, pc.candidate? = some id) ∨ (∃ job ∈ s.cleanup, job.1 = id)))

/-- The session on which the step of a call opens a stream. -/
def callOpens? (config : ClientConfig) (s : ClientState) : CreatePc → Option SessionId
  | .insert _ _ id => (s.sessions[id]?).bind fun session =>
    if (session.insertStream config.maxStreamsPerSession).1.isOk then some id else none
  | _ => none

def opens? (config : ClientConfig) (s : ClientState) : ClientAction → Option SessionId
  | .advance i _ => (s.calls[i]?).bind (s.callOpens? config)
  | _ => none

/-- No stream is opened on a session that is at risk. -/
def OpensApart (config : ClientConfig) (s : ClientState) (a : ClientAction) : Prop :=
  ∀ id ∈ s.opens? config a, ¬ s.AtRisk id

instance (config : ClientConfig) (s : ClientState) (a : ClientAction) :
    Decidable (s.OpensApart config a) :=
  inferInstanceAs (Decidable (∀ id ∈ s.opens? config a, ¬ s.AtRisk id))

def Quiet (s : ClientState) (id : SessionId) : Prop :=
  ∀ session, s.sessions[id]? = some session → session.isStreamOpen = false

theorem modifySession_quiet {s : ClientState} {id other f} (quiet : s.Quiet id)
    (closes : ∀ session, session.isStreamOpen = false → (f session).isStreamOpen = false) :
    (s.modifySession other f).Quiet id := by
  intro session stored
  simp only [modifySession, List.getElem?_modify] at stored
  obtain ⟨before, was, rfl⟩ := Option.map_eq_some_iff.mp stored
  split_ifs
  · exact closes before (quiet before was)
  · exact quiet before was

theorem removeStream_quiet (sid) (session : ClientSession) (quiet : session.isStreamOpen = false) :
    (session.removeStream sid).isStreamOpen = false := by
  simp only [ClientSession.isStreamOpen, Bool.not_eq_false', List.isEmpty_iff] at quiet ⊢
  simp [ClientSession.removeStream, quiet]

theorem terminateStep_spec {s t : ClientState} {id pc next}
    (stepped : s.terminateStep id pc = some (next, t)) :
    t.calls = s.calls ∧ t.cleanup = s.cleanup ∧ t.idleTasks = s.idleTasks ∧ t.pool = s.pool ∧
    ∀ other, s.Quiet other → t.Quiet other := by
  rcases terminateStep_cases stepped with ⟨-, rfl⟩ | ⟨-, -, rfl⟩ | ⟨-, rfl⟩
  · exact ⟨rfl, rfl, rfl, rfl, fun _ quiet => quiet⟩
  · exact ⟨rfl, rfl, rfl, rfl, fun _ quiet => modifySession_quiet quiet fun _ quiet => quiet⟩
  · exact ⟨rfl, rfl, rfl, rfl, fun _ quiet => modifySession_quiet quiet fun _ _ => rfl⟩

theorem insertStream_error {session after : ClientSession} {maxStreams error}
    (failed : session.insertStream maxStreams = (.error error, after)) :
    after.isStreamOpen = session.isStreamOpen := by
  simp only [ClientSession.insertStream] at failed
  split_ifs at failed <;> cases failed <;> rfl

/-- What a step of a call leaves alone, what it may take from the pool, and which
sessions stay without a stream. -/
structure CallEffect (s t : ClientState) (pc next : CreatePc) (opened : Option SessionId) : Prop where
  calls : t.calls = s.calls
  cleanup : t.cleanup = s.cleanup
  tasks : ∀ task ∈ t.idleTasks, task.pc = .returning → task ∈ s.idleTasks
  pool : ∀ entry ∈ t.pool, entry ∈ s.pool
  candidate : ∀ id, next.candidate? = some id →
    pc.candidate? = some id ∨ ∃ entry ∈ s.pool, entry.session = id
  quiet : ∀ id, opened ≠ some id → s.Quiet id → t.Quiet id

theorem callEffect_same {s pc next opened}
    (candidate : ∀ id, next.candidate? = some id → pc.candidate? = some id) :
    CallEffect s s pc next opened :=
  ⟨rfl, rfl, fun _ mem _ => mem, fun _ mem => mem, fun id held => .inl (candidate id held),
    fun _ _ quiet => quiet⟩

theorem retry_candidate (attempt error) : (retry attempt error).candidate? = none := by
  unfold retry
  split_ifs <;> rfl

theorem addSession_quiet {s : ClientState} {id} (quiet : s.Quiet id) :
    s.addSession.Quiet id := by
  intro session stored
  rcases Nat.lt_or_ge id s.sessions.length with old | new
  · exact quiet session (by rwa [addSession, List.getElem?_append_left old] at stored)
  · rw [addSession, List.getElem?_append_right new, List.getElem?_singleton] at stored
    split_ifs at stored
    cases stored
    rfl

theorem Walks.candidate {config s dialed pc next} (walking : Walks config s dialed pc next) (id)
    (held : next.candidate? = some id) :
    pc.candidate? = some id := by
  cases walking with
  | alive | expires => exact held
  | _ => cases held

/-- A call that terminates a session. -/
theorem callEffect_terminate {s t : ClientState} {id terminating after} {pc next : CreatePc} {opened}
    (terminated : s.terminateStep id terminating = some (after, t))
    (candidate : ∀ id, next.candidate? = some id → pc.candidate? = some id) : CallEffect s t pc next opened := by
  obtain ⟨calls, cleanup, tasks, pool, quiet⟩ := terminateStep_spec terminated
  exact ⟨calls, cleanup, fun _ mem _ => tasks ▸ mem, fun _ mem => pool ▸ mem, fun id held => .inl (candidate id held),
    fun id _ => quiet id⟩

/-- A refused `open_stream` leaves its session without a stream, if it had none. -/
theorem insertStream_quiet {s : ClientState} {id other} {session after : ClientSession} {maxStreams error}
    (stored : s.sessions[id]? = some session)
    (failed : session.insertStream maxStreams = (.error error, after)) (quiet : s.Quiet other) :
    (s.modifySession id fun _ => after).Quiet other := by
  intro found stored'
  simp only [modifySession, List.getElem?_modify] at stored'
  obtain ⟨before, was, rfl⟩ := Option.map_eq_some_iff.mp stored'
  split_ifs with hit
  · subst hit
    cases stored.symm.trans was
    rw [insertStream_error failed]
    exact quiet session was
  · exact quiet before was

theorem CallMove.effect {config} {s t : ClientState} {dialed pc next}
    (moves : CallMove config s dialed pc next t) : CallEffect s t pc next (s.callOpens? config pc) := by
  cases moves with
  | walks walking => exact callEffect_same walking.candidate
  | @pops _ entry _ _ popped =>
    obtain ⟨was, subset⟩ := IdleSessionPool.popLast_mem popped
    refine ⟨rfl, rfl, fun _ mem _ => mem, subset, fun id held => .inr ⟨entry, was, ?_⟩, fun _ _ quiet => quiet⟩
    simpa [CreatePc.candidate?] using held
  | drops terminated => exact callEffect_terminate terminated fun _ held => held
  | dropped terminated => exact callEffect_terminate terminated (by rintro _ ⟨⟩)
  | dials =>
    exact ⟨rfl, rfl, fun _ mem _ => mem, fun _ mem => mem, by rintro _ ⟨⟩, fun _ _ quiet => addSession_quiet quiet⟩
  | registers =>
    exact ⟨rfl, rfl, fun _ mem _ => mem, fun _ mem => mem, by rintro _ ⟨⟩, fun _ _ quiet => quiet⟩
  | @inserts _ _ id _ _ _ stored inserted =>
    refine ⟨rfl, rfl, fun _ mem _ => mem, fun _ mem => mem, by rintro _ ⟨⟩, fun other apart quiet => ?_⟩
    have elsewhere : id ≠ other := by
      rintro rfl
      exact apart (by simp [callOpens?, stored, inserted, Except.isOk, Except.toBool])
    intro found stored'
    simp only [modifySession, List.getElem?_modify_ne _ _ elsewhere] at stored'
    exact quiet found stored'
  | crowded stored failed =>
    refine ⟨rfl, rfl, fun _ mem _ => mem, fun _ mem => mem, fun other held => ?_,
      fun other _ quiet => insertStream_quiet stored failed quiet⟩
    rw [retry_candidate] at held
    cases held
  | fails stored failed =>
    exact ⟨rfl, rfl, fun _ mem _ => mem, fun _ mem => mem, by rintro _ ⟨⟩,
      fun other _ quiet => insertStream_quiet stored failed quiet⟩
  | returns =>
    refine ⟨rfl, rfl, fun task mem returning => ?_, fun _ mem => mem, by rintro _ ⟨⟩, fun _ _ quiet => quiet⟩
    rcases List.mem_append.mp mem with old | new
    · exact old
    · rw [List.mem_singleton.mp new] at returning
      cases returning
  | undoes =>
    exact ⟨rfl, rfl, fun _ mem _ => mem, fun _ mem => mem, by rintro _ ⟨⟩,
      fun _ _ quiet => modifySession_quiet quiet (removeStream_quiet _)⟩
  | gives terminated => exact callEffect_terminate terminated (by rintro _ ⟨⟩)
  | gaveUp terminated =>
    refine callEffect_terminate terminated fun id held => ?_
    rw [retry_candidate] at held
    cases held

/-- A step opens no stream on a quiet session but the one it is said to open on,
and puts at risk only sessions that were at risk or were seen quiet. -/
structure StepEffect (config : ClientConfig) (s t : ClientState) (a : ClientAction) : Prop where
  quiet : ∀ id, s.opens? config a ≠ some id → s.Quiet id → t.Quiet id
  risk : ∀ id, t.AtRisk id → s.AtRisk id ∨ (s.opens? config a = none ∧ s.Quiet id)

theorem stepEffect_session {config} {s : ClientState} {a} (id) {f}
    (closes : ∀ session, session.isStreamOpen = false → (f session).isStreamOpen = false) :
    StepEffect config s (s.modifySession id f) a :=
  ⟨fun _ _ quiet => modifySession_quiet quiet closes, fun _ risk => .inl risk⟩

theorem CallEffect.step {config s t i dialed pc next} (placed : s.calls[i]? = some pc)
    (effect : CallEffect s t pc next (s.callOpens? config pc)) :
    StepEffect config s { t with calls := t.calls.set i next } (.advance i dialed) := by
  refine ⟨fun id apart quiet => ?_, fun id risk => .inl ?_⟩
  · rw [opens?, placed, Option.bind_some] at apart
    exact effect.quiet id apart quiet
  · rcases risk with ⟨entry, mem, same⟩ | ⟨task, mem, same, returning⟩ | ⟨other, mem, held⟩ | ⟨job, mem, same⟩
    · exact .inl ⟨entry, effect.pool entry mem, same⟩
    · exact .inr (.inl ⟨task, effect.tasks task mem returning, same, returning⟩)
    · rcases List.mem_or_eq_of_mem_set mem with old | rfl
      · exact .inr (.inr (.inl ⟨other, effect.calls ▸ old, held⟩))
      · rcases effect.candidate id held with held | ⟨entry, mem, same⟩
        · exact .inr (.inr (.inl ⟨pc, List.mem_of_getElem? placed, held⟩))
        · exact .inl ⟨entry, mem, same⟩
    · exact .inr (.inr (.inr ⟨job, effect.cleanup ▸ mem, same⟩))

/-- A step of an idle-return task: the session it leaves about to be returned was seen quiet. -/
theorem stepEffect_task {config s i task pc pool} (placed : s.idleTasks[i]? = some task)
    (returned : ∀ entry ∈ pool, entry ∈ s.pool ∨ (entry.session = task.session ∧ task.pc = .returning))
    (seen : pc = .returning → s.Quiet task.session) :
    StepEffect config s { s with pool := pool, idleTasks := s.idleTasks.set i { task with pc := pc } } (.idle i) := by
  refine ⟨fun _ _ quiet => quiet, fun id risk => ?_⟩
  have here : task ∈ s.idleTasks := List.mem_of_getElem? placed
  rcases risk with ⟨entry, mem, same⟩ | ⟨other, mem, same, returning⟩ | held | job
  · rcases returned entry mem with old | ⟨fromTask, returning⟩
    · exact .inl (.inl ⟨entry, old, same⟩)
    · exact .inl (.inr (.inl ⟨task, here, fromTask.symm.trans same, returning⟩))
  · rcases List.mem_or_eq_of_mem_set mem with old | rfl
    · exact .inl (.inr (.inl ⟨other, old, same, returning⟩))
    · exact .inr ⟨rfl, same ▸ seen returning⟩
  · exact .inl (.inr (.inr (.inl held)))
  · exact .inl (.inr (.inr (.inr job)))

/-- A step of the cleanup, which leaves no job but those it found. -/
theorem stepEffect_cleanup {config} {s t : ClientState} {id pc after jobs}
    (terminated : s.terminateStep id pc = some (after, t))
    (left : ∀ job ∈ jobs, ∃ old ∈ s.cleanup, old.1 = job.1) :
    StepEffect config s { t with cleanup := jobs } .cleanupStep := by
  obtain ⟨calls, cleanup, tasks, pool, quiet⟩ := terminateStep_spec terminated
  refine ⟨fun id _ => quiet id, fun id risk => .inl ?_⟩
  rcases risk with ⟨entry, mem, same⟩ | ⟨task, mem, same, returning⟩ | ⟨call, mem, held⟩ | ⟨job, mem, same⟩
  · exact .inl ⟨entry, pool ▸ mem, same⟩
  · exact .inr (.inl ⟨task, tasks ▸ mem, same, returning⟩)
  · exact .inr (.inr (.inl ⟨call, calls ▸ mem, held⟩))
  · obtain ⟨old, pending, named⟩ := left job mem
    exact .inr (.inr (.inr ⟨old, pending, named.trans same⟩))

theorem step_effect {config s t a} (stepped : s.step config a = some t) : StepEffect config s t a := by
  cases step_move stepped with
  | creates =>
    refine ⟨fun _ _ quiet => quiet, fun id risk => .inl ?_⟩
    refine risk.imp_right fun risk => risk.imp_right fun risk => risk.imp_left ?_
    rintro ⟨pc, mem, held⟩
    rcases List.mem_append.mp mem with old | new
    · exact ⟨pc, old, held⟩
    · rw [List.mem_singleton.mp new] at held
      cases held
  | calls placed moves => exact moves.effect.step placed
  | idles placed stored seen =>
    refine stepEffect_task placed (fun _ mem => .inl mem) fun returning session stored' => ?_
    cases stored.symm.trans stored'
    exact seen returning
  | returns placed returning =>
    refine stepEffect_task placed (fun entry mem => ?_) (by rintro ⟨⟩)
    exact (IdleSessionPool.returnSession_mem mem).imp_right fun same => ⟨same, returning⟩
  | ticks =>
    obtain ⟨kept, taken⟩ := IdleSessionPool.cleanupStale_mem s.pool s.now
      config.idleSessionTimeout config.minIdleSessions
    refine ⟨fun _ _ quiet => quiet, fun id risk => .inl ?_⟩
    rcases risk with ⟨entry, mem, same⟩ | returning | held | ⟨job, mem, same⟩
    · exact .inl ⟨entry, kept entry mem, same⟩
    · exact .inr (.inl returning)
    · exact .inr (.inr (.inl held))
    · obtain ⟨session, removed, rfl⟩ := List.mem_map.mp mem
      obtain ⟨entry, mem, from_⟩ := taken session removed
      exact .inl ⟨entry, mem, from_.trans same⟩
  | @cleans id pc after rest _ pending terminated =>
    refine stepEffect_cleanup terminated fun job mem => ?_
    rw [pending]
    rcases List.mem_cons.mp mem with rfl | later
    · exact ⟨(id, pc), List.mem_cons_self, rfl⟩
    · exact ⟨job, List.mem_cons_of_mem _ later, rfl⟩
  | cleaned pending terminated =>
    refine stepEffect_cleanup terminated fun job mem => ⟨job, ?_, rfl⟩
    rw [pending]
    exact List.mem_cons_of_mem _ mem
  | removes session sid => exact stepEffect_session session (removeStream_quiet sid)
  | announces session | exits session | closes session => exact stepEffect_session session fun _ quiet => quiet
  | clears session => exact stepEffect_session session fun _ _ => rfl
  | forgets | elapses => exact ⟨fun _ _ quiet => quiet, fun _ risk => .inl risk⟩

/-- Every session at risk is without a stream. -/
def PoolIdle (s : ClientState) : Prop := ∀ id, s.AtRisk id → s.Quiet id

theorem poolIdle_step {config} {s t : ClientState} {a} (idle : s.PoolIdle) (apart : s.OpensApart config a)
    (stepped : s.step config a = some t) :
    t.PoolIdle := by
  intro id risk
  have effect := step_effect stepped
  rcases effect.risk id risk with before | ⟨none, quiet⟩
  · exact effect.quiet id (fun opened => apart id opened before) (idle id before)
  · exact effect.quiet id (by simp [none]) quiet

theorem poolIdle_new : ClientState.new.PoolIdle := by
  rintro id (⟨_, mem, -⟩ | ⟨_, mem, -⟩ | ⟨_, mem, -⟩ | ⟨_, mem, -⟩) <;> cases mem

/-- A stale-drop of `take_reusable` or a cleanup is terminating the session. -/
def Discarding (s : ClientState) (id : SessionId) : Prop :=
  (∃ attempt entry pc, .dropStale attempt entry pc ∈ s.calls ∧ entry.session = id) ∨
    ∃ job ∈ s.cleanup, job.1 = id

end ClientState

open ClientState in
/-- In every run that opens no stream on a session which is in the pool, on its
way into it, or taken out of it and not yet decided on, no session of the pool
has an open stream, and none that the pool terminates as stale has one. -/
theorem pool_spares_open_streams (config : ClientConfig) (actions : List ClientAction)
    {s : ClientState}
    (apart : Transition.Along (ClientState.step config) (OpensApart config) ClientState.new actions)
    (path : Transition.run (ClientState.step config) ClientState.new actions = some s) :
    (∀ entry ∈ s.pool, ∀ session, s.sessions[entry.session]? = some session →
      session.isStreamOpen = false) ∧
    ∀ id, s.Discarding id → ∀ session, s.sessions[id]? = some session →
      session.isStreamOpen = false := by
  have idle : s.PoolIdle := Transition.invariant_along poolIdle_step poolIdle_new apart path
  refine ⟨fun entry mem => idle entry.session (.inl ⟨entry, mem, rfl⟩), fun id discarding => idle id ?_⟩
  rcases discarding with ⟨attempt, entry, pc, mem, same⟩ | job
  · exact .inr (.inr (.inl ⟨_, mem, congrArg some same⟩))
  · exact .inr (.inr (.inr job))

/-- A stream is created, on a new session, and closed; its task returns the
session to the pool. -/
def createAndClose : List ClientAction :=
  ClientAction.createStream :: List.replicate 8 (ClientAction.advance 0 (.ok ())) ++
    [ClientAction.removeStream 0 1, .idle 0, .idle 0, .idle 0]

theorem createAndClose_spares :
    ∃ s, Transition.run (ClientState.step ⟨30, 0, 5⟩) ClientState.new createAndClose = some s ∧
      s.pool = [⟨0, 0, 0⟩] ∧ ∀ session, s.sessions[0]? = some session → session.isStreamOpen = false :=
  ⟨_, rfl, rfl, (pool_spares_open_streams ⟨30, 0, 5⟩ createAndClose (by decide) rfl).1 ⟨0, 0, 0⟩
    (by decide)⟩

/-- A second call finds the pool empty and settles on the active session before
the first stream is closed; it opens its stream when the session is back in the
pool. -/
def reopenPooled : List ClientAction :=
  ClientAction.createStream :: List.replicate 8 (ClientAction.advance 0 (.ok ())) ++
    ClientAction.createStream :: List.replicate 4 (ClientAction.advance 1 (.ok ())) ++
    [ClientAction.removeStream 0 1, .idle 0, .idle 0, .idle 0] ++ List.replicate 3 (ClientAction.advance 1 (.ok ()))

theorem pooled_session_terminated_in_use :
    (∃ s session, Transition.run (ClientState.step ⟨30, 0, 5⟩) ClientState.new reopenPooled = some s ∧
      s.pool = [⟨0, 0, 0⟩] ∧ s.calls[1]? = some (.returned (.ok (0, 2))) ∧
      s.sessions[0]? = some session ∧ session.isStreamOpen = true) ∧
    ∃ s session, Transition.run (ClientState.step ⟨30, 0, 5⟩) ClientState.new
        (reopenPooled ++ [.elapse 30, .cleanupTick, .cleanupStep]) = some s ∧
      s.sessions[0]? = some session ∧ session.closed = true ∧ session.streams = [2] :=
  ⟨⟨_, _, rfl, rfl, rfl, rfl, rfl⟩, ⟨_, _, rfl, rfl, rfl, rfl⟩⟩

end AnyTls

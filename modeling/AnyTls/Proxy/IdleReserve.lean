import AnyTls.Library.ListUpdate
import AnyTls.Proxy.SessionKeys

/-! A call of `cleanup_stale`, its termination of the removed sessions included. What it removes
and what it keeps is settled by the ages of the entries alone: a session whose connection has
ended while it was idle stays in the pool and counts towards the reserve like a usable one. -/
namespace AnyTls

namespace ClientSession

/-- What `Session::terminate` makes of a session. -/
def terminate (session : ClientSession) : ClientSession :=
  if session.closed then session else { session with closed := true }.clearStreams

theorem terminate_closed (session : ClientSession) : session.terminate.closed = true := by
  unfold terminate
  split_ifs with closed
  · exact closed
  · rfl

theorem terminate_isTerminated (session : ClientSession) : session.terminate.isTerminated = true := by
  rw [isTerminated, terminate_closed, Bool.true_or]

theorem terminate_terminate (session : ClientSession) : session.terminate.terminate = session.terminate := by
  rw [terminate, if_pos session.terminate_closed]

end ClientSession

/-- The sessions when some of them have been terminated, one after the other. -/
def terminateAll (sessions : List ClientSession) (ids : List SessionId) : List ClientSession :=
  ids.foldl (fun sessions id => sessions.modify id ClientSession.terminate) sessions

theorem terminateAll_getElem? (sessions : List ClientSession) (ids : List SessionId) (id : SessionId) :
    (terminateAll sessions ids)[id]? =
      (sessions[id]?).map fun session => if id ∈ ids then session.terminate else session := by
  induction ids generalizing sessions with
  | nil => simp [terminateAll]
  | cons first rest ih =>
    rw [terminateAll, List.foldl_cons, ← terminateAll, ih, List.getElem?_modify, Option.map_eq_map, Option.map_map]
    congr 1
    funext session
    rw [Function.comp_apply]
    by_cases here : first = id
    · subst here
      simp [ClientSession.terminate_terminate]
    · simp [here, Ne.symm here]

namespace ClientState
variable {config : ClientConfig} {s t : ClientState}

/-- `terminate` of one session, when nobody comes between its steps. -/
theorem terminate_alone {id} (known : id < s.sessions.length) :
    s.terminateStep id .swap = some (none, s.modifySession id ClientSession.terminate) ∨
    ∃ closed : ClientSession → ClientSession,
      s.terminateStep id .swap = some (some .clear, s.modifySession id closed) ∧
      (s.modifySession id closed).modifySession id ClientSession.clearStreams =
        s.modifySession id ClientSession.terminate := by
  have stored := List.getElem?_eq_getElem known
  by_cases closed : s.sessions[id].closed = true
  · have same : s.sessions.modify id ClientSession.terminate = s.sessions := by
      have kept : ClientSession.terminate s.sessions[id] = s.sessions[id] := if_pos closed
      exact (ListUpdate.modify_congr (g := fun session => session) stored kept).trans (List.modify_id ..)
    refine .inl ?_
    rw [terminateStep, stored, Option.map_some, if_pos closed, modifySession, same]
  · refine .inr ⟨fun session => { session with closed := true }, ?_, ?_⟩
    · rw [terminateStep, stored, Option.map_some, if_neg closed]
    · rw [modifySession, modifySession, List.modify_modify_eq]
      have both : (ClientSession.clearStreams ∘ fun session => { session with closed := true }) s.sessions[id] =
          ClientSession.terminate s.sessions[id] := (if_neg closed).symm
      rw [ListUpdate.modify_congr stored both, modifySession]

/-- One session that `cleanup_stale` has to terminate. -/
theorem cleanup_first (config) {id rest} (known : id < s.sessions.length)
    (pending : s.cleanup = (id, .swap) :: rest) :
    ∃ n, Transition.run (ClientState.step config) s (List.replicate n .cleanupStep) =
      some { s.modifySession id ClientSession.terminate with cleanup := rest } := by
  rcases terminate_alone known with once | ⟨closed, first, second⟩
  · refine ⟨1, Transition.run_cons_some.mpr ⟨_, ?_, rfl⟩⟩
    simp only [step, pending, once, Option.map_some]
  · refine ⟨2, Transition.run_cons_some.mpr
      ⟨{ s.modifySession id closed with cleanup := (id, .clear) :: rest }, ?_, ?_⟩⟩
    · simp only [step, pending, first, Option.map_some]
    · rw [← second]
      rfl

/-- The end of `cleanup_stale`, when nobody comes between its steps. -/
theorem cleanup_alone (config) {ids} (known : ∀ id ∈ ids, id < s.sessions.length)
    (pending : s.cleanup = ids.map fun id => (id, .swap)) :
    ∃ n, Transition.run (ClientState.step config) s (List.replicate n .cleanupStep) =
      some { s with sessions := terminateAll s.sessions ids, cleanup := [] } := by
  induction ids generalizing s with
  | nil =>
    rw [List.map_nil] at pending
    exact ⟨0, congrArg some (by rw [← pending]; rfl)⟩
  | cons id rest ih =>
    obtain ⟨first, path⟩ := cleanup_first config (known id List.mem_cons_self) pending
    have later : ∀ other ∈ rest, other < (s.sessions.modify id ClientSession.terminate).length := by
      intro other member
      rw [List.length_modify]
      exact known other (List.mem_cons_of_mem _ member)
    obtain ⟨second, finished⟩ := ih (s := { s.modifySession id ClientSession.terminate with
      cleanup := rest.map fun id => (id, .swap) }) later rfl
    refine ⟨first + second, ?_⟩
    rw [← List.replicate_append_replicate]
    exact Transition.run_append_some.mpr ⟨_, path, finished⟩

/-- A whole call of `cleanup_stale`, when nobody comes between its steps. -/
theorem cleanupStale_alone (config) (free : s.cleanup = [])
    (known : ∀ entry ∈ s.pool, entry.session < s.sessions.length) :
    ∃ n, Transition.run (ClientState.step config) s (.cleanupTick :: List.replicate n .cleanupStep) = some { s with
      pool := (s.pool.cleanupStale s.now config.idleSessionTimeout config.minIdleSessions).1
      sessions := terminateAll s.sessions
        (s.pool.cleanupStale s.now config.idleSessionTimeout config.minIdleSessions).2 } := by
  obtain ⟨-, taken⟩ := IdleSessionPool.cleanupStale_mem s.pool s.now config.idleSessionTimeout config.minIdleSessions
  have listed : ∀ id ∈ (s.pool.cleanupStale s.now config.idleSessionTimeout config.minIdleSessions).2,
      id < s.sessions.length := by
    intro id member
    obtain ⟨entry, stored, rfl⟩ := taken id member
    exact known entry stored
  obtain ⟨n, finished⟩ := cleanup_alone config (s := { s with
    pool := (s.pool.cleanupStale s.now config.idleSessionTimeout config.minIdleSessions).1
    cleanup := (s.pool.cleanupStale s.now config.idleSessionTimeout config.minIdleSessions).2.map fun id => (id, .swap) })
    listed rfl
  refine ⟨n, Transition.run_cons_some.mpr ⟨_, ?_, finished.trans (by rw [free])⟩⟩
  simp only [step, free, List.isEmpty_nil, if_true]

/-- The sessions that no removed entry names. -/
theorem cleanupStale_untouched (s : ClientState) (config : ClientConfig) (id : SessionId)
    (apart : ∀ entry ∈ s.pool.removable s.now config.idleSessionTimeout config.minIdleSessions, entry.session ≠ id) :
    (terminateAll s.sessions
      (s.pool.cleanupStale s.now config.idleSessionTimeout config.minIdleSessions).2)[id]? = s.sessions[id]? := by
  have kept : id ∉ (s.pool.cleanupStale s.now config.idleSessionTimeout config.minIdleSessions).2 := by
    rw [(IdleSessionPool.cleanupStale_exact ..).1]
    intro member
    obtain ⟨entry, listed, same⟩ := List.mem_map.mp member
    exact apart entry (List.mem_reverse.mp listed) same
  simp only [terminateAll_getElem?, kept, if_false, Option.map_id']

/-- Where the pool lists a session once, no removed entry names the session of one that stays. -/
theorem cleanupStale_apart {pool : IdleSessionPool} {now timeout minIdle}
    (once : (pool.map (·.session)).Nodup) {entry other : IdleEntry}
    (removed : other ∈ pool.removable now timeout minIdle)
    (kept : entry ∈ (pool.cleanupStale now timeout minIdle).1) : other.session ≠ entry.session := by
  have perm := (IdleSessionPool.cleanupStale_exact pool now timeout minIdle).2
  have distinct := (perm.map IdleEntry.session).nodup_iff.mpr once
  rw [List.map_append] at distinct
  exact (List.nodup_append.mp distinct).2.2 _ (List.mem_map_of_mem removed) _ (List.mem_map_of_mem kept)

/-- A call of `cleanup_stale` removes the first of the entries that are idle for at least the
timeout, as many as there are above the reserve, and terminates their sessions. The others stay
as they are, and a session that no removed entry names is not touched; where the pool lists a
session once, these are the sessions of the entries that stay. -/
theorem cleanupStale_removes (config : ClientConfig) (s : ClientState) (free : s.cleanup = [])
    (known : ∀ entry ∈ s.pool, entry.session < s.sessions.length) (distinct : (s.pool.map (·.seq)).Nodup) :
    ∃ n t removed, Transition.run (ClientState.step config) s (.cleanupTick :: List.replicate n .cleanupStep) = some t ∧
      t.cleanup = [] ∧
      removed = ((s.pool.filter fun entry => decide (config.idleSessionTimeout ≤ s.now - entry.idleSince)).take
        (min (s.pool.length - config.minIdleSessions)
          (s.pool.filter fun entry => decide (config.idleSessionTimeout ≤ s.now - entry.idleSince)).length)) ∧
      (∀ entry, entry ∈ t.pool ↔ entry ∈ s.pool ∧ entry ∉ removed) ∧
      (removed ++ t.pool).Perm s.pool ∧
      (∀ entry ∈ removed, (t.sessions[entry.session]?).any (·.isTerminated) = true) ∧
      (∀ id, (∀ entry ∈ removed, entry.session ≠ id) → t.sessions[id]? = s.sessions[id]?) ∧
      ((s.pool.map (·.session)).Nodup → ∀ entry ∈ t.pool, t.sessions[entry.session]? = s.sessions[entry.session]?) ∧
      (∀ entry ∈ removed, config.idleSessionTimeout ≤ s.now - entry.idleSince) ∧
      min s.pool.length config.minIdleSessions ≤ t.pool.length := by
  obtain ⟨n, path⟩ := cleanupStale_alone config free known
  obtain ⟨sessions, perm⟩ :=
    IdleSessionPool.cleanupStale_exact s.pool s.now config.idleSessionTimeout config.minIdleSessions
  have untouched := cleanupStale_untouched s config
  refine ⟨n, _, s.pool.removable s.now config.idleSessionTimeout config.minIdleSessions, path, free, rfl,
    IdleSessionPool.cleanupStale_kept (.of_map _ distinct), perm, ?_, untouched, ?_,
    fun entry member => IdleSessionPool.removable_stale member, ?_⟩
  · intro entry member
    have place := known entry (IdleSessionPool.removable_sublist.subset member)
    have gone : entry.session ∈
        (s.pool.cleanupStale s.now config.idleSessionTimeout config.minIdleSessions).2 := by
      rw [sessions]
      exact List.mem_map_of_mem (List.mem_reverse.mpr member)
    simp only [terminateAll_getElem?, List.getElem?_eq_getElem place, Option.map_some, gone, if_true, Option.any_some]
    exact ClientSession.terminate_isTerminated _
  · intro once entry member
    exact untouched entry.session fun other removed => cleanupStale_apart once removed member
  · have total := perm.length_eq
    rw [List.length_append, IdleSessionPool.removable_length] at total
    simp only
    omega

/-- Three idle sessions with a reserve of one: the first two are stale, the last is not. -/
def threeIdle : ClientState :=
  ⟨List.replicate 3 ClientSession.new, [], [⟨0, 0, 0⟩, ⟨1, 1, 5⟩, ⟨2, 2, 90⟩], 3, [], [], [], 100⟩

theorem cleanupStale_threeIdle :
    ∃ n t, Transition.run (ClientState.step ⟨30, 1, 5⟩) threeIdle (.cleanupTick :: List.replicate n .cleanupStep) = some t ∧
      t.cleanup = [] ∧ (∀ entry, entry ∈ t.pool ↔ entry ∈ threeIdle.pool ∧ entry ∉ [⟨0, 0, 0⟩, ⟨1, 1, 5⟩]) ∧
      t.sessions[2]? = some ClientSession.new := by
  obtain ⟨n, t, removed, path, free, exact_, kept, -, -, untouched, -⟩ :=
    cleanupStale_removes ⟨30, 1, 5⟩ threeIdle rfl (by decide) (by decide)
  subst exact_
  exact ⟨n, t, path, free, kept, untouched 2 (by decide)⟩

/-! ### The usable sessions of the pool -/

/-- The entry's session is not terminated. -/
def usable (s : ClientState) (entry : IdleEntry) : Bool := (s.sessions[entry.session]?).any fun session => !session.isTerminated

/-- The number of pooled sessions that are not terminated. -/
def usableIdle (s : ClientState) : Nat := s.pool.countP s.usable

/-- Of the entries that a call of `cleanup_stale` would remove, no more are usable than there are above the reserve. -/
def sparesReserve (config : ClientConfig) (s : ClientState) : Bool :=
  decide ((s.pool.removable s.now config.idleSessionTimeout config.minIdleSessions).countP s.usable ≤
    s.usableIdle - config.minIdleSessions)

/-- A call of `cleanup_stale` takes the usable ones among the entries it removes from the usable sessions of the pool. -/
theorem usableIdle_cleaned (config : ClientConfig) (once : (s.pool.map (·.session)).Nodup) :
    (s.pool.removable s.now config.idleSessionTimeout config.minIdleSessions).countP s.usable +
      usableIdle { s with
        pool := (s.pool.cleanupStale s.now config.idleSessionTimeout config.minIdleSessions).1
        sessions := terminateAll s.sessions
          (s.pool.cleanupStale s.now config.idleSessionTimeout config.minIdleSessions).2 } = s.usableIdle := by
  obtain ⟨-, perm⟩ :=
    IdleSessionPool.cleanupStale_exact s.pool s.now config.idleSessionTimeout config.minIdleSessions
  rw [usableIdle, usableIdle, ← perm.countP_eq, List.countP_append]
  refine congrArg _ (List.countP_congr fun entry kept => ?_)
  have same := cleanupStale_untouched s config _ fun other removed => cleanupStale_apart once removed kept
  simp only [usable, same]

/-- In every run: a call of `cleanup_stale` leaves in the pool as many sessions that are not terminated as there were,
or the reserve, exactly if the entries it removes have no more usable sessions than there are above the reserve. -/
theorem cleanupStale_leaves_reserve (config : ClientConfig) {actions : List ClientAction} {s : ClientState}
    (path : Transition.run (ClientState.step config) ClientState.new actions = some s) (free : s.cleanup = []) :
    ∃ n t, Transition.run (ClientState.step config) s (.cleanupTick :: List.replicate n .cleanupStep) = some t ∧
      t.cleanup = [] ∧ (min s.usableIdle config.minIdleSessions ≤ t.usableIdle ↔ s.sparesReserve config = true) := by
  have keyed : s.Keyed := Transition.invariant keyed_step keyed_new path
  obtain ⟨n, called⟩ := cleanupStale_alone config free fun entry member => (keyed.pool entry member).1
  refine ⟨n, _, called, free, ?_⟩
  have balance := usableIdle_cleaned config keyed.sessions_nodup
  rw [sparesReserve, decide_eq_true_eq]
  omega

/-- Two sessions of one stream each, whose streams are closed half a minute apart. -/
def twoReturned : List ClientAction :=
  List.flatten [[.createStream], List.replicate 8 (.advance 0 (.ok ())), [.createStream],
    List.replicate 10 (.advance 1 (.ok ())), [.removeStream 0 1, .idle 0, .idle 0, .idle 0, .elapse 30],
    [.removeStream 1 1, .idle 1, .idle 1, .idle 1]]

theorem twoReturned_leaves_one :
    ∃ s n t, Transition.run (ClientState.step ⟨30, 1, 1⟩) ClientState.new twoReturned = some s ∧ s.usableIdle = 2 ∧
      Transition.run (ClientState.step ⟨30, 1, 1⟩) s (.cleanupTick :: List.replicate n .cleanupStep) = some t ∧
      1 ≤ t.usableIdle := by
  obtain ⟨s, path, free, spares, count⟩ : ∃ s, Transition.run (ClientState.step ⟨30, 1, 1⟩) ClientState.new twoReturned =
      some s ∧ s.cleanup = [] ∧ s.sparesReserve ⟨30, 1, 1⟩ = true ∧ s.usableIdle = 2 :=
    ⟨_, rfl, rfl, by decide, rfl⟩
  obtain ⟨n, t, called, -, reserve⟩ := cleanupStale_leaves_reserve ⟨30, 1, 1⟩ path free
  refine ⟨s, n, t, path, count, called, ?_⟩
  rw [count] at reserve
  exact reserve.mpr spares

/-- The connection of the fresh session ends. It stays in the pool as the reserve, and the cleanup
removes the session that could be used. -/
theorem dead_session_is_reserve :
    ∃ s t, Transition.run (ClientState.step ⟨30, 1, 1⟩) ClientState.new
        (twoReturned ++ [.close 1, .clear 1, .dropActive 1]) = some s ∧ s.usableIdle = 1 ∧
      Transition.run (ClientState.step ⟨30, 1, 1⟩) s [.cleanupTick, .cleanupStep, .cleanupStep] = some t ∧
      t.cleanup = [] ∧ t.pool = [⟨1, 1, 30⟩] ∧ t.usableIdle = 0 :=
  ⟨_, _, rfl, rfl, rfl, rfl, rfl, rfl⟩

end ClientState

end AnyTls

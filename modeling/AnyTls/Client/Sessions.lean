import AnyTls.Client.LifecycleSteps

/-! The sessions of a client through its runs. A session that another call can find has been
started and spawned; before that only the call that makes it acts on it. So each session starts
once, with the scheme of the client's cell, before any other step of it. -/
namespace AnyTls

variable {md5 : Bytes → String} {iterate : StringMap.Order}

/-- Where each session the client knows of comes from. -/
structure Client.Holding (P : SessionId → Prop) (c : Client) : Prop where
  active : ∀ entry ∈ c.active, P entry.2
  pool : ∀ entry ∈ c.pool, P entry.session
  idle : ∀ task ∈ c.idleTasks, P task.session
  cleanup : ∀ job ∈ c.cleanup, P job.1
  closing : ∀ id ∈ c.closing.sessions, P id
  calls : ∀ pc ∈ c.calls, ∀ id ∈ pc.refs, P id

namespace Connection
variable {c : Client} {a : LifecycleAction} {id : SessionId} {conn after : Connection} {padding : PaddingFactory}

/-- What a step of the client does to one of its sessions. -/
inductive Change (md5 : Bytes → String) (iterate : StringMap.Order)
    (c : Client) (a : LifecycleAction) (id : SessionId) (conn : Connection) : Connection → Prop where
  | same : Change md5 iterate c a id conn conn
  | steps {session} (action) : conn.session.step md5 action = some session → conn.started = true ∨
        (action.managed = false ∧ (action.receives = true → ∃ seq, conn.task = .receiving seq)) →
      Change md5 iterate c a id conn { conn with session := session }
  | starts {result after} : conn.ensureStarted iterate = some (result, after) → Change md5 iterate c a id conn after
  | spawns {i dialed attempt seq} : a = .advance i dialed →
      c.calls[i]? = some (.register attempt seq id) → conn.started = true →
      Change md5 iterate c a id conn { conn with task := .starting seq }
  | runs {seq after} : conn.task = .starting seq → conn.ensureStarted iterate = some (.ok (), after) →
      Change md5 iterate c a id conn { after with task := .receiving seq }
  | runFails {seq error after} : conn.task = .starting seq → conn.ensureStarted iterate = some (.error error, after) →
      Change md5 iterate c a id conn { after with task := .gone }
  | ends {seq} : conn.task = .receiving seq → conn.session.recv = .ended →
      Change md5 iterate c a id conn { conn with task := .gone }

/-- Made of the scheme `padding`, and since its start only taking steps of a session. -/
inductive Lived (md5 : Bytes → String) (iterate : StringMap.Order)
    (padding : PaddingFactory) (conn : Connection) : Prop where
  | made : conn.started = false → conn.task = .unspawned → conn.session = Session.new true padding →
      Lived md5 iterate padding conn
  | running (actions) : conn.started = true →
      Transition.run (Session.step md5) ((Session.new true padding).ensureStarted iterate) actions =
        some conn.session → Lived md5 iterate padding conn

theorem ensureStarted_started (started : conn.started = true) :
    conn.ensureStarted iterate = some (.ok (), conn) := by
  simp [ensureStarted, started]

theorem ensureStarted_made (unstarted : conn.started = false)
    (new : conn.session = Session.new true padding) : conn.ensureStarted iterate = some (.ok (),
      { conn with session := (Session.new true padding).ensureStarted iterate, started := true }) := by
  rw [ensureStarted, unstarted, new]
  rfl

theorem Lived.ensureStarted {result} (lived : conn.Lived md5 iterate padding)
    (ensured : conn.ensureStarted iterate = some (result, after)) :
    result = .ok () ∧ after.Lived md5 iterate padding ∧ after.started = true ∧ after.task = conn.task := by
  cases lived with
  | made unstarted task new =>
    rw [ensureStarted_made unstarted new] at ensured
    cases ensured
    exact ⟨rfl, .running [] rfl rfl, rfl, rfl⟩
  | running actions started path =>
    rw [ensureStarted_started started] at ensured
    cases ensured
    exact ⟨rfl, .running actions started path, started, rfl⟩

/-- Before its start, a session takes no step on its own. -/
theorem new_waits {action} (managed : action.managed = false) (receives : action.receives = false) :
    (Session.new true padding).step md5 action = none := by
  cases action with
  | openStream | openStep | terminate => cases managed
  | receive | disconnect | recvStep => cases receives
  | _ => rfl

theorem Lived.change (lived : conn.Lived md5 iterate padding) (change : conn.Change md5 iterate c a id after) :
    after.Lived md5 iterate padding := by
  cases change with
  | same => exact lived
  | steps action stepped free =>
    cases lived with
    | made unstarted task new =>
      obtain started | ⟨unmanaged, receives⟩ := free
      · cases unstarted.symm.trans started
      · have quiet : action.receives = false := by
          rw [← Bool.not_eq_true]
          intro receiving
          obtain ⟨seq, running⟩ := receives receiving
          cases task.symm.trans running
        rw [new, new_waits unmanaged quiet] at stepped
        cases stepped
    | running actions started path =>
      exact .running (actions ++ [action]) started
        (Transition.run_append_some.mpr ⟨_, path, by simp [Transition.run, stepped]⟩)
  | starts ensured => exact (lived.ensureStarted ensured).2.1
  | spawns _ registers started =>
    cases lived with
    | made unstarted => cases unstarted.symm.trans started
    | running actions started path => exact .running actions started path
  | runs starting ensured =>
    obtain ⟨-, again, started, -⟩ := lived.ensureStarted ensured
    cases again with
    | made unstarted => cases unstarted.symm.trans started
    | running actions started path => exact .running actions started path
  | runFails starting ensured => cases (lived.ensureStarted ensured).1
  | ends receiving ended =>
    cases lived with
    | made unstarted task => cases task.symm.trans receiving
    | running actions started path => exact .running actions started path

theorem Change.started (change : conn.Change md5 iterate c a id after) (lived : conn.Lived md5 iterate padding)
    (started : conn.started = true) : after.started = true := by
  cases change with
  | same | steps | spawns | ends => exact started
  | starts ensured => exact (lived.ensureStarted ensured).2.2.1
  | runs starting ensured => exact (lived.ensureStarted ensured).2.2.1
  | runFails starting ensured => cases (lived.ensureStarted ensured).1

theorem Change.spawned (change : conn.Change md5 iterate c a id after) (lived : conn.Lived md5 iterate padding)
    (spawned : conn.task ≠ .unspawned) : after.task ≠ .unspawned := by
  cases change with
  | same | steps => exact spawned
  | starts ensured => exact (lived.ensureStarted ensured).2.2.2 ▸ spawned
  | spawns | runs | runFails | ends => simp

end Connection

namespace Client
variable {setup : ClientSetup} {c t : Client} {padding : PaddingFactory} {P : SessionId → Prop}
  {a : LifecycleAction} {id : SessionId}

/-- `id` is a session of the client that has been spawned. -/
def Spawned (c : Client) (id : SessionId) : Prop :=
  ∃ conn, c.sessions[id]? = some conn ∧ conn.task ≠ .unspawned

structure Sound (md5 : Bytes → String) (iterate : StringMap.Order)
    (padding : PaddingFactory) (c : Client) : Prop where
  cell : c.padding = padding
  lived : ∀ {id : SessionId} {conn : Connection}, c.sessions[id]? = some conn → conn.Lived md5 iterate padding
  used : c.Holding c.Spawned
  owned : ∀ {pc : CallPc} {id : SessionId}, pc ∈ c.calls → pc.owned = some id → ∃ conn, c.sessions[id]? = some conn ∧
    ((∀ attempt, pc ≠ .start attempt id) → conn.started = true)

theorem sound_new : (Client.new padding).Sound md5 iterate padding where
  cell := rfl
  lived stored := by simp [new] at stored
  used := ⟨by simp [new], by simp [new], by simp [new], by simp [new], by simp [new, ClientClosePc.sessions],
    by simp [new]⟩
  owned := by simp [new]

theorem Sound.spawned_started (sound : c.Sound md5 iterate padding) {conn}
    (stored : c.sessions[id]? = some conn) (spawned : c.Spawned id) : conn.started = true := by
  obtain ⟨same, found, task⟩ := spawned
  cases stored.symm.trans found
  cases sound.lived stored with
  | made unstarted unspawned => exact absurd unspawned task
  | running actions started path => exact started

theorem setConnection_get {conn after} (stored : c.sessions[id]? = some conn) (other) :
    (c.setConnection id after).sessions[other]? = if id = other then some after else c.sessions[other]? := by
  have within := (List.getElem?_eq_some_iff.mp stored).1
  simp only [setConnection, List.getElem?_set, within, if_true]

/-! ### Sessions found -/

theorem Holding.imp {Q} (holding : c.Holding P) (weaker : ∀ id, P id → Q id) :
    c.Holding Q where
  active entry member := weaker _ (holding.active entry member)
  pool entry member := weaker _ (holding.pool entry member)
  idle task member := weaker _ (holding.idle task member)
  cleanup job member := weaker _ (holding.cleanup job member)
  closing id member := weaker _ (holding.closing id member)
  calls pc member id found := weaker _ (holding.calls pc member id found)

theorem Holding.called {i : Nat} {pc : CallPc} (holding : c.Holding P) (placed : c.calls[i]? = some pc)
    (found : id ∈ pc.refs) : P id :=
  holding.calls pc (List.mem_of_getElem? placed) id found

/-- The call `i` moves to `next`. -/
theorem Holding.moved {i next} (holding : c.Holding P) (found : ∀ id ∈ next.refs, P id) :
    ∀ pc ∈ c.calls.set i next, ∀ id ∈ pc.refs, P id := by
  intro pc member
  rcases List.mem_or_eq_of_mem_set member with old | rfl
  · exact holding.calls pc old
  · exact found

theorem CallMove.holding {i : Nat} {pc next : CallPc} (moves : CallMove md5 iterate setup c pc next t)
    (placed : c.calls[i]? = some pc) (holding : c.Holding P)
    (spawns : ∀ attempt seq id, pc = .register attempt seq id → P id) :
    Holding P { t with calls := t.calls.set i next } := by
  cases moves with
  | walks before after found =>
    refine { holding with calls := holding.moved fun id member => ?_ }
    rcases found id member with old | ⟨entry, listed, rfl⟩
    · exact holding.called placed old
    · exact holding.active entry listed
  | pops popped =>
    obtain ⟨taken, kept⟩ := IdleSessionPool.popLast_mem popped
    refine { holding with
      pool := fun entry member => holding.pool entry (kept entry member)
      calls := holding.moved fun id member => ?_ }
    rw [List.mem_singleton.mp member]
    exact holding.pool _ taken
  | acts action before after known found =>
    exact { holding with calls := holding.moved fun id member => holding.called placed (found id member) }
  | asks | opens =>
    exact { holding with calls := holding.moved fun id member => holding.called placed member }
  | dials | makes | starts | startFails | admits | rejects | abandons | abandoned | numbers =>
    exact { holding with calls := holding.moved fun id member => by cases member }
  | registers stored =>
    refine { holding with
      active := fun entry member => ?_
      calls := holding.moved fun id member => ?_ }
    · rcases insertKey_mem member with old | rfl
      · exact holding.active entry old
      · exact spawns _ _ _ rfl
    · rw [List.mem_singleton.mp member]
      exact spawns _ _ _ rfl
  | opened stored returned =>
    refine { holding with
      idle := fun task member => ?_
      calls := holding.moved fun id member => by cases member }
    rcases List.mem_append.mp member with old | new
    · exact holding.idle task old
    · rw [List.mem_singleton.mp new]
      exact holding.called placed List.mem_cons_self

theorem Move.holding (moves : Move md5 iterate setup c a t) (holding : c.Holding P)
    (spawns : ∀ i dialed attempt seq id, a = .advance i dialed →
      c.calls[i]? = some (.register attempt seq id) → P id) : t.Holding P := by
  cases moves with
  | creates =>
    refine { holding with calls := fun pc member id found => ?_ }
    rcases List.mem_append.mp member with old | new
    · exact holding.calls pc old id found
    · rw [List.mem_singleton.mp new] at found
      cases found
  | call placed moves =>
    exact moves.holding placed holding fun attempt seq id same => spawns _ _ attempt seq id rfl (same ▸ placed)
  | runs | session | elapses | closedBefore => exact { holding with }
  | closes | awaits | closeReturns => exact { holding with closing := fun id member => by cases member }
  | runFails | runEnds =>
    exact { holding with active := fun entry member => holding.active entry (swapRemove_mem member) }
  | idles pc placed =>
    have known := holding.idle _ (List.mem_of_getElem? placed)
    refine { holding with idle := fun task member => ?_ }
    rcases List.mem_or_eq_of_mem_set member with old | rfl
    · exact holding.idle task old
    · exact known
  | returns placed =>
    have known := holding.idle _ (List.mem_of_getElem? placed)
    refine { holding with
      pool := fun entry member => ?_
      idle := fun task member => ?_ }
    · rcases IdleSessionPool.returnSession_mem member with old | same
      · exact holding.pool entry old
      · exact same ▸ known
    · rcases List.mem_or_eq_of_mem_set member with old | rfl
      · exact holding.idle task old
      · exact known
  | cleans =>
    obtain ⟨kept, taken⟩ :=
      IdleSessionPool.cleanupStale_mem c.pool c.now setup.idleSessionTimeout setup.minIdleSessions
    refine { holding with
      pool := fun entry member => holding.pool entry (kept entry member)
      cleanup := fun job member => ?_ }
    obtain ⟨session, removed, rfl⟩ := List.mem_map.mp member
    obtain ⟨entry, pooled, same⟩ := taken session removed
    exact same ▸ holding.pool entry pooled
  | cleanupActs action queued =>
    have known := holding.cleanup _ (queued ▸ List.mem_cons_self)
    refine { holding with cleanup := fun job member => ?_ }
    rcases List.mem_cons.mp member with rfl | old
    · exact known
    · exact holding.cleanup job (queued ▸ List.mem_cons_of_mem _ old)
  | cleanupDone queued =>
    exact { holding with
      cleanup := fun job member => holding.cleanup job (queued ▸ List.mem_cons_of_mem _ member) }
  | drainsActive closing =>
    refine { holding with
      active := fun entry member => by cases member
      closing := fun id member => ?_ }
    obtain ⟨entry, listed, rfl⟩ := List.mem_map.mp member
    exact holding.active entry listed
  | drainsPool closing =>
    refine { holding with
      pool := fun entry member => by cases member
      closing := fun id member => ?_ }
    rcases List.mem_append.mp member with old | new
    · exact holding.closing id (closing ▸ old)
    · obtain ⟨entry, pooled, rfl⟩ := List.mem_map.mp new
      exact holding.pool entry pooled
  | closeActs action closing =>
    exact { holding with closing := fun id member => holding.closing id (closing ▸ member) }
  | closeGoesOn closing stored closed =>
    exact { holding with
      closing := fun id member => holding.closing id (closing ▸ List.mem_cons_of_mem _ member) }

/-! ### Sessions changed -/

/-- What a step of the client does to its sessions. -/
inductive SessionsChange (md5 : Bytes → String)
    (iterate : StringMap.Order) (c : Client) (a : LifecycleAction) (t : Client) :
    Prop where
  | same : t.sessions = c.sessions → SessionsChange md5 iterate c a t
  | set {id conn after} : c.sessions[id]? = some conn →
      conn.Change md5 iterate c a id after → t.sessions = c.sessions.set id after →
      SessionsChange md5 iterate c a t
  | made {attempt preamble issued} :
      .make attempt preamble issued ∈ c.calls → .start attempt c.sessions.length ∈ t.calls →
      t.sessions = c.sessions ++ [Connection.new c.padding preamble issued] →
      SessionsChange md5 iterate c a t

namespace SessionsChange
variable {conn after : Connection}

theorem kept (change : SessionsChange md5 iterate c a t) (stored : c.sessions[id]? = some conn) :
    ∃ after, t.sessions[id]? = some after ∧ conn.Change md5 iterate c a id after := by
  cases change with
  | same sessions => exact ⟨conn, sessions ▸ stored, .same⟩
  | @set other before after held change sessions =>
    have found : (c.setConnection other after).sessions[id]? =
        if other = id then some after else c.sessions[id]? := setConnection_get held id
    rw [setConnection, ← sessions] at found
    by_cases same : other = id
    · subst same
      cases held.symm.trans stored
      exact ⟨after, by simpa using found, change⟩
    · rw [if_neg same] at found
      exact ⟨conn, found.trans stored, .same⟩
  | made makes starts sessions =>
    have within := (List.getElem?_eq_some_iff.mp stored).1
    exact ⟨conn, by rw [sessions, List.getElem?_append_left within, stored], .same⟩

theorem origin (change : SessionsChange md5 iterate c a t) (stored : t.sessions[id]? = some after) :
    (∃ conn, c.sessions[id]? = some conn ∧ conn.Change md5 iterate c a id after) ∨
    (∃ attempt preamble issued, .make attempt preamble issued ∈ c.calls ∧ .start attempt id ∈ t.calls ∧
      after = Connection.new c.padding preamble issued) := by
  cases found : c.sessions[id]? with
  | some conn =>
    obtain ⟨other, known, conn_change⟩ := change.kept found
    cases known.symm.trans stored
    exact .inl ⟨conn, rfl, conn_change⟩
  | none =>
    cases change with
    | same sessions => cases found.symm.trans (sessions ▸ stored)
    | set held change sessions =>
      rw [sessions, List.getElem?_set] at stored
      split_ifs at stored with same within
      · exact absurd (same ▸ within) (Nat.not_lt.mpr (List.getElem?_eq_none_iff.mp found))
      · cases found.symm.trans stored
    | made makes starts sessions =>
      have beyond := List.getElem?_eq_none_iff.mp found
      rw [sessions] at stored
      have within := (List.getElem?_eq_some_iff.mp stored).1
      rw [List.length_append, List.length_singleton] at within
      have last : c.sessions.length = id := Nat.le_antisymm beyond (Nat.le_of_lt_succ within)
      rw [List.getElem?_append_right beyond] at stored
      exact .inr ⟨_, _, _, makes, last ▸ starts, List.mem_singleton.mp (List.mem_of_getElem? stored)⟩

end SessionsChange

theorem CallMove.sessions {i : Nat} {dialed : Dialed} {pc next : CallPc} (moves : CallMove md5 iterate setup c pc next t)
    (placed : c.calls[i]? = some pc) (sound : c.Sound md5 iterate padding) :
    SessionsChange md5 iterate c (.advance i dialed) { t with calls := t.calls.set i next } := by
  have called := List.mem_of_getElem? placed
  cases moves with
  | walks | pops | dials | admits | rejects | abandoned | numbers | opened => exact .same rfl
  | acts action before after known found stored stepped =>
    exact .set stored (.steps action stepped (.inl
      (sound.spawned_started stored (sound.used.called placed known)))) rfl
  | asks stored stepped | opens stored stepped =>
    exact .set stored (.steps _ stepped (.inl
      (sound.spawned_started stored (sound.used.called placed List.mem_cons_self)))) rfl
  | makes => exact .made called (List.mem_set (List.getElem?_eq_some_iff.mp placed).1 _) rfl
  | starts stored ensured => exact .set stored (.starts ensured) rfl
  | startFails stored ensured => exact .set stored (.starts ensured) rfl
  | abandons action takes stored stepped =>
    obtain ⟨same, found, started⟩ := sound.owned called rfl
    cases stored.symm.trans found
    exact .set stored (.steps action stepped (.inl (started (by simp)))) rfl
  | registers stored =>
    obtain ⟨same, found, started⟩ := sound.owned called rfl
    cases stored.symm.trans found
    exact .set stored (.spawns rfl placed (started (by simp))) rfl

theorem Move.sessions (moves : Move md5 iterate setup c a t) (sound : c.Sound md5 iterate padding) :
    SessionsChange md5 iterate c a t := by
  cases moves with
  | creates | idles | returns | cleans | cleanupDone | elapses | closes | closedBefore | awaits
  | drainsActive | drainsPool | closeReturns | closeGoesOn => exact .same rfl
  | call placed moves => exact moves.sessions placed sound
  | runs stored starting ensured => exact .set stored (.runs starting ensured) rfl
  | runFails stored starting ensured => exact .set stored (.runFails starting ensured) rfl
  | runEnds stored receiving ended => exact .set stored (.ends receiving ended) rfl
  | session stored unmanaged receives stepped =>
    exact .set stored (.steps _ stepped (.inr ⟨unmanaged, receives⟩)) rfl
  | cleanupActs action queued stored stepped =>
    have spawned := sound.used.cleanup _ (queued ▸ List.mem_cons_self)
    exact .set stored (.steps action stepped (.inl (sound.spawned_started stored spawned))) rfl
  | @closeActs other pc rest conn session action closing takes stored stepped =>
    have spawned : c.Spawned other := sound.used.closing _ (by rw [closing]; exact List.mem_cons_self)
    exact .set stored (.steps action stepped (.inl (sound.spawned_started stored spawned))) rfl

/-! ### The invariant -/

theorem Spawned.step (spawned : c.Spawned id) (change : SessionsChange md5 iterate c a t)
    (sound : c.Sound md5 iterate padding) : t.Spawned id := by
  obtain ⟨conn, stored, task⟩ := spawned
  obtain ⟨after, found, changed⟩ := change.kept stored
  exact ⟨after, found, changed.spawned (sound.lived stored) task⟩

theorem CallMove.kept {pc next} (moves : CallMove md5 iterate setup c pc next t) :
    (t.padding, t.calls, t.closing, t.closedFlag, t.issued) =
      (c.padding, c.calls, c.closing, c.closedFlag, c.issued) := by
  cases moves with
  | _ => rfl

theorem Move.cell (moves : Move md5 iterate setup c a t) : t.padding = c.padding := by
  cases moves with
  | call placed moves => exact congrArg (·.1) moves.kept
  | _ => rfl

/-- What a step does to the calls. -/
inductive CallsChange (md5 : Bytes → String) (iterate : StringMap.Order)
    (setup : ClientSetup) (c : Client) (a : LifecycleAction) (t : Client) : Prop where
  | same : t.calls = c.calls → CallsChange md5 iterate setup c a t
  | begins : t.calls = c.calls ++ [.begin] → CallsChange md5 iterate setup c a t
  | moves {i dialed pc next u} : a = .advance i dialed →
      c.calls[i]? = some pc → CallMove md5 iterate setup c pc next u →
      t = { u with calls := c.calls.set i next } → CallsChange md5 iterate setup c a t

theorem Move.calls (moves : Move md5 iterate setup c a t) : CallsChange md5 iterate setup c a t := by
  cases moves with
  | creates => exact .begins rfl
  | @call i dialed pc next u placed moves =>
    have calls : u.calls = c.calls := congrArg (·.2.1) moves.kept
    exact .moves rfl placed moves (by rw [calls])
  | _ => exact .same rfl

/-- A call that stands elsewhere than at the beginning was there before, or has just come there. -/
theorem CallsChange.origin {pc} (change : CallsChange md5 iterate setup c a t) (called : pc ∈ t.calls)
    (begun : pc ≠ .begin) : pc ∈ c.calls ∨ ∃ i dialed before u, a = .advance i dialed ∧
      c.calls[i]? = some before ∧ CallMove md5 iterate setup c before pc u ∧
      t = { u with calls := c.calls.set i pc } := by
  cases change with
  | same calls => exact .inl (calls ▸ called)
  | begins calls =>
    rw [calls, List.mem_append, List.mem_singleton] at called
    exact .inl (called.resolve_right begun)
  | @moves i dialed before next u advances placed moves same =>
    rw [same] at called
    rcases List.mem_or_eq_of_mem_set called with old | rfl
    · exact .inl old
    · exact .inr ⟨i, dialed, before, u, advances, placed, moves, same⟩

/-- A call that owns a session after its step has just made it, started it, or owned it before. -/
theorem CallMove.owned {pc next} (moves : CallMove md5 iterate setup c pc next t)
    (owns : next.owned = some id) :
    (pc.owned = some id ∧ ∀ attempt, pc ≠ .start attempt id) ∨
    (∃ attempt preamble issued, pc = .make attempt preamble issued ∧ next = .start attempt id ∧
      t.sessions[id]? = some (Connection.new c.padding preamble issued)) ∨
    (∃ attempt conn after, pc = .start attempt id ∧ c.sessions[id]? = some conn ∧
      conn.ensureStarted iterate = some (.ok (), after) ∧ t = c.setConnection id after) := by
  cases moves with
  | walks before after => cases (CallPc.plain_owned (CallPc.still_plain after)).symm.trans owns
  | acts action before after => cases (CallPc.plain_owned (CallPc.still_plain after)).symm.trans owns
  | asks | opens | pops | dials | startFails | abandoned | registers | opened => cases owns
  | makes =>
    cases owns
    exact .inr (.inl ⟨_, _, _, rfl, rfl, by simp⟩)
  | starts stored ensured =>
    cases owns
    exact .inr (.inr ⟨_, _, _, rfl, stored, ensured, rfl⟩)
  | admits | rejects | abandons | numbers => exact .inl ⟨owns, by simp⟩

theorem Sound.owned_kept (sound : c.Sound md5 iterate padding) (change : SessionsChange md5 iterate c a t)
    {pc next : CallPc} (called : pc ∈ c.calls) (owns : pc.owned = some id)
    (started : (∀ attempt, next ≠ .start attempt id) → ∀ attempt, pc ≠ .start attempt id) :
    ∃ conn, t.sessions[id]? = some conn ∧ ((∀ attempt, next ≠ .start attempt id) → conn.started = true) := by
  obtain ⟨conn, stored, begun⟩ := sound.owned called owns
  obtain ⟨after, found, changed⟩ := change.kept stored
  exact ⟨after, found, fun past => changed.started (sound.lived stored) (begun (started past))⟩

theorem sound_step (sound : c.Sound md5 iterate padding) (stepped : c.step md5 iterate setup a = some t) :
    t.Sound md5 iterate padding := by
  have moves := step_move stepped
  have change := moves.sessions sound
  refine ⟨moves.cell.trans sound.cell, fun stored => ?_, ?_, fun called owns => ?_⟩
  · rcases change.origin stored with ⟨conn, found, changed⟩ | ⟨attempt, preamble, issued, -, -, rfl⟩
    · exact (sound.lived found).change changed
    · exact .made rfl rfl (by rw [← sound.cell]; rfl)
  · refine moves.holding (sound.used.imp fun id spawned => spawned.step change sound) ?_
    rintro i dialed attempt seq id rfl placed
    cases moves with
    | call same moves =>
      cases placed.symm.trans same
      cases moves with
      | walks before => cases before
      | acts action before => cases before
      | registers stored =>
        exact ⟨_, (setConnection_get stored id).trans (if_pos rfl), by simp⟩
  · rcases moves.calls.origin called (by rintro rfl; cases owns) with old | ⟨i, dialed, before, u, -, placed, moved, rfl⟩
    · exact sound.owned_kept change old owns fun past => past
    · rcases moved.owned owns with ⟨owned, past⟩ | ⟨_, _, _, rfl, rfl, found⟩ | ⟨_, conn, after, rfl, stored, ensured, rfl⟩
      · exact sound.owned_kept change (List.mem_of_getElem? placed) owned fun _ => past
      · exact ⟨_, found, fun other => absurd rfl (other _)⟩
      · exact ⟨after, (setConnection_get stored _).trans (if_pos rfl), fun _ =>
          ((sound.lived stored).ensureStarted ensured).2.2.1⟩

theorem run_sound {actions} (path : Transition.run (step md5 iterate setup) (new padding) actions = some c) :
    c.Sound md5 iterate padding :=
  Transition.invariant (fun sound stepped => sound_step sound stepped) sound_new path

end Client

end AnyTls

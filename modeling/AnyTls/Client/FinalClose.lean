import AnyTls.Client.SettingsFirst
import AnyTls.Library.ListUpdate
import AnyTls.Proxy.Terminating

/-! `Client::close` against the calls in progress. It swaps the closed flag, drains the active
sessions and the pool and terminates what it found. A session is in the map of active sessions
only from its registration on, which comes after the last test of the flag: one that is
registered after the drain is not among those that `close` terminates. -/
namespace AnyTls

def RunPc.seq? : RunPc → Option UInt64
  | .starting seq | .receiving seq => some seq
  | _ => none

/-- Past the last test of the flag, and not yet among the active sessions. -/
def CallPc.registering : CallPc → Bool
  | .number .. | .register .. => true
  | _ => false

def CallPc.result? : CallPc → Option (Except IoError (SessionId × StreamRef))
  | .returned result => some result
  | _ => none

theorem CallPc.result?_eq_some {pc : CallPc} {result} :
    pc.result? = some result ↔ pc = .returned result := by
  cases pc <;> simp [result?]

theorem CallPc.still_registering {pc : CallPc} (still : pc.still = true) : pc.registering = false := by
  cases pc <;> first | rfl | cases still

def ClientClosePc.drained : ClientClosePc → Bool
  | .drainPool _ | .terminating _ _ | .returned => true
  | _ => false

variable {md5 : Bytes → String} {iterate : StringMap.Order}
  {setup : ClientSetup} {padding : PaddingFactory}

namespace Connection
variable {c : Client} {a : LifecycleAction} {id : SessionId} {conn after : Connection}

/-- A start changes nothing of a session that is not new. -/
theorem Lived.ensured {result} (lived : conn.Lived md5 iterate padding)
    (ensured : conn.ensureStarted iterate = some (result, after)) :
    after.session = conn.session ∨ conn.session = Session.new true padding := by
  cases lived with
  | made _ _ new => exact .inr new
  | running _ started =>
    rw [ensureStarted_started started] at ensured
    cases ensured
    exact .inl rfl

/-- A session does what it did before, or takes a step, or has just started. -/
theorem Change.session (change : conn.Change md5 iterate c a id after) (lived : conn.Lived md5 iterate padding) :
    after.session = conn.session ∨ (∃ action, conn.session.step md5 action = some after.session) ∨
      conn.session = Session.new true padding := by
  cases change with
  | same | spawns | ends => exact .inl rfl
  | steps action stepped => exact .inr (.inl ⟨action, stepped⟩)
  | starts ensured => exact (lived.ensured ensured).imp_right .inr
  | runs _ ensured | runFails _ ensured =>
    rcases lived.ensured ensured with same | new
    · exact .inl same
    · exact .inr (.inr new)

theorem Change.closed (change : conn.Change md5 iterate c a id after) (lived : conn.Lived md5 iterate padding)
    (closed : conn.session.closed = true) : after.session.closed = true := by
  rcases change.session lived with same | ⟨action, stepped⟩ | new
  · rw [same]
    exact closed
  · exact (Session.step_settles stepped).closing.stays closed
  · rw [new] at closed
    cases closed

theorem Change.terminated (change : conn.Change md5 iterate c a id after) (lived : conn.Lived md5 iterate padding)
    (ended : conn.session.isTerminated = true) : after.session.isTerminated = true := by
  rcases change.session lived with same | ⟨action, stepped⟩ | new
  · rw [same]
    exact ended
  · exact Session.terminated_stays stepped ended
  · rw [new] at ended
    cases ended

theorem Change.unspawned (change : conn.Change md5 iterate c a id after) (lived : conn.Lived md5 iterate padding)
    (unspawned : after.task = .unspawned) : conn.task = .unspawned := by
  by_contra spawned
  exact change.spawned lived spawned unspawned

/-- A session gets its number when it is registered. -/
theorem Change.seq {seq} (change : conn.Change md5 iterate c a id after)
    (lived : conn.Lived md5 iterate padding) (running : after.task.seq? = some seq) :
    conn.task.seq? = some seq ∨
      ∃ i dialed attempt, a = .advance i dialed ∧ c.calls[i]? = some (.register attempt seq id) := by
  cases change with
  | same | steps => exact .inl running
  | starts ensured => exact .inl ((lived.ensureStarted ensured).2.2.2 ▸ running)
  | spawns advances registers =>
    cases running
    exact .inr ⟨_, _, _, advances, registers⟩
  | runs starting ensured =>
    cases running
    exact .inl (by rw [starting]; rfl)
  | runFails | ends => cases running

theorem Lived.endedClosed (lived : conn.Lived md5 iterate padding) : conn.session.EndedClosed := by
  cases lived with
  | made _ _ new =>
    rw [new]
    rintro ⟨⟩
  | running actions _ path =>
    exact Transition.invariant Session.endedClosed_step (Session.fresh_started iterate true padding).endedClosed path

/-- A task is gone only when its session is closed. -/
theorem Change.gone (change : conn.Change md5 iterate c a id after) (lived : conn.Lived md5 iterate padding)
    (gone : after.task = .gone) : conn.task = .gone ∨ after.session.closed = true := by
  cases change with
  | same | steps => exact .inl gone
  | starts ensured => exact .inl ((lived.ensureStarted ensured).2.2.2 ▸ gone)
  | spawns | runs => cases gone
  | runFails starting ensured => cases (lived.ensureStarted ensured).1
  | ends receiving ended => exact .inr (lived.endedClosed ended)

end Connection

namespace Client
variable {c t : Client} {a : LifecycleAction} {id : SessionId}

/-- The session is closed. -/
def Closed (c : Client) (id : SessionId) : Prop :=
  ∃ conn, c.sessions[id]? = some conn ∧ conn.session.closed = true

theorem Closed.step (closed : c.Closed id) (change : SessionsChange md5 iterate c a t)
    (sound : c.Sound md5 iterate padding) : t.Closed id := by
  obtain ⟨conn, stored, flag⟩ := closed
  obtain ⟨after, found, changed⟩ := change.kept stored
  exact ⟨after, found, changed.closed (sound.lived stored) flag⟩

/-- A step of `terminate` leaves its session closed. -/
theorem takes_closed {pc : TerminatePc} {action} {session after : Session} (takes : pc.Takes action)
    (stepped : session.step md5 action = some after) (before : pc = .clear → session.closed = true) :
    after.closed = true := by
  rcases takes with ⟨-, rfl⟩ | ⟨clear, rfl⟩
  · cases stepped
    rw [Session.beginTerminate_eq]
  · exact (Session.step_settles stepped).closing.stays (before clear)

/-! ### The books of the client -/

/-- What a step does to the active sessions. -/
inductive ActiveChange (c : Client) (a : LifecycleAction) (t : Client) : Prop where
  | same : t.active = c.active → ActiveChange c a t
  | inserted {i dialed attempt seq id} : a = .advance i dialed → c.calls[i]? = some (.register attempt seq id) →
      t.active = insertKey c.active seq id → t.closing = c.closing → ActiveChange c a t
  | removed {id conn after seq} : c.sessions[id]? = some conn →
      conn.task.seq? = some seq → t.active = swapRemove c.active seq → t.sessions = c.sessions.set id after →
      after.task = .gone → t.closing = c.closing → ActiveChange c a t
  | drained : t.active = [] → t.closing.drained = true → ActiveChange c a t

theorem Move.active (moves : Move md5 iterate setup c a t) : ActiveChange c a t := by
  cases moves with
  | call placed moves =>
    cases moves with
    | registers stored => exact .inserted rfl placed rfl rfl
    | _ => exact .same rfl
  | runFails stored starting ensured =>
    exact .removed stored (by rw [starting]; rfl) rfl rfl rfl rfl
  | runEnds stored receiving ended =>
    exact .removed stored (by rw [receiving]; rfl) rfl rfl rfl rfl
  | drainsActive closing => exact .drained rfl rfl
  | _ => exact .same rfl

/-- What a step does to the flag and to `close`. -/
inductive ClosingChange (c : Client) (a : LifecycleAction) (t : Client) : Prop where
  | same : (t.closing, t.closedFlag) = (c.closing, c.closedFlag) → ClosingChange c a t
  | closes : c.closedFlag = false → (t.closing, t.closedFlag) = (.cancelled, true) → ClosingChange c a t
  | awaits : c.closing = .cancelled → (t.closing, t.closedFlag) = (.drainActive, c.closedFlag) →
      ClosingChange c a t
  | drainsActive : a = .closeStep → c.closing = .drainActive →
      t.closing = .drainPool (c.active.map fun entry => entry.2) →
      (t.active, t.sessions, t.calls, t.closedFlag) = ([], c.sessions, c.calls, c.closedFlag) →
      ClosingChange c a t
  | drainsPool {sessions more} : c.closing = .drainPool sessions →
      t.closing = .terminating (sessions ++ more) .swap → t.closedFlag = c.closedFlag → ClosingChange c a t
  | returns {pc} : a = .closeStep → c.closing = .terminating [] pc → t.closing = .returned →
      (t.sessions, t.calls, t.closedFlag) = (c.sessions, c.calls, c.closedFlag) → ClosingChange c a t
  | acts {id rest pc} : c.closing = .terminating (id :: rest) pc →
      t.closing = .terminating (id :: rest) .clear → t.closedFlag = c.closedFlag →
      ((pc = .clear → c.Closed id) → t.Closed id) → ClosingChange c a t
  | goesOn {id rest pc} : c.closing = .terminating (id :: rest) pc → t.closing = .terminating rest .swap →
      t.closedFlag = c.closedFlag → ((pc = .clear → c.Closed id) → c.Closed id) → t.sessions = c.sessions →
      ClosingChange c a t

theorem Move.closing (moves : Move md5 iterate setup c a t) : ClosingChange c a t := by
  cases moves with
  | @call i dialed pc next u placed moves =>
    have kept := moves.kept
    simp only [Prod.mk.injEq] at kept
    exact .same (by rw [kept.2.2.1, kept.2.2.2.1])
  | closes flag => exact .closes flag rfl
  | awaits closing => exact .awaits closing rfl
  | drainsActive closing => exact .drainsActive rfl closing rfl rfl
  | drainsPool closing => exact .drainsPool closing rfl rfl
  | closeReturns closing => exact .returns rfl closing rfl rfl
  | closeActs action closing takes stored stepped =>
    refine .acts closing rfl rfl fun before => ?_
    refine ⟨_, (setConnection_get stored _).trans (if_pos rfl), takes_closed takes stepped fun clear => ?_⟩
    obtain ⟨conn, found, closed⟩ := before clear
    cases stored.symm.trans found
    exact closed
  | @closeGoesOn id pc rest conn closing stored closed =>
    refine .goesOn closing rfl rfl (fun before => ?_) rfl
    cases pc with
    | swap => exact ⟨conn, stored, closed rfl⟩
    | clear => exact before rfl
  | _ => exact .same rfl

/-- A drain is never undone. -/
theorem ClosingChange.drained (change : ClosingChange c a t) (flagged : c.closing ≠ .uncalled → c.closedFlag = true)
    (drained : c.closing.drained = true) : t.closing.drained = true := by
  cases change with
  | same kept =>
    have closing : t.closing = c.closing := congrArg (·.1) kept
    exact closing ▸ drained
  | closes flag =>
    have called : c.closing ≠ .uncalled := by
      intro uncalled
      rw [uncalled] at drained
      cases drained
    cases flag.symm.trans (flagged called)
  | awaits closing | drainsActive _ closing =>
    rw [closing] at drained
    cases drained
  | drainsPool _ after | returns _ _ after | acts _ after | goesOn _ after => rw [after]; rfl

/-! ### The invariant -/

/-- The call is inside `open_stream`, past its tests of the closed flag of the session. -/
def admits (c : Client) : CallPc → Bool
  | .opening _ _ id call => (c.sessions[id]?).any fun conn => conn.session.admits call
  | _ => false

structure Accounted (c : Client) : Prop where
  unspawned : ∀ {id : SessionId} {conn : Connection}, c.sessions[id]? = some conn → conn.task = .unspawned →
    conn.session.isTerminated = true ∨ ∃ pc ∈ c.calls, pc.owned = some id
  running : ∀ {id : SessionId} {conn : Connection} {seq : UInt64}, c.sessions[id]? = some conn →
    conn.task.seq? = some seq → c.closing.drained = false → (seq, id) ∈ c.active
  draining : ∀ {id : SessionId} {conn : Connection} {seq : UInt64}, c.sessions[id]? = some conn →
    conn.task.seq? = some seq → c.closing.drained = true →
    conn.session.closed = true ∨ id ∈ c.closing.sessions
  gone : ∀ {id : SessionId} {conn : Connection}, c.sessions[id]? = some conn → conn.task = .gone →
    conn.session.closed = true
  keys : (c.active.map Prod.fst).Nodup
  abandoning : ∀ {id : SessionId}, .abandon id .clear ∈ c.calls → c.Closed id
  terminating : ∀ {id : SessionId} {rest : List SessionId}, c.closing = .terminating (id :: rest) .clear →
    c.Closed id
  flagged : c.closing ≠ .uncalled → c.closedFlag = true
  drained : c.closing.drained = true → c.active = [] ∧ ∀ pc ∈ c.calls, pc.registering = false
  late : c.closing = .returned → ∀ pc ∈ c.calls, c.admits pc = false

theorem accounted_new : (new padding).Accounted := by
  constructor <;> simp [new, ClientClosePc.drained]

/-- No call is between the last test of the flag and its registration when `close` drains the
active sessions, none is past the tests of `open_stream` when `close` returns, and no number
is given to a session while another has it. -/
def closesApart (c : Client) : LifecycleAction → Bool
  | .closeStep =>
    match c.closing with
    | .drainActive => c.calls.all fun pc => !pc.registering
    | .terminating [] _ => c.calls.all fun pc => !c.admits pc
    | _ => true
  | .advance i _ =>
    match c.calls[i]? with
    | some (.register _ seq _) => c.active.all fun entry => decide (entry.1 ≠ seq)
    | _ => true
  | _ => true

theorem closesApart_fresh {i attempt dialed seq} (advances : a = .advance i dialed)
    (placed : c.calls[i]? = some (.register attempt seq id)) (apart : c.closesApart a = true) :
    ∀ entry ∈ c.active, entry.1 ≠ seq := by
  subst advances
  simp only [closesApart, placed, List.all_eq_true, decide_eq_true_eq] at apart
  exact apart

theorem Move.registered {i attempt dialed seq} (moves : Move md5 iterate setup c (.advance i dialed) t)
    (placed : c.calls[i]? = some (.register attempt seq id)) : ∃ conn, c.sessions[id]? = some conn ∧
      t = { c.setConnection id { conn with task := .starting seq } with
        active := insertKey c.active seq id, calls := c.calls.set i (.openStream attempt seq id) } := by
  cases moves with
  | call same moves =>
    cases placed.symm.trans same
    cases moves with
    | walks before => cases before
    | acts action before => cases before
    | registers stored => exact ⟨_, stored, rfl⟩

/-- A call that gives a session up leaves it closed, and one that does not registers it. -/
theorem CallMove.disowns {pc next} (moves : CallMove md5 iterate setup c pc next t)
    (sound : c.Sound md5 iterate padding) (owns : pc.owned = some id) :
    next.owned = some id ∨ (∃ kind, pc = .abandon id kind ∧ (kind = .swap → c.Closed id) ∧ t = c) ∨
    t.Spawned id := by
  cases moves with
  | walks before => cases (CallPc.plain_owned before).symm.trans owns
  | acts action before => cases (CallPc.plain_owned before).symm.trans owns
  | asks | opens | pops | dials | makes | opened => cases owns
  | starts | admits | rejects | abandons | numbers => exact .inl owns
  | startFails stored ensured => cases ((sound.lived stored).ensureStarted ensured).1
  | abandoned stored closed =>
    cases owns
    exact .inr (.inl ⟨_, rfl, fun swap => ⟨_, stored, closed swap⟩, rfl⟩)
  | registers stored =>
    cases owns
    exact .inr (.inr ⟨_, (setConnection_get stored id).trans (if_pos rfl), by simp⟩)

namespace Accounted
variable {conn : Connection} {seq : UInt64}

/-- Once `close` has returned, every session in use is closed. -/
theorem spawned_closed (accounted : c.Accounted) (returned : c.closing = .returned) (spawned : c.Spawned id) :
    c.Closed id := by
  obtain ⟨conn, stored, task⟩ := spawned
  refine ⟨conn, stored, ?_⟩
  have found {seq : UInt64} (running : conn.task.seq? = some seq) : conn.session.closed = true := by
    rcases accounted.draining stored running (by rw [returned]; rfl) with closed | listed
    · exact closed
    · rw [returned] at listed
      cases listed
  cases running : conn.task with
  | unspawned => exact absurd running task
  | starting seq => exact found (by rw [running]; rfl)
  | receiving seq => exact found (by rw [running]; rfl)
  | gone => exact accounted.gone stored running

theorem unspawned_step (accounted : c.Accounted) (sound : c.Sound md5 iterate padding)
    (moves : Move md5 iterate setup c a t) (stored : t.sessions[id]? = some conn) (unspawned : conn.task = .unspawned) :
    conn.session.isTerminated = true ∨ ∃ pc ∈ t.calls, pc.owned = some id := by
  have change := moves.sessions sound
  rcases change.origin stored with ⟨before, found, changed⟩ | ⟨attempt, preamble, issued, -, starts, rfl⟩
  · have lived := sound.lived found
    rcases accounted.unspawned found (changed.unspawned lived unspawned) with ended | ⟨pc, called, owns⟩
    · exact .inl (changed.terminated lived ended)
    · cases moves.calls with
      | same calls => exact .inr ⟨pc, calls ▸ called, owns⟩
      | begins calls => exact .inr ⟨pc, by rw [calls]; exact List.mem_append_left _ called, owns⟩
      | @moves i dialed mover next u _ placed moved same =>
        by_cases other : pc = mover
        · subst other
          rcases moved.disowns sound owns with owns | ⟨kind, rfl, closed, rfl⟩ | ⟨now, spawned, task⟩
          · refine .inr ⟨next, ?_, owns⟩
            rw [same]
            exact List.mem_set (List.getElem?_eq_some_iff.mp placed).1 _
          · have ended : u.Closed id := by
              cases kind with
              | swap => exact closed rfl
              | clear => exact accounted.abandoning called
            obtain ⟨last, known, flag⟩ := ended
            cases found.symm.trans known
            exact .inl (changed.terminated lived (by simp [Session.isTerminated, flag]))
          · rw [same] at stored
            cases spawned.symm.trans stored
            exact absurd unspawned task
        · refine .inr ⟨pc, ?_, owns⟩
          rw [same]
          exact ListUpdate.mem_set_other placed called other
  · exact .inr ⟨_, starts, rfl⟩

theorem running_step (accounted : c.Accounted) (sound : c.Sound md5 iterate padding)
    (moves : Move md5 iterate setup c a t) (apart : c.closesApart a = true) (stored : t.sessions[id]? = some conn)
    (running : conn.task.seq? = some seq) (undrained : t.closing.drained = false) : (seq, id) ∈ t.active := by
  have before : c.closing.drained = false := by
    rw [← Bool.not_eq_true]
    intro drained
    cases undrained.symm.trans (moves.closing.drained accounted.flagged drained)
  rcases (moves.sessions sound).origin stored with ⟨old, found, changed⟩ | ⟨_, _, _, -, -, rfl⟩
  · rcases changed.seq (sound.lived found) running with had | ⟨i, dialed, attempt, rfl, registers⟩
    · have listed := accounted.running found had before
      cases moves.active with
      | same active => exact active ▸ listed
      | inserted advances placed active =>
        rw [active, insertKey_fresh (closesApart_fresh advances placed apart)]
        exact List.mem_append_left _ listed
      | @removed other held after key known keyed active sessions gone =>
        rw [active]
        refine swapRemove_keeps listed fun same => ?_
        -- two sessions with one number are one session, and it has just ended
        have one := List.inj_on_of_nodup_map accounted.keys listed (accounted.running known keyed before) same
        have same : id = other := congrArg Prod.snd one
        rw [sessions, same, List.getElem?_set_self (List.getElem?_eq_some_iff.mp known).1] at stored
        cases stored
        rw [gone] at running
        cases running
      | drained _ drained => cases undrained.symm.trans drained
    · obtain ⟨conn, -, rfl⟩ := moves.registered registers
      rw [insertKey_fresh (closesApart_fresh rfl registers apart)]
      exact List.mem_append_right _ List.mem_cons_self
  · cases running

theorem draining_step (accounted : c.Accounted) (sound : c.Sound md5 iterate padding)
    (moves : Move md5 iterate setup c a t) (stored : t.sessions[id]? = some conn)
    (running : conn.task.seq? = some seq) (drained : t.closing.drained = true) :
    conn.session.closed = true ∨ id ∈ t.closing.sessions := by
  cases before : c.closing.drained with
  | false =>
    cases moves.closing with
    | same kept =>
      have closing : t.closing = c.closing := congrArg (·.1) kept
      rw [closing, before] at drained
      cases drained
    | closes _ kept =>
      have closing : t.closing = .cancelled := congrArg (·.1) kept
      rw [closing] at drained
      cases drained
    | awaits _ kept =>
      have closing : t.closing = .drainActive := congrArg (·.1) kept
      rw [closing] at drained
      cases drained
    | drainsActive _ closing after kept =>
      have sessions : t.sessions = c.sessions := congrArg (·.2.1) kept
      rw [after]
      exact .inr (List.mem_map_of_mem (accounted.running (sessions ▸ stored) running before))
    | drainsPool closing | returns _ closing | acts closing | goesOn closing =>
      rw [closing] at before
      cases before
  | true =>
    rcases (moves.sessions sound).origin stored with ⟨old, found, changed⟩ | ⟨_, _, _, -, -, rfl⟩
    · rcases changed.seq (sound.lived found) running with had | ⟨i, dialed, attempt, rfl, registers⟩
      · rcases accounted.draining found had before with closed | listed
        · exact .inl (changed.closed (sound.lived found) closed)
        · cases moves.closing with
          | same kept =>
            have closing : t.closing = c.closing := congrArg (·.1) kept
            exact .inr (closing ▸ listed)
          | closes flag =>
            cases flag.symm.trans (accounted.flagged (by rintro uncalled; rw [uncalled] at before; cases before))
          | awaits closing | drainsActive _ closing =>
            rw [closing] at before
            cases before
          | drainsPool closing after =>
            rw [closing] at listed
            rw [after]
            exact .inr (List.mem_append_left _ listed)
          | returns _ closing =>
            rw [closing] at listed
            cases listed
          | acts closing after =>
            rw [closing] at listed
            rw [after]
            exact .inr listed
          | @goesOn head rest pc closing after _ ends sessions =>
            rw [closing] at listed
            rcases List.mem_cons.mp listed with rfl | later
            · obtain ⟨conn, known, closed⟩ := ends fun clear => accounted.terminating (clear ▸ closing)
              rw [← sessions] at known
              cases stored.symm.trans known
              exact .inl closed
            · rw [after]
              exact .inr later
      · cases (accounted.drained before).2 _ (List.mem_of_getElem? registers)
    · cases running

theorem gone_step (accounted : c.Accounted) (sound : c.Sound md5 iterate padding)
    (moves : Move md5 iterate setup c a t) (stored : t.sessions[id]? = some conn) (gone : conn.task = .gone) :
    conn.session.closed = true := by
  rcases (moves.sessions sound).origin stored with ⟨old, found, changed⟩ | ⟨_, _, _, -, -, rfl⟩
  · rcases changed.gone (sound.lived found) gone with before | closed
    · exact changed.closed (sound.lived found) (accounted.gone found before)
    · exact closed
  · cases gone

theorem keys_step (accounted : c.Accounted) (moves : Move md5 iterate setup c a t)
    (apart : c.closesApart a = true) : (t.active.map Prod.fst).Nodup := by
  cases moves.active with
  | same active => exact active ▸ accounted.keys
  | inserted advances placed active =>
    have fresh := closesApart_fresh advances placed apart
    rw [active, insertKey_fresh fresh, List.map_append, List.nodup_append]
    refine ⟨accounted.keys, List.nodup_singleton _, ?_⟩
    intro key listed other last
    obtain ⟨entry, member, rfl⟩ := List.mem_map.mp listed
    rw [List.mem_singleton.mp last]
    exact fresh entry member
  | removed _ _ active => exact active ▸ swapRemove_keys accounted.keys
  | drained active =>
    rw [active]
    exact List.nodup_nil

theorem abandoning_step (accounted : c.Accounted) (sound : c.Sound md5 iterate padding)
    (moves : Move md5 iterate setup c a t) (called : .abandon id .clear ∈ t.calls) : t.Closed id := by
  rcases moves.calls.origin called (by simp) with old | ⟨i, dialed, before, u, -, placed, moved, rfl⟩
  · exact (accounted.abandoning old).step (moves.sessions sound) sound
  · cases moved with
    | walks _ after => cases after
    | acts _ _ after => cases after
    | abandons action takes stored stepped =>
      refine ⟨_, (setConnection_get stored id).trans (if_pos rfl), takes_closed takes stepped fun clear => ?_⟩
      subst clear
      obtain ⟨conn, found, closed⟩ := accounted.abandoning (List.mem_of_getElem? placed)
      cases stored.symm.trans found
      exact closed

theorem terminating_step {rest} (accounted : c.Accounted) (sound : c.Sound md5 iterate padding)
    (moves : Move md5 iterate setup c a t) (now : t.closing = .terminating (id :: rest) .clear) : t.Closed id := by
  cases moves.closing with
  | same kept =>
    have closing : t.closing = c.closing := congrArg (·.1) kept
    exact (accounted.terminating (closing ▸ now)).step (moves.sessions sound) sound
  | closes _ kept => cases now.symm.trans (congrArg (·.1) kept)
  | awaits _ kept => cases now.symm.trans (congrArg (·.1) kept)
  | drainsActive _ _ after | returns _ _ after => cases now.symm.trans after
  | drainsPool _ after | goesOn _ after =>
    rw [after] at now
    simp at now
  | acts closing after _ ends =>
    cases now.symm.trans after
    exact ends fun clear => accounted.terminating (clear ▸ closing)

theorem flagged_step (accounted : c.Accounted) (moves : Move md5 iterate setup c a t)
    (called : t.closing ≠ .uncalled) : t.closedFlag = true := by
  cases moves.closing with
  | same kept =>
    simp only [Prod.mk.injEq] at kept
    rw [kept.2]
    exact accounted.flagged (kept.1 ▸ called)
  | closes _ kept => exact congrArg (·.2) kept
  | awaits closing kept =>
    have flag : t.closedFlag = c.closedFlag := congrArg (·.2) kept
    exact flag.trans (accounted.flagged (by simp [closing]))
  | drainsActive _ closing _ kept =>
    have flag : t.closedFlag = c.closedFlag := congrArg (·.2.2.2) kept
    exact flag.trans (accounted.flagged (by simp [closing]))
  | returns _ closing _ kept =>
    have flag : t.closedFlag = c.closedFlag := congrArg (·.2.2) kept
    exact flag.trans (accounted.flagged (by simp [closing]))
  | drainsPool closing _ flag | acts closing _ flag | goesOn closing _ flag =>
    exact flag.trans (accounted.flagged (by simp [closing]))

theorem drained_step (accounted : c.Accounted) (moves : Move md5 iterate setup c a t)
    (apart : c.closesApart a = true) (drained : t.closing.drained = true) :
    t.active = [] ∧ ∀ pc ∈ t.calls, pc.registering = false := by
  cases before : c.closing.drained with
  | false =>
    cases moves.closing with
    | same kept =>
      have closing : t.closing = c.closing := congrArg (·.1) kept
      rw [closing, before] at drained
      cases drained
    | closes _ kept =>
      have closing : t.closing = .cancelled := congrArg (·.1) kept
      rw [closing] at drained
      cases drained
    | awaits _ kept =>
      have closing : t.closing = .drainActive := congrArg (·.1) kept
      rw [closing] at drained
      cases drained
    | drainsActive closes closing after kept =>
      simp only [Prod.mk.injEq] at kept
      rw [kept.1, kept.2.2.1]
      refine ⟨rfl, fun pc called => ?_⟩
      subst closes
      simp only [closesApart, closing, List.all_eq_true, Bool.not_eq_true'] at apart
      exact apart pc called
    | drainsPool closing | returns _ closing | acts closing | goesOn closing =>
      rw [closing] at before
      cases before
  | true =>
    obtain ⟨empty, none⟩ := accounted.drained before
    have flag : c.closedFlag = true := accounted.flagged (by rintro uncalled; rw [uncalled] at before; cases before)
    constructor
    · cases moves.active with
      | same active => exact active.trans empty
      | inserted advances placed => cases none _ (List.mem_of_getElem? placed)
      | removed _ _ active =>
        rw [active, empty]
        rfl
      | drained active => exact active
    · intro pc called
      rw [← Bool.not_eq_true]
      intro registering
      rcases moves.calls.origin called (by rintro rfl; cases registering) with
        old | ⟨i, dialed, last, u, -, placed, moved, rfl⟩
      · cases registering.symm.trans (none pc old)
      · cases moved with
        | walks _ after => cases registering.symm.trans (CallPc.still_registering after)
        | acts _ _ after => cases registering.symm.trans (CallPc.still_registering after)
        | admits unflagged => cases flag.symm.trans unflagged
        | numbers => cases none _ (List.mem_of_getElem? placed)
        | _ => cases registering

theorem late_step (accounted : c.Accounted) (sound : c.Sound md5 iterate padding)
    (moves : Move md5 iterate setup c a t) (apart : c.closesApart a = true) (now : t.closing = .returned)
    {pc} (called : pc ∈ t.calls) : t.admits pc = false := by
  cases moves.closing with
  | same kept =>
    have returned : c.closing = .returned := by
      have closing : t.closing = c.closing := congrArg (·.1) kept
      exact closing ▸ now
    cases pc with
    | opening attempt seq id call =>
      -- the session is closed, so it lets no call pass that has not passed before
      have stays (out : c.admits (.opening attempt seq id call) = false) (spawned : c.Spawned id) :
          t.admits (.opening attempt seq id call) = false := by
        obtain ⟨conn, stored, closed⟩ := accounted.spawned_closed returned spawned
        obtain ⟨after, found, changed⟩ := (moves.sessions sound).kept stored
        simp only [admits, stored, found, Option.any_some] at out ⊢
        rcases changed.session (sound.lived stored) with same | ⟨action, stepped⟩ | new
        · rw [same]
          exact out
        · exact (Session.step_settles stepped).bars closed call out
        · rw [new] at closed
          cases closed
      rcases moves.calls.origin called (by simp) with old | ⟨i, dialed, before, u, -, placed, moved, rfl⟩
      · exact stays (accounted.late returned _ old) (sound.used.calls _ old id List.mem_cons_self)
      · cases moved with
        | walks _ after => cases after
        | acts _ _ after => cases after
        | asks stored stepped =>
          refine stays ?_ (sound.used.called placed List.mem_cons_self)
          simp [admits, stored, Session.admits]
        | opens stored stepped =>
          exact stays (accounted.late returned _ (List.mem_of_getElem? placed))
            (sound.used.called placed List.mem_cons_self)
    | _ => rfl
  | closes _ kept => cases now.symm.trans (congrArg (·.1) kept)
  | awaits _ kept => cases now.symm.trans (congrArg (·.1) kept)
  | drainsActive _ _ after | drainsPool _ after | acts _ after | goesOn _ after => cases now.symm.trans after
  | @returns last closes closing after kept =>
    simp only [Prod.mk.injEq] at kept
    subst closes
    simp only [closesApart, closing, List.all_eq_true, Bool.not_eq_true'] at apart
    have out := apart pc (kept.2.1 ▸ called)
    cases pc with
    | opening attempt seq id call =>
      simp only [admits, kept.1]
      exact out
    | _ => rfl

end Accounted

theorem accounted_step (accounted : c.Accounted) (sound : c.Sound md5 iterate padding)
    (moves : Move md5 iterate setup c a t) (apart : c.closesApart a = true) : t.Accounted where
  unspawned := accounted.unspawned_step sound moves
  running := accounted.running_step sound moves apart
  draining := accounted.draining_step sound moves
  gone := accounted.gone_step sound moves
  keys := accounted.keys_step moves apart
  abandoning := accounted.abandoning_step sound moves
  terminating := accounted.terminating_step sound moves
  flagged := accounted.flagged_step moves
  drained := accounted.drained_step moves apart
  late now _ called := accounted.late_step sound moves apart now called

theorem returned_stays (accounted : c.Accounted) (moves : Move md5 iterate setup c a t)
    (returned : c.closing = .returned) : t.closing = .returned := by
  cases moves.closing with
  | same kept => exact (congrArg (·.1) kept).trans returned
  | closes flag => cases flag.symm.trans (accounted.flagged (by simp [returned]))
  | awaits closing | drainsActive _ closing | drainsPool closing | returns _ closing | acts closing
  | goesOn closing => cases returned.symm.trans closing

/-- Once `close` has returned, no call yields a stream. -/
theorem opened_before {i : Nat} {result : SessionId × StreamRef} (accounted : c.Accounted)
    (moves : Move md5 iterate setup c a t) (returned : c.closing = .returned)
    (opened : t.calls[i]? = some (.returned (.ok result))) : c.calls[i]? = some (.returned (.ok result)) := by
  cases moves.calls with
  | same calls => exact calls ▸ opened
  | begins calls =>
    rw [calls, List.getElem?_append] at opened
    split_ifs at opened
    · exact opened
    · cases List.mem_singleton.mp (List.mem_of_getElem? opened)
  | @moves j dialed before next u _ placed moved same =>
    rw [same, List.getElem?_set] at opened
    split_ifs at opened with here within
    · cases opened
      cases moved with
      | walks _ after => cases after
      | acts _ _ after => cases after
      | opened stored result =>
        have late := accounted.late returned _ (List.mem_of_getElem? placed)
        simp [admits, stored, Session.admits, result, OpenPc.admitted] at late
    · exact opened

/-- When every call has returned too, every session of the client has ended. -/
theorem Accounted.all_terminated (accounted : c.Accounted) (returned : c.closing = .returned)
    (finished : ∀ pc ∈ c.calls, ∃ result, pc = .returned result) :
    ∀ conn ∈ c.sessions, conn.session.isTerminated = true := by
  intro conn member
  obtain ⟨id, stored⟩ := List.mem_iff_getElem?.mp member
  by_cases unspawned : conn.task = .unspawned
  · rcases accounted.unspawned stored unspawned with ended | ⟨pc, called, owns⟩
    · exact ended
    · obtain ⟨result, rfl⟩ := finished pc called
      cases owns
  · obtain ⟨same, found, closed⟩ := accounted.spawned_closed returned ⟨conn, stored, unspawned⟩
    cases stored.symm.trans found
    simp [Session.isTerminated, closed]

structure Kept (md5 : Bytes → String) (iterate : StringMap.Order)
    (padding : PaddingFactory) (c : Client) : Prop where
  sound : c.Sound md5 iterate padding
  accounted : c.Accounted

theorem kept_step (kept : c.Kept md5 iterate padding) (apart : c.closesApart a = true)
    (stepped : c.step md5 iterate setup a = some t) : t.Kept md5 iterate padding where
  sound := sound_step kept.sound stepped
  accounted := accounted_step kept.accounted kept.sound (step_move stepped) apart

/-- `close` had returned in `s`, and the streams returned are those returned by then. -/
structure ClosedSince (md5 : Bytes → String) (iterate : StringMap.Order)
    (padding : PaddingFactory) (s c : Client) : Prop where
  kept : c.Kept md5 iterate padding
  returned : c.closing = .returned
  early : ∀ {i : Nat} {result : SessionId × StreamRef}, c.calls[i]? = some (.returned (.ok result)) →
    s.calls[i]? = some (.returned (.ok result))

theorem closedSince_step {s : Client} (since : ClosedSince md5 iterate padding s c) (apart : c.closesApart a = true)
    (stepped : c.step md5 iterate setup a = some t) : ClosedSince md5 iterate padding s t where
  kept := kept_step since.kept apart stepped
  returned := returned_stays since.kept.accounted (step_move stepped) since.returned
  early opened := since.early (opened_before since.kept.accounted (step_move stepped) since.returned opened)

/-- In every run in which `close` and the calls keep apart: after `close` has returned no call
succeeds that had not done so before, and once all calls have returned every session is terminated. -/
theorem close_is_final {actions later : List LifecycleAction} {s t : Client}
    (apart : Transition.Along (step md5 iterate setup) (fun c a => c.closesApart a = true) (new padding)
      (actions ++ later))
    (path : Transition.run (step md5 iterate setup) (new padding) actions = some s)
    (onward : Transition.run (step md5 iterate setup) s later = some t) (returned : s.closing = .returned) :
    ((∀ pc ∈ t.calls, pc.result?.isSome = true) → ∀ conn ∈ t.sessions, conn.session.isTerminated = true) ∧
    ∀ (i : Nat) (result : SessionId × StreamRef), (t.calls[i]?).bind CallPc.result? = some (.ok result) →
      (s.calls[i]?).bind CallPc.result? = some (.ok result) := by
  have start : s.Kept md5 iterate padding :=
    Transition.invariant_along kept_step ⟨sound_new, accounted_new⟩ apart.append_left path
  have after : ClosedSince md5 iterate padding s t :=
    Transition.invariant_along closedSince_step ⟨start, returned, fun opened => opened⟩
      (apart.append_right path) onward
  obtain ⟨⟨-, accounted⟩, now, early⟩ := after
  refine ⟨fun finished => accounted.all_terminated now fun pc called => ?_, fun i result opened => ?_⟩
  · obtain ⟨result, has⟩ := Option.isSome_iff_exists.mp (finished pc called)
    exact ⟨result, CallPc.result?_eq_some.mp has⟩
  · obtain ⟨pc, placed, has⟩ := Option.bind_eq_some_iff.mp opened
    rw [CallPc.result?_eq_some.mp has] at placed
    rw [early placed]
    rfl

/-- One stream is open and a second call has begun when the client closes. -/
def closedBetween : List LifecycleAction :=
  LifecycleAction.createStream :: List.replicate 18 (LifecycleAction.advance 0 (.connected fun _ low _ => low)) ++
    [LifecycleAction.createStream, .close] ++ List.replicate 10 LifecycleAction.closeStep

theorem closedBetween_final : ∃ s t,
    Transition.run (step (fun _ => "") AList.entries plainSetup) (new Session.plainPadding) closedBetween = some s ∧
    Transition.run (step (fun _ => "") AList.entries plainSetup) s
      [.advance 1 (.connected fun _ low _ => low)] = some t ∧
    s.closing = .returned ∧ t.sessions.length = 1 ∧
    (t.calls.map fun pc => pc.result?) = [some (.ok (0, 0)), some (.error clientClosed)] ∧
    (∀ conn ∈ t.sessions, conn.session.isTerminated = true) ∧
    ∀ (i : Nat) (result : SessionId × StreamRef), (t.calls[i]?).bind CallPc.result? = some (.ok result) →
      (s.calls[i]?).bind CallPc.result? = some (.ok result) := by
  have reached : (Transition.run (step (fun _ => "") AList.entries plainSetup) (new Session.plainPadding)
      closedBetween).any (fun s => decide (s.closing = .returned) &&
        (Transition.run (step (fun _ => "") AList.entries plainSetup) s
          [.advance 1 (.connected fun _ low _ => low)]).any fun t => decide (t.sessions.length = 1 ∧
            (t.calls.map fun pc => pc.result?) = [some (.ok (0, 0)), some (.error clientClosed)])) = true := by
    decide +kernel
  obtain ⟨s, path, reached⟩ := (Option.any_eq_true _ _).mp reached
  obtain ⟨returned, reached⟩ := Bool.and_eq_true_iff.mp reached
  obtain ⟨t, onward, reached⟩ := (Option.any_eq_true _ _).mp reached
  obtain ⟨single, results⟩ := of_decide_eq_true reached
  have final := close_is_final (by decide +kernel) path onward (of_decide_eq_true returned)
  refine ⟨s, t, path, onward, of_decide_eq_true returned, single, results, final.1 fun pc called => ?_, final.2⟩
  have listed : pc.result? ∈ t.calls.map fun pc => pc.result? := List.mem_map_of_mem called
  rw [results] at listed
  rcases List.mem_cons.mp listed with same | listed
  · rw [same]
    rfl
  · rw [List.mem_singleton.mp listed]
    rfl

/-- The call has passed its last test of the flag when the client closes. -/
def closedBeforeRegistration : List LifecycleAction :=
  LifecycleAction.createStream :: List.replicate 11 (LifecycleAction.advance 0 (.connected fun _ low _ => low)) ++
    [LifecycleAction.close] ++ List.replicate 4 LifecycleAction.closeStep

theorem registered_after_close : ∃ s t conn,
    Transition.run (step (fun _ => "") AList.entries plainSetup) (new Session.plainPadding)
      closedBeforeRegistration = some s ∧
    Transition.run (step (fun _ => "") AList.entries plainSetup) s
      (List.replicate 7 (.advance 0 (.connected fun _ low _ => low))) = some t ∧
    s.closing = .returned ∧ (s.calls.map fun pc => pc.result?) = [none] ∧
    (t.calls.map fun pc => pc.result?) = [some (.ok (0, 0))] ∧
    t.sessions[0]? = some conn ∧ conn.session.isTerminated = false := by
  have reached : (Transition.run (step (fun _ => "") AList.entries plainSetup) (new Session.plainPadding)
      closedBeforeRegistration).any (fun s =>
        decide (s.closing = .returned ∧ (s.calls.map fun pc => pc.result?) = [none]) &&
        (Transition.run (step (fun _ => "") AList.entries plainSetup) s
          (List.replicate 7 (.advance 0 (.connected fun _ low _ => low)))).any fun t =>
            decide ((t.calls.map fun pc => pc.result?) = [some (.ok (0, 0))]) &&
            t.sessions[0]?.any fun conn => decide (conn.session.isTerminated = false)) = true := by
    decide +kernel
  obtain ⟨s, path, reached⟩ := (Option.any_eq_true _ _).mp reached
  obtain ⟨before, reached⟩ := Bool.and_eq_true_iff.mp reached
  obtain ⟨returned, unfinished⟩ := of_decide_eq_true before
  obtain ⟨t, onward, reached⟩ := (Option.any_eq_true _ _).mp reached
  obtain ⟨results, reached⟩ := Bool.and_eq_true_iff.mp reached
  obtain ⟨conn, stored, live⟩ := (Option.any_eq_true _ _).mp reached
  exact ⟨s, t, conn, path, onward, returned, unfinished, of_decide_eq_true results, stored, of_decide_eq_true live⟩

end Client

end AnyTls

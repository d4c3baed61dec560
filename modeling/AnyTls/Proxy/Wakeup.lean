import AnyTls.Proxy.PushSafety
import AnyTls.Proxy.Terminating

/-! The wake-up of the receive loop. `recv_loop` loads the closed flag, creates a
`close_notify.notified()` future and waits for it or for bytes; `terminate` swaps the flag, calls
`notify_waiters`, which wakes exactly the futures that exist, and ends the streams. A session
takes the load, the creation and the call in one step each here; without them it is the session
of `Proxy/Session.lean`. -/
namespace AnyTls

/-- `recv_loop` around its wait; `busy` while it handles frames and once it has ended. -/
inductive LoopPc where
  | load
  | subscribe
  | waiting (woken : Bool)
  | busy
deriving DecidableEq, Repr

structure Watched where
  session : Session
  loop : LoopPc
  /-- a `terminate` is past its swap and has yet to call `notify_waiters` -/
  notifying : Bool

inductive WatchAction where
  | load
  | subscribe
  | wake
  | notify
  | session (action : SessionAction)

namespace Watched

/-- `run` after `ensure_started`. -/
def start (iterate : StringMap.Order) (isClient : Bool)
    (padding : PaddingFactory) : Watched :=
  ⟨(Session.new isClient padding).ensureStarted iterate, .load, false⟩

/-- The loop returns `Err` with "Session closed". -/
def leave (w : Watched) : Watched :=
  { w with session := { w.session with recv := .failed sessionClosed }, loop := .busy }

/-- Whether the loop, or `terminate`, is where the step begins. -/
def permits (w : Watched) : SessionAction → Bool
  | .receive _ | .disconnect => (w.loop matches .waiting _)
  | .recvStep => w.loop = .busy
  | .endStep => !w.notifying
  | _ => true

/-- Where a step of the session leaves the loop. -/
def after (w : Watched) (session : Session) : SessionAction → LoopPc
  | .receive _ | .disconnect => .busy
  | .recvStep => if session.recv = .reading then .load else .busy
  | _ => w.loop

def step (md5 : Bytes → String) (w : Watched) : WatchAction → Option Watched
  | .load =>
    if w.loop = .load then some (if w.session.closed then w.leave else { w with loop := .subscribe }) else none
  | .subscribe => if w.loop = .subscribe then some { w with loop := .waiting false } else none
  | .wake => if w.loop = .waiting true then some w.leave else none
  | .notify =>
    if w.notifying then
      some { w with
        notifying := false
        loop := match w.loop with
          | .waiting _ => .waiting true
          | pc => pc }
    else none
  | .session action =>
    if w.permits action then
      (w.session.step md5 action).map fun session =>
        ⟨session, w.after session action, w.notifying || (!w.session.closed && session.closed)⟩
    else none

variable {md5 : Bytes → String} {w v : Watched} {a : WatchAction}

/-- The branches of a step. -/
inductive Turn (md5 : Bytes → String) (w : Watched) : WatchAction → Watched → Prop where
  | sees : w.loop = .load → w.session.closed = true → Turn md5 w .load w.leave
  | loads : w.loop = .load → w.session.closed = false → Turn md5 w .load { w with loop := .subscribe }
  | subscribes : w.loop = .subscribe → Turn md5 w .subscribe { w with loop := .waiting false }
  | wakes : w.loop = .waiting true → Turn md5 w .wake w.leave
  | notifies : w.notifying = true → Turn md5 w .notify { w with
      notifying := false
      loop := match w.loop with
        | .waiting _ => .waiting true
        | pc => pc }
  | moves {action session} : w.permits action = true →
      w.session.step md5 action = some session → Turn md5 w (.session action)
        ⟨session, w.after session action, w.notifying || (!w.session.closed && session.closed)⟩

theorem step_turn (stepped : w.step md5 a = some v) : Turn md5 w a v := by
  cases a with
  | load =>
    simp only [step] at stepped
    split_ifs at stepped with loading closed
    · cases stepped
      exact .sees loading closed
    · cases stepped
      exact .loads loading (by simpa using closed)
  | subscribe =>
    simp only [step] at stepped
    split_ifs at stepped with subscribing
    cases stepped
    exact .subscribes subscribing
  | wake =>
    simp only [step] at stepped
    split_ifs at stepped with woken
    cases stepped
    exact .wakes woken
  | notify =>
    simp only [step] at stepped
    split_ifs at stepped with owed
    cases stepped
    exact .notifies owed
  | session action =>
    simp only [step] at stepped
    split_ifs at stepped with permitted
    obtain ⟨session, moved, rfl⟩ := Option.map_eq_some_iff.mp stepped
    exact .moves permitted moved

/-! ### The session is that of `Proxy/Session.lean` -/

/-- Around its wait the loop is at its read, and a woken loop finds the flag set. -/
structure Attached (w : Watched) : Prop where
  reading : w.loop ≠ .busy → w.session.recv = .reading
  woken : w.loop = .waiting true → w.session.closed = true
  notifying : w.notifying = true → w.session.closed = true

theorem attached_start (iterate : StringMap.Order) (isClient padding) :
    (start iterate isClient padding).Attached where
  reading _ := (Session.fresh_started iterate isClient padding).recv
  woken := by rintro ⟨⟩
  notifying := by rintro ⟨⟩

theorem attached_session {session action} (attached : w.Attached)
    (stepped : w.session.step md5 action = some session) :
    Attached ⟨session, w.after session action, w.notifying || (!w.session.closed && session.closed)⟩ := by
  have stays := (Session.step_settles stepped).closing.stays
  refine ⟨fun waits => ?_, fun woken => ?_, fun owed => ?_⟩
  · cases action with
    | receive | disconnect => exact absurd rfl waits
    | recvStep =>
      simp only [after] at waits
      split_ifs at waits with reading
      · exact reading
      · exact absurd rfl waits
    | _ =>
      cases (Session.step_effect stepped).inbound with
      | same unchanged => exact (congrArg (·.1) unchanged).trans (attached.reading waits)
      | receive _ called | disconnect _ called | recv called => cases called
  · cases action with
    | receive | disconnect => cases woken
    | recvStep =>
      simp only [after] at woken
      split_ifs at woken
    | _ => exact stays (attached.woken woken)
  · simp only [Bool.or_eq_true, Bool.and_eq_true] at owed
    rcases owed with before | ⟨-, now⟩
    · exact stays (attached.notifying before)
    · exact now

theorem attached_step (attached : w.Attached) (stepped : w.step md5 a = some v) : v.Attached := by
  cases step_turn stepped with
  | sees | wakes => exact ⟨fun waits => absurd rfl waits, by rintro ⟨⟩, attached.notifying⟩
  | loads here | subscribes here =>
    exact ⟨fun _ => attached.reading (by simp [here]), by rintro ⟨⟩, attached.notifying⟩
  | notifies owed =>
    refine ⟨fun waits => attached.reading ?_, fun _ => attached.notifying owed, by rintro ⟨⟩⟩
    intro busy
    simp [busy] at waits
  | moves _ moved => exact attached_session attached moved

/-- A step around the wait is a step of the session, or none. -/
theorem session_step (attached : w.Attached) (stepped : w.step md5 a = some v) :
    v.session = w.session ∨ ∃ action, w.session.step md5 action = some v.session := by
  have leaves (reading : w.session.recv = .reading) (closed : w.session.closed = true) :
      w.session.step md5 .recvStep = some w.leave.session := by
    simp [Session.step, Session.recvStep, reading, closed, leave]
  cases step_turn stepped with
  | sees loading closed => exact .inr ⟨.recvStep, leaves (attached.reading (by simp [loading])) closed⟩
  | wakes woken => exact .inr ⟨.recvStep, leaves (attached.reading (by simp [woken])) (attached.woken woken)⟩
  | loads | subscribes | notifies => exact .inl rfl
  | moves _ moved => exact .inr ⟨_, moved⟩

/-- Every run is, without the steps around the wait, a run of the session. -/
theorem session_run {actions} (attached : w.Attached) (path : Transition.run (step md5) w actions = some v) :
    ∃ steps, Transition.run (Session.step md5) w.session steps = some v.session := by
  induction actions generalizing w with
  | nil =>
    cases path
    exact ⟨[], rfl⟩
  | cons a rest ih =>
    obtain ⟨u, stepped, path⟩ := Transition.run_cons_some.mp path
    obtain ⟨steps, later⟩ := ih (attached_step attached stepped) path
    rcases session_step attached stepped with same | ⟨action, moved⟩
    · exact ⟨steps, same ▸ later⟩
    · exact ⟨action :: steps, Transition.run_cons_some.mpr ⟨_, moved, later⟩⟩

/-! ### The wake-up -/

/-- `notify_waiters` is not called between the load of the flag and the creation of the future. -/
def heeded (w : Watched) : WatchAction → Bool
  | .notify => w.loop ≠ .subscribe
  | _ => true

/-- The loop waits on a future that no `notify_waiters` has woken. -/
def parked (w : Watched) : Bool := w.loop = .waiting false

/-- Once `notify_waiters` has been called, the loop neither waits unwoken nor is about to. -/
def Heard (w : Watched) : Prop :=
  w.session.closed = true → w.notifying = false → w.loop ≠ .subscribe ∧ w.parked = false

theorem heard_start (iterate : StringMap.Order) (isClient padding) : (start iterate isClient padding).Heard := by
  intro _ _
  exact ⟨by simp [start], rfl⟩

theorem heard_step (heard : w.Heard) (heeded : w.heeded a = true) (stepped : w.step md5 a = some v) : v.Heard := by
  intro closed told
  cases step_turn stepped with
  | sees | wakes => exact ⟨by simp [leave], rfl⟩
  | loads _ unset => cases closed.symm.trans unset
  | subscribes here => exact absurd here (heard closed told).1
  | notifies =>
    cases pc : w.loop with
    | subscribe => simp [Watched.heeded, pc] at heeded
    | load | waiting | busy => exact ⟨by simp, rfl⟩
  | @moves action session _ moved =>
    simp only [Bool.or_eq_false_iff, Bool.and_eq_false_iff] at told
    have before : w.session.closed = true := by
      rcases told.2 with set | unset
      · simpa using set
      · cases closed.symm.trans unset
    have kept := heard before told.1
    cases action with
    | receive | disconnect => exact ⟨by simp [after], rfl⟩
    | recvStep =>
      simp only [after, parked]
      split_ifs
      · exact ⟨by simp, by simp⟩
      · exact ⟨by simp, by simp⟩
    | _ => exact kept

/-- Only bytes, or the end of the connection, take a parked loop on. -/
theorem parked_stays (told : w.notifying = false) (closed : w.session.closed = true) (waits : w.parked = true)
    (stepped : w.step md5 a = some v) : (v.parked = true ∧ v.notifying = false ∧ v.session.closed = true) ∨
      (∃ chunk, a = .session (.receive chunk)) ∨ a = .session .disconnect := by
  have here : w.loop = .waiting false := by simpa [parked] using waits
  cases step_turn stepped with
  | sees loading | loads loading | subscribes loading | wakes loading => cases here.symm.trans loading
  | notifies owed => cases told.symm.trans owed
  | @moves action session permitted moved =>
    have still : session.closed = true := (Session.step_settles moved).closing.stays closed
    have told : (w.notifying || (!w.session.closed && session.closed)) = false := by simp [told, closed]
    cases action with
    | receive chunk => exact .inr (.inl ⟨chunk, rfl⟩)
    | disconnect => exact .inr (.inr rfl)
    | recvStep => simp [permits, here] at permitted
    | _ => exact .inl ⟨waits, told, still⟩

/-- In every run in which no `notify_waiters` comes between the load of the flag and the creation of
the future: once the session is closed and its waiters are told, the loop is not parked. -/
theorem wakeup_not_lost {iterate : StringMap.Order} {isClient : Bool}
    {padding : PaddingFactory} {actions : List WatchAction}
    (heeded : Transition.Along (step md5) (fun w a => w.heeded a = true) (start iterate isClient padding) actions)
    (path : Transition.run (step md5) (start iterate isClient padding) actions = some w)
    (closed : w.session.closed = true) (told : w.notifying = false) : w.parked = false := by
  have heard : w.Heard := Transition.invariant_along heard_step (heard_start iterate isClient padding) heeded path
  exact (heard closed told).2

def endedWhileWaiting : List WatchAction :=
  [.load, .subscribe, .session .terminate, .notify, .session .endStep, .session .endStep]

theorem endedWhileWaiting_woken : ∃ w,
    Transition.run (step fun _ => "") (start AList.entries false Session.plainPadding) endedWhileWaiting = some w ∧
    w.session.closed = true ∧ w.session.ending = .none ∧ w.loop = .waiting true ∧ w.parked = false := by
  have reached : (Transition.run (step fun _ => "") (start AList.entries false Session.plainPadding)
      endedWhileWaiting).any (fun w => decide (w.session.closed = true ∧ w.session.ending = .none ∧
        w.loop = .waiting true ∧ w.notifying = false)) = true := by decide +kernel
  obtain ⟨w, path, reached⟩ := (Option.any_eq_true _ _).mp reached
  obtain ⟨closed, completed, woken, told⟩ := of_decide_eq_true reached
  exact ⟨w, path, closed, completed, woken, wakeup_not_lost (by decide +kernel) path closed told⟩

/-- The flag is loaded before `terminate` sets it, and the future created after `notify_waiters`. -/
theorem loaded_parked : ∃ w, Transition.run (step fun _ => "") (start AList.entries false Session.plainPadding)
      [.load, .session .terminate, .notify, .subscribe, .session .endStep, .session .endStep] = some w ∧
    w.session.closed = true ∧ w.notifying = false ∧ w.session.ending = .none ∧ w.parked = true ∧
    ∀ a v, w.step (fun _ => "") a = some v → v.parked = true ∨
      (∃ chunk, a = .session (.receive chunk)) ∨ a = .session .disconnect := by
  refine ⟨_, rfl, rfl, rfl, rfl, rfl, fun a v stepped => ?_⟩
  exact (parked_stays rfl rfl rfl stepped).imp_left And.left

end Watched

end AnyTls

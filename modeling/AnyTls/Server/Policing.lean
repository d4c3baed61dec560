import AnyTls.Library.Transition
import AnyTls.Server.ConnectionSteps
import AnyTls.Server.HandlerReads

/-! How a user that may not go on is stopped. Each loop of a relay asks once a second, and what it
does on a denial is final: the stream is marked closed before the handler comes back to its loop,
where a closed stream ends it, so that nothing more is counted by that loop and no other
destination is read, whatever the user's state becomes later. -/
namespace AnyTls
variable {Address : Type}

namespace Tally

@[simp] theorem answered_up (bytes result) : (answered bytes result).up = 0 := by
  cases result <;> rfl

@[simp] theorem answered_down (bytes result) : (answered bytes result).down = 0 := by
  cases result <;> rfl

@[simp] theorem written_up (bytes result) : (written bytes result).up = 0 := by
  cases result <;> rfl

end Tally

/-- What a loop counts. -/
def Half.count (tally : Tally) : Half → Nat
  | .s2o => tally.up
  | .o2s => tally.down
  | .uot => tally.up + tally.down

def S2oPc.Stopped (closed : Bool) : S2oPc → Prop
  | .closing pc => pc ≠ .mark → closed = true
  | .shutdown _ | .done => closed = true
  | .select | .writing _ => False

def O2sPc.Stopped (closed : Bool) : O2sPc → Prop
  | .closing pc => pc ≠ .mark → closed = true
  | .done => closed = true
  | .select => False

/-- The loop has been denied: it is closing the stream, or past that with the stream closed. -/
def Half.Stopped (closed : Bool) (half : Half) : Phase Address → Prop
  | .check => closed = true
  | .returned _ | .panicked => True
  | .tcpRelay upward downward _ =>
    match half with
    | .s2o => upward.Stopped closed
    | .o2s => downward.Stopped closed
    | .uot => False
  | .closing pc .again => half = .uot ∧ (pc ≠ .mark → closed = true)
  | _ => False

namespace Handler
variable {codec : AddressCodec Address} {h next : Handler Address} {half : Half} {action : HandlerAction}

/-- The handler's loop `half` has been denied. -/
def Stopped (half : Half) (h : Handler Address) : Prop := half.Stopped h.stream.closed h.phase

theorem Stopped.mono {before after : Bool} {phase : Phase Address} (stopped : half.Stopped before phase)
    (later : before = true → after = true) : half.Stopped after phase := by
  cases phase with
  | check => exact later stopped
  | returned | panicked => trivial
  | tcpRelay s2o o2s cancel =>
    cases half with
    | s2o =>
      cases s2o with
      | closing pc => exact fun past => later (stopped past)
      | shutdown | done => exact later stopped
      | select | writing => exact stopped
    | o2s =>
      cases o2s with
      | closing pc => exact fun past => later (stopped past)
      | done => exact later stopped
      | select => exact stopped
    | uot => exact stopped
  | closing pc after =>
    cases after with
    | again => exact ⟨stopped.1, fun past => later (stopped.2 past)⟩
    | returnOk | returnError => exact stopped
  | _ => exact stopped

theorem denied_stops (stepped : h.step codec (half.action false) = some next) : next.Stopped half := by
  cases half with
  | s2o =>
    simp only [Half.action, step] at stepped
    split at stepped
    · simp only [Handler.s2o] at stepped
      split at stepped
      · cases stepped
        exact fun past => absurd rfl past
      · cases stepped
    · cases stepped
  | o2s =>
    simp only [Half.action, step] at stepped
    split at stepped
    · simp only [Handler.o2s] at stepped
      split at stepped
      · cases stepped
        exact fun past => absurd rfl past
      · cases stepped
    · cases stepped
  | uot =>
    simp only [Half.action, step] at stepped
    split at stepped
    · simp only [Handler.relay] at stepped
      split at stepped
      · cases stepped
        exact ⟨rfl, fun past => absurd rfl past⟩
      · cases stepped
    · cases stepped

theorem Stopped.quiet {phase} (stopped : half.Stopped h.stream.closed h.phase)
    (quiet : Quiet codec h action phase) : half.Stopped h.stream.closed phase := by
  cases quiet with
  | proceeds here open_ =>
    rw [here] at stopped
    have closed : h.stream.closed = true := stopped
    simp [ServerStream.isTerminated, closed] at open_
  | joins cancel here =>
    rw [here] at stopped
    cases half with
    | s2o | o2s => exact stopped
    | uot => cases stopped
  | s2oCancelled _ here | s2oTick _ _ _ here | s2oWrote _ _ _ here | s2oFails _ _ _ _ here
  | s2oShutdown _ _ _ _ _ here =>
    rw [here] at stopped
    cases half with
    | s2o => first | exact stopped | cases stopped
    | o2s => exact stopped
    | uot => cases stopped
  | o2sCancelled _ here | o2sTick _ _ _ here | o2sEof _ _ here | o2sWrote _ _ _ here
  | o2sRefused _ _ _ here | o2sFails _ _ _ here =>
    rw [here] at stopped
    cases half with
    | s2o => exact stopped
    | o2s | uot => cases stopped
  | terminated | exits | fails | createFails | handshakeFails | relayFails | relayPanics => trivial
  | approved here | denied here | created _ _ here | ready _ here | readyFails _ _ here | connects _ here
  | connectFails _ _ here | uotStarts _ here | tcpStarts _ here | refuses _ here | relayEnds _ here
  | relayDenied _ here =>
    rw [here] at stopped
    cases stopped

theorem Stopped.close {stream : ServerStream} {pc : ClosePc} {outcome : ClosePc ⊕ Except IoError Unit}
    {before after : Phase Address} (stopped : half.Stopped stream.closed before)
    (closes : Closes before pc outcome after) : half.Stopped (stream.closeStep pc).1.closed after := by
  have later : stream.closed = true → (stream.closeStep pc).1.closed = true := fun closed =>
    ServerStream.closeStep_closed fun _ => closed
  cases closes with
  | main pc next after =>
    cases after with
    | again => exact ⟨stopped.1, fun _ => ServerStream.closeStep_closed stopped.2⟩
    | returnOk | returnError => cases stopped
  | mainDone pc after result =>
    cases after with
    | again => exact ServerStream.closeStep_closed stopped.2
    | returnOk | returnError => cases stopped
  | s2o pc next o2s cancel =>
    cases half with
    | s2o => exact fun _ => ServerStream.closeStep_closed stopped
    | o2s => exact Stopped.mono stopped later
    | uot => cases stopped
  | s2oDone pc o2s cancel result =>
    cases half with
    | s2o => exact ServerStream.closeStep_closed stopped
    | o2s => exact Stopped.mono stopped later
    | uot => cases stopped
  | o2s pc next s2o cancel =>
    cases half with
    | s2o => exact Stopped.mono stopped later
    | o2s => exact fun _ => ServerStream.closeStep_closed stopped
    | uot => cases stopped
  | o2sDone pc s2o cancel result =>
    cases half with
    | s2o => exact Stopped.mono stopped later
    | o2s => exact ServerStream.closeStep_closed stopped
    | uot => cases stopped

/-- A stopped loop stays stopped, and no destination is read. -/
theorem Stopped.step (stopped : h.Stopped half) (stepped : h.step codec action = some next) :
    next.Stopped half ∧ next.destinations = h.destinations := by
  have phase : half.Stopped h.stream.closed h.phase := stopped
  cases step_moved stepped with
  | session event stream happened => exact ⟨Stopped.mono phase (event_stays happened).1, rfl⟩
  | quiet _ after quiet =>
    have kept := Stopped.quiet phase quiet
    exact ⟨kept, rfl⟩
  | close _ pc after closes => exact ⟨Stopped.close phase closes, rfl⟩
  | retrieve _ _ _ _ _ _ here | request _ _ _ _ _ _ here | relay _ _ _ _ here =>
    rw [here] at phase
    cases phase
  | s2oPoll o2s cancel pipe readFut result here =>
    rw [here] at phase
    cases half with
    | s2o | uot => cases phase
    | o2s =>
      refine ⟨?_, rfl⟩
      show Half.Stopped _ _ (relayRead o2s cancel result)
      cases result with
      | ready bytes => cases bytes <;> exact phase
      | pending | failed => exact phase
      | panicked => trivial

theorem s2o_phase {act} (stepped : h.step codec (.s2o act) = some next) :
    ∃ pc o2s cancel, h.phase = .tcpRelay pc o2s cancel ∧ h.s2o pc o2s cancel act = some next := by
  simp only [Handler.step] at stepped
  split at stepped
  · exact ⟨_, _, _, ‹_›, stepped⟩
  · cases stepped

theorem o2s_phase {act} (stepped : h.step codec (.o2s act) = some next) :
    ∃ s2o pc cancel, h.phase = .tcpRelay s2o pc cancel ∧ h.o2s s2o pc cancel act = some next := by
  simp only [Handler.step] at stepped
  split at stepped
  · exact ⟨_, _, _, ‹_›, stepped⟩
  · cases stepped

theorem relay_phase {act} (stepped : h.step codec (.relay act) = some next) :
    ∃ relay, h.phase = .uotRelay relay ∧ h.relay codec relay act = some next := by
  simp only [Handler.step] at stepped
  split at stepped
  · exact ⟨_, ‹_›, stepped⟩
  · cases stepped

theorem resolve_own {approved act resolved} (resolves : h.resolve codec approved (.own act) = some resolved) :
    resolved = act := by
  simp only [resolve] at resolves
  split_ifs at resolves
  exact (Option.some.inj resolves).symm

section
variable {approved : Int64 → Bool} {act : TaskAction Address} {resolved : HandlerAction}

/-- Bytes from the stream are counted by a loop at its `select!`. -/
theorem tally_up (resolves : h.resolve codec approved act = some resolved)
    (stepped : h.step codec resolved = some next) (counts : (h.tally codec next act).up ≠ 0) :
    (∃ o2s cancel, h.phase = .tcpRelay .select o2s cancel) ∨ ∃ relay, h.phase = .uotRelay relay := by
  unfold tally at counts
  split at counts
  · obtain rfl := resolve_own resolves
    obtain ⟨pc, o2s, cancel, here, moved⟩ := s2o_phase stepped
    simp only [Handler.s2o] at moved
    split at moved
    · exact .inl ⟨o2s, cancel, here⟩
    · cases moved
  · split at counts
    · exact absurd (Tally.answered_up _ _) counts
    · exact absurd rfl counts
  · exact absurd (Tally.written_up _ _) counts
  · obtain rfl := resolve_own resolves
    obtain ⟨relay, here, -⟩ := relay_phase stepped
    exact .inr ⟨relay, here⟩
  · obtain rfl := resolve_own resolves
    obtain ⟨relay, here, -⟩ := relay_phase stepped
    exact .inr ⟨relay, here⟩
  · split at counts
    · exact .inr ⟨_, ‹_›⟩
    · exact absurd rfl counts
  · exact absurd rfl counts

/-- Bytes for the stream are counted by a loop at its `select!`. -/
theorem tally_down (resolves : h.resolve codec approved act = some resolved)
    (stepped : h.step codec resolved = some next) (counts : (h.tally codec next act).down ≠ 0) :
    (∃ s2o cancel, h.phase = .tcpRelay s2o .select cancel) ∨ ∃ relay, h.phase = .uotRelay relay := by
  unfold tally at counts
  split at counts
  · split at counts <;> exact absurd rfl counts
  · split at counts
    · exact absurd (Tally.answered_down _ _) counts
    · exact absurd rfl counts
  · obtain rfl := resolve_own resolves
    obtain ⟨s2o, pc, cancel, here, moved⟩ := o2s_phase stepped
    simp only [Handler.o2s] at moved
    split at moved
    · exact .inl ⟨s2o, cancel, here⟩
    · exact .inl ⟨s2o, cancel, here⟩
    · exact .inl ⟨s2o, cancel, here⟩
    · cases moved
  · split at counts <;> exact absurd rfl counts
  · split at counts
    · exact absurd (Tally.answered_down _ _) counts
    · exact absurd rfl counts
  · split at counts
    · exact .inr ⟨_, ‹_›⟩
    · exact absurd rfl counts
  · exact absurd rfl counts

/-- A stopped loop counts nothing. -/
theorem Stopped.count (stopped : h.Stopped half) (resolves : h.resolve codec approved act = some resolved)
    (stepped : h.step codec resolved = some next) : half.count (h.tally codec next act) = 0 := by
  have phase : half.Stopped h.stream.closed h.phase := stopped
  have upward : half ≠ .o2s → (h.tally codec next act).up = 0 := by
    intro other
    by_contra counts
    rcases tally_up resolves stepped counts with ⟨o2s, cancel, here⟩ | ⟨relay, here⟩
    · rw [here] at phase
      cases half with
      | s2o | uot => exact phase
      | o2s => exact other rfl
    · rw [here] at phase
      exact phase
  have downward : half ≠ .s2o → (h.tally codec next act).down = 0 := by
    intro other
    by_contra counts
    rcases tally_down resolves stepped counts with ⟨s2o, cancel, here⟩ | ⟨relay, here⟩
    · rw [here] at phase
      cases half with
      | s2o => exact other rfl
      | o2s | uot => exact phase
    · rw [here] at phase
      exact phase
  cases half with
  | s2o => exact upward nofun
  | o2s => exact downward nofun
  | uot => exact Nat.add_eq_zero_iff.mpr ⟨upward nofun, downward nofun⟩

end

end Handler

theorem Half.count_add (half : Half) (a b : Tally) : half.count (a.add b) = half.count a + half.count b := by
  cases half with
  | s2o | o2s => rfl
  | uot => simp only [Half.count, Tally.add]; omega

namespace ServerNode
variable {crates : ServerCrates Address} {config : ServerConfig} {s s' t : ServerNode Address}
  {a : ServerAction Address} {i k : Nat} {half : Half}

/-- The handler of stream `k` on connection `i`. -/
def task? (s : ServerNode Address) (i k : Nat) : Option (StreamTask Address) :=
  (s.connections[i]?).bind fun c => c.tasks[k]?

/-- A stream handler stays as it is, or takes the step. -/
theorem task_step (stepped : s.step crates config a = some t) {task} (found : s.task? i k = some task) :
    ∃ after, t.task? i k = some after ∧ (after = task ∨ ∃ c act counted, s.connections[i]? = some c ∧
      a = .connection i (.task k act) ∧
      task.step crates.codec (c.approved config s.stores) act = some (after, counted)) := by
  obtain ⟨c, placed, inside⟩ := Option.bind_eq_some_iff.mp found
  obtain ⟨c', placed', same | ⟨action, stores, rfl, moved⟩⟩ := (step_moved stepped).connection_at placed
  · exact ⟨task, by rw [task?, placed', Option.bind_some, same, inside], .inl rfl⟩
  · obtain ⟨after, inside', same | ⟨act, counted, rfl, taken⟩⟩ := moved.task_at inside
    · exact ⟨after, by rw [task?, placed', Option.bind_some, inside'], .inl same⟩
    · exact ⟨after, by rw [task?, placed', Option.bind_some, inside'], .inr ⟨c, act, counted, placed, rfl, taken⟩⟩

/-- The step of a stream handler. -/
theorem task_taken {c} (placed : s.connections[i]? = some c) {act}
    (stepped : s.step crates config (.connection i (.task k act)) = some t) :
    ∃ task after, s.task? i k = some task ∧ t.task? i k = some after ∧
      ∃ counted, task.step crates.codec (c.approved config s.stores) act = some (after, counted) := by
  cases step_moved stepped with
  | @connection _ _ before next stores placed' moved =>
    cases placed'.symm.trans placed
    cases moved with
    | own advanced =>
      cases advanced with
      | ends _ _ other => exact absurd rfl (other k act)
    | @task _ _ task after counted inside taken =>
      refine ⟨task, after, by rw [task?, placed, Option.bind_some, inside], ?_, counted, taken⟩
      have first := (List.getElem?_eq_some_iff.mp placed).1
      have second := (List.getElem?_eq_some_iff.mp inside).1
      rw [task?, List.getElem?_set_self first, Option.bind_some, List.getElem?_set_self second]

/-- The loop of a stream handler is stopped, with what it has counted and where it has been. -/
def StoppedAt (half : Half) (i k count : Nat) (destinations : List Address) (s : ServerNode Address) : Prop :=
  ∃ task, s.task? i k = some task ∧ task.handler.Stopped half ∧ half.count task.tally = count ∧
    task.handler.destinations = destinations

theorem stoppedAt_step {count destinations} (stopped : s.StoppedAt half i k count destinations)
    (stepped : s.step crates config a = some t) : t.StoppedAt half i k count destinations := by
  obtain ⟨task, found, loop, counted, read⟩ := stopped
  obtain ⟨after, found', rfl | ⟨c, act, more, placed, rfl, taken⟩⟩ := task_step stepped found
  · exact ⟨after, found', loop, counted, read⟩
  · obtain ⟨resolved, resolves, moved, rfl, total⟩ := StreamTask.step_eq_some.mp taken
    obtain ⟨loop', read'⟩ := loop.step moved
    refine ⟨after, found', loop', ?_, read'.trans read⟩
    rw [total, Half.count_add, loop.count resolves moved, counted, Nat.add_zero]

/-- A denial is final. Once a loop of a stream handler has asked and been denied, it counts
nothing more and its handler reads no other destination, in any continuation: also when the user
is let in again. -/
theorem denied_loop_stops (crates : ServerCrates Address) (config : ServerConfig) {c : ServerConnection Address}
    (placed : s.connections[i]? = some c) {now : Int64} (denied : c.approved config s.stores now = false)
    (ticked : s.step crates config (.connection i (.task k (.tick half now))) = some s')
    {more : List (ServerAction Address)} (path : Transition.run (step crates config) s' more = some t) :
    ∃ before after, s'.task? i k = some before ∧ t.task? i k = some after ∧
      half.count after.tally = half.count before.tally ∧
      after.handler.destinations = before.handler.destinations := by
  obtain ⟨task, before, found, found', counted, taken⟩ := task_taken placed ticked
  obtain ⟨resolved, resolves, stepped, -, -⟩ := StreamTask.step_eq_some.mp taken
  obtain rfl : half.action false = resolved := by
    simpa only [Handler.resolve, denied, Option.some.injEq] using resolves
  have stopped : s'.StoppedAt half i k (half.count before.tally) before.handler.destinations :=
    ⟨before, found', Handler.denied_stops stepped, rfl, rfl⟩
  obtain ⟨after, last, -, same, read⟩ := Transition.invariant stoppedAt_step stopped path
  exact ⟨before, after, found', last, same, read⟩

/-- A server of IPv4 destinations, whose hash keeps the length of a password and whose parser
knows one body, that of nobody. -/
def lengthCrates : ServerCrates (Bytes × UInt16) where
  codec := ipv4Codec
  uuid := oneUuid
  hashPassword password := ⟨List.replicate 32 (UInt8.ofNat password.length), List.length_replicate⟩
  fromSlice bytes := if bytes = [] then .ok ∅ else .error "expected value"

def oneUser : UsersPutBody := (∅ : UsersPutBody).insert "a" ⟨"p", 0, 0⟩

def perUser : ServerConfig := ⟨none, false, none⟩

def noPanel : PanelSyncConfig := ⟨none, none, none⟩

/-- The user connects and opens a stream, whose handler passes its check. -/
def admission : List (ServerAction (Bytes × UInt16)) :=
  .accept :: [ConnAction.read (.ok (List.replicate 32 1 ++ [0, 0])), .authenticate 0, .authenticate 0, .authenticate 0,
    .authenticate 0, .approve 0, .opened 2, .task 0 (.own .advance), .task 0 (.approve 0)].map (.connection 0)

/-- The handler relays to 9.9.9.9:80. -/
def relayed : List (ServerAction (Bytes × UInt16)) :=
  ([HandlerAction.session (.push [1, 9, 9, 9, 9, 0, 80, 7])] ++ List.replicate 9 HandlerAction.poll ++
    [HandlerAction.connected (.ok ()), .advance]).map fun action => .connection 0 (.task 0 (.own action))

/-- `PUT /users` with nobody in it. -/
def putNobody : List (ServerAction (Bytes × UInt16)) :=
  [.request ⟨.put, "/users".toList, none, some 0⟩, .api 0 (.ok []), .api 0 (.ok [])]

/-- The half from the stream is denied while a byte waits in the pipe. -/
theorem revoked_loop_stops : ∃ s s' t, ∃ before after : StreamTask (Bytes × UInt16),
    Transition.run (step lengthCrates perUser) (start lengthCrates noPanel oneUser) (admission ++ relayed ++ putNobody) =
      some s ∧
    s.step lengthCrates perUser (.connection 0 (.task 0 (.tick .s2o 0))) = some s' ∧
    Transition.run (step lengthCrates perUser) s' (List.replicate 4 (.connection 0 (.task 0 (.own (.s2o .close))))) =
      some t ∧
    s'.task? 0 0 = some before ∧ t.task? 0 0 = some after ∧
    Half.s2o.count after.tally = Half.s2o.count before.tally ∧
    after.handler.destinations = before.handler.destinations := by
  have runs : (Transition.run (step lengthCrates perUser) (start lengthCrates noPanel oneUser)
      (admission ++ relayed ++ putNobody)).any (fun s =>
        s.connections[0]?.any (fun c => !c.approved perUser s.stores 0) &&
        (s.step lengthCrates perUser (.connection 0 (.task 0 (.tick .s2o 0)))).any fun s' =>
          (Transition.run (step lengthCrates perUser) s'
            (List.replicate 4 (.connection 0 (.task 0 (.own (.s2o .close)))))).isSome) = true := by
    decide +kernel
  obtain ⟨s, reached, both⟩ := (Option.any_eq_true _ _).mp runs
  rw [Bool.and_eq_true] at both
  obtain ⟨c, placed, denied⟩ := (Option.any_eq_true _ _).mp both.1
  obtain ⟨s', ticked, goes⟩ := (Option.any_eq_true _ _).mp both.2
  obtain ⟨t, path⟩ := Option.isSome_iff_exists.mp goes
  rw [Bool.not_eq_true'] at denied
  obtain ⟨before, after, found⟩ := denied_loop_stops lengthCrates perUser placed denied ticked path
  exact ⟨s, s', t, before, after, reached, ticked, path, found⟩

end ServerNode

end AnyTls

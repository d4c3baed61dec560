import AnyTls.Proxy.Opening
import AnyTls.Proxy.PushSafety

/-! The idle flag of a session. A stream is put into the table and the flag cleared in one
lock section, but a removal that has emptied the table sets the flag only after it has
left the lock. The flag agrees with the table as long as no stream is put into it in
between. -/
namespace AnyTls

/-- The receive loop has emptied the table and has yet to say so. -/
def RecvPc.publishes : RecvPc → Bool
  | .closeAnnounce _ isIdle _ _ => isIdle
  | _ => false

def OpenPc.publishes : OpenPc → Bool
  | .undoAnnounce _ isIdle => isIdle
  | _ => false

def WriterPc.publishes : WriterPc → Bool
  | .announcing isIdle => isIdle
  | _ => false

namespace Session
variable {s t : Session} {a : SessionAction}

/-- A removal that has emptied the table has yet to say so. -/
def publishes (s : Session) : Bool :=
  s.recv.publishes || s.opens.any OpenPc.publishes || s.objects.any (·.writer.publishes)

/-- The action puts a stream into the table. -/
def inserts (s : Session) : SessionAction → Bool
  | .recvStep =>
    match s.recv with
    | .incoming sid _ => (s.streams.lookup sid).isNone
    | _ => false
  | .openStep i =>
    match s.opens[i]? with
    | some (.insert maxStreams) =>
      !s.closed && decide (s.streams.keys.length < maxStreams) && decide (s.nextStreamId + 1 ≠ 0)
    | _ => false
  | _ => false

/-- What a step does to the table, to the flag and to the removals that owe it. -/
inductive Occupancy (s : Session) (a : SessionAction) (t : Session) : Prop where
  | same : t.streams = s.streams → t.idleState = s.idleState → t.publishes = s.publishes → Occupancy s a t
  | inserted (sid ref) : s.inserts a = true → t.streams = s.streams.insert sid ref →
      t.idleState = false → t.publishes = s.publishes → Occupancy s a t
  | removed (sid) : t.streams = s.streams.erase sid → t.idleState = s.idleState →
      t.publishes = (s.publishes || t.streams.keys.isEmpty) → Occupancy s a t
  | published : s.publishes = true → t.streams = s.streams → t.idleState = true → Occupancy s a t
  | cleared : t.streams = ∅ → t.idleState = true → Occupancy s a t

/-- A step of the receive loop that neither empties the table nor says so. -/
theorem Occupancy.recv (streams : t.streams = s.streams) (idle : t.idleState = s.idleState)
    (opens : t.opens = s.opens) (objects : t.objects.map (·.writer) = s.objects.map (·.writer))
    (next : t.recv.publishes = s.recv.publishes) : Occupancy s a t := by
  refine .same streams idle ?_
  have writers := congrArg (List.any · WriterPc.publishes) objects
  simp only [List.any_map] at writers
  simp only [publishes, opens, next]
  exact congrArg _ writers

theorem publishes_call {ref o f isIdle} (stored : s.objects[ref]? = some o)
    (objects : t.objects = s.objects.modify ref f) (recv : t.recv = s.recv) (opens : t.opens = s.opens)
    (was : o.writer.publishes = false) (next : (f o).writer.publishes = isIdle) :
    t.publishes = (s.publishes || isIdle) := by
  have writers := ListUpdate.any_modify (f := f) (p := fun o : StreamObject => o.writer.publishes) stored was
  simp only [publishes, recv, opens, objects, writers, next, Bool.or_assoc]

theorem publishes_open {i pc next isIdle} (placed : s.opens[i]? = some pc)
    (opens : t.opens = s.opens.set i next) (recv : t.recv = s.recv)
    (objects : t.objects.any (·.writer.publishes) = s.objects.any (·.writer.publishes))
    (was : pc.publishes = false) (moved : next.publishes = isIdle) : t.publishes = (s.publishes || isIdle) := by
  have calls := ListUpdate.any_set (b := next) placed was
  simp only [publishes, recv, opens, objects, calls, moved, ← Bool.or_assoc]
  exact Bool.or_right_comm ..

/-- A step of a call on one stream that does neither. -/
theorem Occupancy.call {ref o f} (stored : s.objects[ref]? = some o)
    (objects : t.objects = s.objects.modify ref f) (streams : t.streams = s.streams)
    (idle : t.idleState = s.idleState) (recv : t.recv = s.recv) (opens : t.opens = s.opens)
    (was : o.writer.publishes = false) (next : (f o).writer.publishes = false) : Occupancy s a t := by
  refine .same streams idle ?_
  rw [publishes_call stored objects recv opens was next, Bool.or_false]

/-- A step of an `open_stream` call that does neither. -/
theorem Occupancy.open {i pc next} (placed : s.opens[i]? = some pc) (opens : t.opens = s.opens.set i next)
    (objects : t.objects.any (·.writer.publishes) = s.objects.any (·.writer.publishes))
    (streams : t.streams = s.streams) (idle : t.idleState = s.idleState) (recv : t.recv = s.recv)
    (was : pc.publishes = false) (moved : next.publishes = false) : Occupancy s a t := by
  refine .same streams idle ?_
  rw [publishes_open placed opens recv objects was moved, Bool.or_false]

/-- An update that leaves the writing task alone. -/
theorem any_writer {ref f} (same : ∀ o, (f o).writer = o.writer) :
    (s.objects.modify ref f).any (·.writer.publishes) = s.objects.any (·.writer.publishes) := by
  have writers : (s.objects.modify ref f).map (·.writer) = s.objects.map (·.writer) := ListUpdate.map_modify same
  have tests := congrArg (List.any · WriterPc.publishes) writers
  simp only [List.any_map] at tests
  exact tests

theorem Turns.silent {next} (turns : Turns s next) :
    s.recv.publishes = false ∧ next.publishes = false := by
  cases turns with
  | woken receiving | drained receiving | applied receiving | refused receiving | pushes receiving
  | pushUnknown receiving | synZero receiving | synLate receiving | synPasses receiving | synKnown receiving
  | acked receiving | ackLost receiving | alerted receiving | pushIgnored receiving | pushChecked receiving
  | pushClosed receiving | pushOpen receiving | pushRefused receiving | pushForgiven receiving | pushFails receiving
  | markedBefore receiving =>
    rw [receiving]
    exact ⟨rfl, rfl⟩

theorem Waits.silent {pc next} (waits : Waits s pc next) : pc.publishes = false ∧ next.publishes = false := by
  cases waits with
  | _ => exact ⟨rfl, rfl⟩

theorem step_occupancy {md5} (calls : s.Opening) (stepped : s.step md5 a = some t) :
    Occupancy s a t := by
  cases step_move stepped with
  | asks maxStreams =>
    refine .same rfl rfl ?_
    simp only [publishes, List.any_append, List.any_cons, List.any_nil]
    rw [show OpenPc.publishes (.check maxStreams) = false from rfl, Bool.or_false, Bool.or_false]
  | waits placed waiting => exact .open placed rfl rfl rfl rfl rfl waiting.silent.1 waiting.silent.2
  | exhausts placed => exact .open placed rfl rfl rfl rfl rfl rfl rfl
  | inserts placed unset room numbered =>
    refine .inserted _ s.objects.length ?_ rfl rfl ?_
    · simp [inserts, placed, unset, room, numbered]
    · rw [← Bool.or_false s.publishes]
      refine publishes_open placed rfl rfl ?_ rfl rfl
      simp only [List.any_append, List.any_cons, List.any_nil]
      exact Bool.or_false _
  | synSent placed stored =>
    refine .open placed rfl ?_ rfl rfl rfl rfl rfl
    have waiting := calls.opening _ _ _ placed stored
    exact (ListUpdate.any_modify (p := fun o : StreamObject => o.writer.publishes) stored (by rw [waiting]; rfl)).trans
      (Bool.or_false _)
  | undoRemoves placed => exact .removed _ rfl rfl (publishes_open placed rfl rfl rfl rfl rfl)
  | @undoAnnounces _ _ isIdle placed =>
    cases isIdle with
    | true =>
      have listed : s.opens.any OpenPc.publishes = true :=
        List.any_eq_true.mpr ⟨_, List.mem_of_getElem? placed, rfl⟩
      exact .published (by rw [publishes, listed, Bool.or_true, Bool.true_or]) rfl (Bool.or_true _)
    | false => exact .open placed rfl rfl rfl (Bool.or_false _) rfl rfl rfl
  | undoMarks placed | undoFinishes placed =>
    exact .open placed rfl (any_writer fun _ => rfl) rfl rfl rfl rfl rfl
  | writes buf stored ready =>
    refine .call stored rfl rfl rfl rfl rfl (by rw [ready]; rfl) ?_
    unfold StreamObject.startWrite
    split_ifs
    · rfl
    · rfl
  | @closes _ o stored ready =>
    have quiet : o.writer.publishes = false := by rw [ready]; rfl
    refine .call stored rfl rfl rfl rfl rfl quiet ?_
    unfold StreamObject.startClose
    split_ifs
    · exact quiet
    · rfl
  | pshSent stored writing | finSent stored writing | spawns stored writing =>
    exact .call stored rfl rfl rfl rfl rfl (by rw [writing]; rfl) rfl
  | sendRefused stored writing =>
    refine .call stored rfl rfl rfl rfl rfl ?_ rfl
    rcases writing with ⟨buf, sending⟩ | finishing
    · rw [sending]
      rfl
    · rw [finishing]
      rfl
  | removes stored removing =>
    exact .removed _ rfl rfl (publishes_call stored rfl rfl rfl (by rw [removing]; rfl) rfl)
  | @announces _ o isIdle stored announcing =>
    cases isIdle with
    | true =>
      have listed : s.objects.any (·.writer.publishes) = true :=
        List.any_eq_true.mpr ⟨o, List.mem_of_getElem? stored, by rw [announcing]; rfl⟩
      exact .published (by rw [publishes, listed, Bool.or_true]) rfl (Bool.or_true _)
    | false => exact .call stored rfl rfl (Bool.or_false _) rfl rfl (by rw [announcing]; rfl) rfl
  | pipeCloses | reads | readDrops | endMarks | endFinishes =>
    exact .recv rfl rfl rfl (ListUpdate.map_modify fun _ => rfl) rfl
  | @readSteps _ _ len _ pipe state | @readExpires _ _ len _ pipe state =>
    refine .recv rfl rfl rfl (ListUpdate.map_modify fun o => ?_) rfl
    obtain ⟨reader, got, eof, firstEnd, same⟩ := o.afterRead_eq len pipe state
    rw [same]
  | receives receiving | disconnects receiving | alerts receiving | handles receiving | releases receiving
  | fails receiving => exact .recv rfl rfl rfl rfl (by rw [receiving]; rfl)
  | turns turning => exact .recv rfl rfl rfl rfl (turning.silent.2.trans turning.silent.1.symm)
  | answers receiving sending =>
    refine .recv rfl rfl rfl rfl ?_
    rw [receiving]
    cases sending with
    | _ => rfl
  | ends receiving =>
    refine .removed _ rfl rfl ?_
    simp only [publishes, receiving, RecvPc.publishes, Bool.false_or]
    exact (Bool.or_assoc ..).trans (Bool.or_comm ..)
  | creates receiving absent =>
    refine .inserted _ s.objects.length ?_ rfl rfl ?_
    · simp only [inserts, receiving, absent, Option.isNone_none]
    · simp only [publishes, receiving, RecvPc.publishes, List.any_append, List.any_cons, List.any_nil]
      exact congrArg _ (Bool.or_false _)
  | pushed receiving | closeMarks receiving | closeFinishes receiving =>
    exact .recv rfl rfl rfl (ListUpdate.map_modify fun _ => rfl) (by rw [receiving]; rfl)
  | @closeAnnounces ref isIdle _ _ receiving =>
    cases isIdle with
    | true => exact .published (by rw [publishes, receiving]; rfl) rfl (Bool.or_true _)
    | false =>
      refine .recv rfl (Bool.or_false _) rfl rfl ?_
      rw [receiving]
      cases ref with
      | none => rfl
      | some ref => rfl
  | clears => exact .cleared rfl rfl
  | acknowledges | acknowledged | terminates | endsAll | endSkips | emits | writerFails =>
    exact .recv rfl rfl rfl rfl rfl

/-! ### Agreement -/

/-- The flag agrees with the table, up to what a removal has yet to say. -/
structure FlagAgrees (s : Session) : Prop where
  empty : s.idleState = true → s.streams.keys = []
  flag : s.streams.keys = [] → s.idleState = true ∨ s.publishes = true
  owed : s.publishes = true → s.streams.keys = []

theorem flagAgrees_step (agrees : s.FlagAgrees) (apart : s.publishes = true → s.inserts a = false)
    (occupancy : Occupancy s a t) : t.FlagAgrees := by
  cases occupancy with
  | same streams idle publishes =>
    constructor
    · rw [idle, streams]
      exact agrees.empty
    · rw [idle, streams, publishes]
      exact agrees.flag
    · rw [publishes, streams]
      exact agrees.owed
  | inserted sid ref inserts streams idle publishes =>
    have silent : t.publishes = false := by
      rw [publishes]
      by_contra owed
      rw [Bool.not_eq_false] at owed
      cases inserts.symm.trans (apart owed)
    constructor
    · intro set
      cases idle.symm.trans set
    · intro empty
      rw [streams, AList.keys_insert] at empty
      cases empty
    · intro owed
      cases silent.symm.trans owed
  | removed sid streams idle publishes =>
    have fewer (empty : s.streams.keys = []) : t.streams.keys = [] := by
      rw [streams, AList.keys_erase, empty]
      rfl
    constructor
    · intro set
      exact fewer (agrees.empty (idle ▸ set))
    · intro empty
      rw [publishes, empty]
      exact .inr (Bool.or_true _)
    · intro owed
      rw [publishes, Bool.or_eq_true, List.isEmpty_iff] at owed
      rcases owed with before | empty
      · exact fewer (agrees.owed before)
      · exact empty
  | published owed streams idle =>
    have empty : t.streams.keys = [] := streams ▸ agrees.owed owed
    exact ⟨fun _ => empty, fun _ => .inl idle, fun _ => empty⟩
  | cleared streams idle =>
    have empty : t.streams.keys = [] := by
      rw [streams]
      rfl
    exact ⟨fun _ => empty, fun _ => .inl idle, fun _ => empty⟩

theorem Fresh.flagAgrees (fresh : s.Fresh) : s.FlagAgrees := by
  have empty : s.streams.keys = [] := by
    rw [fresh.streams]
    rfl
  exact ⟨fun _ => empty, fun _ => .inl (congrArg (·.2.1) fresh.flags), fun _ => empty⟩

/-- None of the calls that change the table is in progress. -/
def quiet (s : Session) : Bool :=
  (s.opens.all fun
    | .returned _ => true
    | _ => false) &&
  (match s.recv with
    | .incoming _ _ | .closeAnnounce _ _ _ _ => false
    | _ => true) &&
  (s.objects.all fun o => match o.writer with
    | .removing | .announcing _ | .spawning | .finishing => false
    | _ => true) &&
  decide (s.ending = .none)

theorem quiet_silent (idle : s.quiet = true) : s.publishes = false := by
  simp only [quiet, Bool.and_eq_true, List.all_eq_true] at idle
  obtain ⟨⟨⟨opens, recv⟩, objects⟩, -⟩ := idle
  have recvSilent : s.recv.publishes = false := by
    unfold RecvPc.publishes
    split
    · rename_i receiving
      rw [receiving] at recv
      cases recv
    · rfl
  have opensSilent : s.opens.any OpenPc.publishes = false := by
    rw [List.any_eq_false]
    intro pc member
    have returned := opens pc member
    cases pc with
    | returned result => exact Bool.false_ne_true
    | _ => cases returned
  have writersSilent : s.objects.any (·.writer.publishes) = false := by
    rw [List.any_eq_false]
    intro o member
    have calm := objects o member
    cases writing : o.writer with
    | announcing isIdle =>
      rw [writing] at calm
      cases calm
    | _ => exact Bool.false_ne_true
  rw [publishes, recvSilent, opensSilent, writersSilent]
  rfl

/-- The idle flag. In every run in which no stream is put into the table while a removal
that has emptied it has yet to set the flag, the flag is set exactly when the table is
empty, whenever no call that changes the table is in progress. -/
theorem idle_flag_agrees (md5 : Bytes → String) (iterate : StringMap.Order)
    (isClient : Bool) (padding : PaddingFactory) {actions : List SessionAction} {s : Session}
    (apart : Transition.Along (step md5) (fun s a => s.publishes = true → s.inserts a = false)
      ((new isClient padding).ensureStarted iterate) actions)
    (path : Transition.run (step md5) ((new isClient padding).ensureStarted iterate) actions = some s)
    (idle : s.quiet = true) : s.idleState = true ↔ s.streams.keys = [] := by
  have preserved {s t : Session} {a : SessionAction} (kept : s.FlagAgrees ∧ s.Opening)
      (apart : s.publishes = true → s.inserts a = false) (stepped : s.step md5 a = some t) :
      t.FlagAgrees ∧ t.Opening :=
    ⟨flagAgrees_step kept.1 apart (step_occupancy kept.2 stepped), opening_step kept.2 stepped⟩
  have fresh := fresh_started iterate isClient padding
  have agrees := Transition.invariant_along preserved ⟨fresh.flagAgrees, fresh.opening⟩ apart path
  refine ⟨agrees.1.empty, fun empty => ?_⟩
  rcases agrees.1.flag empty with set | owed
  · exact set
  · cases (quiet_silent idle).symm.trans owed

/-- A stream opened and closed. -/
def openAndClose : List SessionAction :=
  [.openStream 8, .openStep 0, .openStep 0, .openStep 0, .close 0, .writeStep 0, .writeStep 0, .writeStep 0,
    .writeStep 0]

theorem openAndClose_idle : ∃ s, Transition.run (step fun _ => "") started openAndClose = some s ∧
    s.quiet = true ∧ (s.idleState = true ↔ s.streams.keys = []) := by
  have apart : Transition.Along (step fun _ => "") (fun s a => s.publishes = true → s.inserts a = false)
      started openAndClose := by decide +kernel
  exact ⟨_, rfl, rfl, idle_flag_agrees (fun _ => "") AList.entries true plainPadding apart rfl rfl⟩

/-- A stream opened between the two halves of the removal of the last one: nothing is in
progress afterwards, and the session with an open stream is flagged as idle. -/
theorem open_in_between_idle : ∃ s, Transition.run (step fun _ => "") started
    ([.openStream 8, .openStep 0, .openStep 0, .openStep 0, .close 0, .writeStep 0] ++
      [.openStream 8, .openStep 1, .openStep 1, .openStep 1] ++ [.writeStep 0, .writeStep 0, .writeStep 0]) = some s ∧
    s.quiet = true ∧ s.idleState = true ∧ s.streams.keys = [2] :=
  ⟨_, rfl, rfl, rfl, rfl⟩

end Session

end AnyTls

import AnyTls.Proxy.Draining
import AnyTls.Proxy.Inbox
import AnyTls.Proxy.SessionMoves

/-! One stream that only its peer ends. At every step of the receive loop the stream stands
as its inbox says, but for the action in progress: the payload on the way to the pipe, the end
that has taken the stream out of the table, the end about to be queued. -/
namespace AnyTls

/-! ### The engine's actions -/

/-- What an action of the engine does to a stream's inbox. -/
def Inbox.apply (box : Inbox) : ProtocolAction → Inbox
  | .pushStreamData sid data => if box.isOpen sid then { box with data := box.data ++ data } else box
  | .closeLocalStream sid => if box.isOpen sid then { box with ending := some none } else box
  | .closeRemoteStream sid message =>
    if box.isOpen sid then { box with ending := some (some (IoError.otherError ("remote: " ++ message))) } else box
  | _ => box

namespace Inbox
variable {md5 : Bytes → String} {state : State} {isClient : Bool} {frame : Frame} {box : Inbox}

theorem apply_ends {action sid error} (ends : action.Ends sid error) :
    box.apply action = if box.isOpen sid then { box with ending := some error } else box := by
  cases ends with
  | closeLocal => rfl
  | closeRemote => rfl

theorem apply_sid {action} : (box.apply action).sid = box.sid := by
  cases action with
  | pushStreamData | closeLocalStream | closeRemoteStream =>
    simp only [apply]
    split_ifs
    · rfl
    · rfl
  | _ => rfl

theorem foldl_apply_sid {actions : List ProtocolAction} : (actions.foldl apply box).sid = box.sid := by
  induction actions generalizing box with
  | nil => rfl
  | cons action rest ih => rw [List.foldl_cons, ih, apply_sid]

theorem onSettings_apply (settings : StringMap) : (Engine.onSettings state settings).2.foldl apply box = box := by
  simp only [Engine.onSettings]
  split
  · split_ifs <;> rfl
  · split_ifs <;> rfl

/-- The engine's actions for a frame do what the frame says. -/
theorem onFrame_apply : (Engine.onFrame md5 state isClient frame).2.foldl apply box = box.take frame := by
  obtain ⟨cmd, sid, data⟩ := frame
  cases cmd with
  | psh =>
    cases data with
    | nil => exact (take_silent rfl rfl).symm
    | cons byte data =>
      simp only [Engine.onFrame, List.isEmpty_cons, Bool.false_eq_true, if_false, List.foldl_cons, List.foldl_nil,
        apply, take]
      split_ifs with isOpen
      · rw [(isOpen_iff.mp isOpen).2]
        rfl
      · rfl
  | fin =>
    simp only [Engine.onFrame, List.foldl_cons, List.foldl_nil, apply, take, Frame.payload, List.append_nil]
    rfl
  | synAck =>
    cases data with
    | nil => exact (take_silent rfl rfl).symm
    | cons byte data =>
      simp only [Engine.onFrame, List.isEmpty_cons, Bool.false_eq_true, if_false, List.foldl_cons, List.foldl_nil,
        apply, take, Frame.payload, List.append_nil]
      rfl
  | syn =>
    rw [take_silent rfl rfl]
    simp only [Engine.onFrame]
    split_ifs <;> rfl
  | settings =>
    rw [take_silent rfl rfl]
    simp only [Engine.onFrame]
    split_ifs
    · exact onSettings_apply _
    · rfl
  | updatePaddingScheme | serverSettings =>
    rw [take_silent rfl rfl]
    simp only [Engine.onFrame]
    split_ifs
    · split <;> rfl
    · rfl
  | waste | alert | heartRequest | heartResponse | unknown value => exact (take_silent rfl rfl).symm

end Inbox

/-! ### Other tasks -/

/-- What reads do to the stage of a pipe: they take the end, once it is queued. -/
inductive Stage.Onward : Stage → Stage → Prop where
  | same (stage) : Onward stage stage
  | taken (error) : Onward (.queued error) (.ended error)

theorem ReadOutcome.onward {len stage next state} (outcome : ReadOutcome len stage state next) :
    stage.Onward next := by
  cases outcome with
  | eof => exact .taken none
  | failure error => exact .taken (some error)
  | _ => exact .same _

/-- A flowing pipe takes every payload. -/
theorem Drains.writes {pipe pc} (drains : Drains pipe pc .flowing) (data) :
    pipe.write data = (.ok data.length, { pipe with channel := pipe.channel ++ [.data data] }) := by
  obtain ⟨isOpen, unfinished, sender, -⟩ := drains.stage
  have present := drains.present
  simp [PipeInner.write, PipeInner.send, isOpen, unfinished, sender, present]

/-- The stream is written to and read, and nothing else. -/
structure ReadOn (o after : StreamObject) : Prop where
  same : (after.stream.id, after.stream.closed, after.history.pushed, after.history.born, after.pipeClosing) =
    (o.stream.id, o.stream.closed, o.history.pushed, o.history.born, o.pipeClosing)
  writer : after.writer.closing = false
  ordered : Ordered after
  drains : ∀ stage, Drains o.stream.pipe o.reader.pc stage →
    ∃ next, Drains after.stream.pipe after.reader.pc next ∧ stage.Onward next

namespace ReadOn
variable {o : StreamObject}

theorem refl (ordered : Ordered o) (writer : o.writer.closing = false) : ReadOn o o :=
  ⟨rfl, writer, ordered, fun stage drains => ⟨stage, drains, .same stage⟩⟩

theorem afterRead (ordered : Ordered o) (writer : o.writer.closing = false) {len pc pipe state}
    (reading : o.reader = .reading len pc)
    (unread : o.stream.pipe.unread pc = state.bytes ++ pipe.unread state.pc ∧
      (state.pc.pastBuffer = true → pipe.buffer = [])) (drains : ∀ stage, Drains o.stream.pipe pc stage →
      ∃ next, Drains pipe state.pc next ∧ ReadOutcome len stage state next) :
    ReadOn o (o.afterRead len pipe state) := by
  have kept := afterRead_kept o len pipe state
  have born : (o.afterRead len pipe state).history.born = o.history.born := by
    obtain ⟨reader, got, eof, firstEnd, same⟩ := o.afterRead_eq len pipe state
    rw [same]
  simp only [Prod.mk.injEq] at kept
  refine ⟨?_, ?_, ordered.afterRead reading unread, fun stage before => ?_⟩
  · rw [afterRead_pipe, kept.2.2.1, kept.2.1, born]
  · rw [kept.1]
    exact writer
  · rw [reading] at before
    obtain ⟨next, after, outcome⟩ := drains stage before
    rw [afterRead_pipe, afterRead_pc]
    exact ⟨next, after, outcome.onward⟩

end ReadOn

/-- An `open_stream` call that has failed and takes its stream back. -/
def OpenPc.undoing : OpenPc → Bool
  | .undoRemove _ | .undoAnnounce _ _ | .undoMark _ | .undoFinish _ => true
  | _ => false

/-- What the receive loop is about to do to one stream. -/
inductive Errand where
  | none
  | push (data : Bytes)
  | close (error : Option IoError)
  | finish (error : Option IoError)

def RecvPc.errand (pc : RecvPc) (ref : StreamRef) : Errand :=
  match pc with
  | .pushCheck target data _ | .pushData target data _ | .pushPipe target data _ =>
    if target = ref then .push data else .none
  | .closeAnnounce (some target) _ error _ | .closeMark target error _ =>
    if target = ref then .close error else .none
  | .closeFinish target error _ => if target = ref then .finish error else .none
  | _ => .none

/-- How a stream stands while its inbox, the action in progress included, has this payload
and this end. -/
inductive Stands (pushed : Bytes) : Errand → Bool → Stage → Bytes → Option (Option IoError) → Prop where
  | idle : Stands pushed .none false .flowing pushed none
  | push (data) : Stands pushed (.push data) false .flowing (pushed ++ data) none
  | close (error) : Stands pushed (.close error) false .flowing pushed (some error)
  | finish (error) : Stands pushed (.finish error) true .flowing pushed (some error)
  | queued (error) : Stands pushed .none true (.queued error) pushed (some error)
  | ended (error) : Stands pushed .none true (.ended error) pushed (some error)

namespace Stands
variable {pushed data all : Bytes} {errand : Errand} {closed : Bool} {stage : Stage} {error : Option IoError}
  {ending : Option (Option IoError)}

theorem of_push (stands : Stands pushed (.push data) closed stage all ending) :
    closed = false ∧ stage = .flowing ∧ all = pushed ++ data ∧ ending = none := by
  cases stands
  exact ⟨rfl, rfl, rfl, rfl⟩

theorem of_close (stands : Stands pushed (.close error) closed stage all ending) :
    closed = false ∧ stage = .flowing ∧ all = pushed ∧ ending = some error := by
  cases stands
  exact ⟨rfl, rfl, rfl, rfl⟩

theorem of_finish (stands : Stands pushed (.finish error) closed stage all ending) :
    closed = true ∧ stage = .flowing ∧ all = pushed ∧ ending = some error := by
  cases stands
  exact ⟨rfl, rfl, rfl, rfl⟩

/-- A stream that has not ended is open and flows. -/
theorem unended (stands : Stands pushed errand closed stage all none) : closed = false ∧ stage = .flowing := by
  cases stands with
  | idle => exact ⟨rfl, rfl⟩
  | push => exact ⟨rfl, rfl⟩

/-- With no action in progress, an open stream flows and one that has ended holds its end. -/
theorem of_none (stands : Stands pushed .none closed stage all ending) : all = pushed ∧
    (ending = none → closed = false ∧ stage = .flowing) ∧
    ∀ error, ending = some error → closed = true ∧ (stage = .queued error ∨ stage = .ended error) := by
  cases stands with
  | idle => exact ⟨rfl, fun _ => ⟨rfl, rfl⟩, by rintro _ ⟨⟩⟩
  | queued error =>
    refine ⟨rfl, by rintro ⟨⟩, ?_⟩
    rintro _ ⟨⟩
    exact ⟨rfl, .inl rfl⟩
  | ended error =>
    refine ⟨rfl, by rintro ⟨⟩, ?_⟩
    rintro _ ⟨⟩
    exact ⟨rfl, .inr rfl⟩

end Stands

/-- Neither the session nor its writer task is ended from outside. -/
def SessionAction.steady : SessionAction → Bool
  | .terminate | .writerFails _ _ => false
  | _ => true

namespace Session
variable {md5 : Bytes → String} {s t : Session} {a : SessionAction} {ref : StreamRef} {o : StreamObject}

/-- The writer is alive, and the session does not end unless its receive loop has failed. -/
structure Steady (s : Session) : Prop where
  alive : s.frameTx.isClosed = false
  unset : s.recv.pending ≠ none → s.closed = false ∧ s.ending = .none
  undone : ∀ pc ∈ s.opens, pc.undoing = false

theorem Fresh.steady (fresh : s.Fresh) : s.Steady where
  alive := congrArg (·.2.2) fresh.flags
  unset _ := ⟨congrArg (·.1) fresh.flags, fresh.ending⟩
  undone := by simp [fresh.opens]

/-- A call that takes its stream back has met a writer task that is gone. -/
theorem Waits.undoing {pc next} (waits : Waits s pc next) (alive : s.frameTx.isClosed = false)
    (before : pc.undoing = false) : next.undoing = false := by
  cases waits with
  | synRefused gone => exact absurd (alive.symm.trans gone) Bool.false_ne_true
  | _ => rfl

/-- A loop that has failed does not go on. -/
theorem Move.pending (moves : Move md5 s a t) (running : t.recv.pending ≠ none) : s.recv.pending ≠ none := by
  cases moves with
  | receives receiving | handles receiving | answers receiving | ends receiving | releases receiving
  | creates receiving | pushed receiving | closeAnnounces receiving | closeMarks receiving
  | closeFinishes receiving =>
    rw [receiving]
    simp [RecvPc.pending]
  | disconnects | alerts | fails => exact absurd rfl running
  | turns turns =>
    cases turns with
    | woken | refused | synZero | ackLost | alerted | pushFails => exact absurd rfl running
    | drained receiving | applied receiving | pushes receiving | pushUnknown receiving | synLate receiving
    | synPasses receiving | synKnown receiving | acked receiving | pushIgnored receiving | pushChecked receiving
    | pushClosed receiving | pushOpen receiving | pushRefused receiving | pushForgiven receiving
    | markedBefore receiving =>
      rw [receiving]
      simp [RecvPc.pending]
  | _ => exact running

theorem steady_step (steady : s.Steady) (action : a.steady = true) (stepped : s.step md5 a = some t) : t.Steady := by
  have moves := step_move stepped
  refine ⟨?_, fun running => ?_, fun pc member => ?_⟩
  · cases moves with
    | writerFails => cases action
    | pshSent | finSent | synSent | acknowledges | answers | emits => rfl
    | _ => exact steady.alive
  · obtain ⟨unset, unended⟩ := steady.unset (moves.pending running)
    cases moves with
    | fails => exact absurd rfl running
    | terminates => cases action
    | clears ending | endsAll ending | endSkips ending | endMarks ending | endFinishes ending =>
      cases unended.symm.trans ending
    | _ => exact ⟨unset, unended⟩
  · have moved {i : Nat} {next : OpenPc} (quiet : next.undoing = false) (member : pc ∈ s.opens.set i next) :
        pc.undoing = false := by
      rcases List.mem_or_eq_of_mem_set member with old | rfl
      · exact steady.undone pc old
      · exact quiet
    cases moves with
    | asks maxStreams =>
      rcases List.mem_append.mp member with old | new
      · exact steady.undone pc old
      · rw [List.mem_singleton.mp new]
        rfl
    | waits placed waits =>
      exact moved (waits.undoing steady.alive (steady.undone _ (List.mem_of_getElem? placed))) member
    | exhausts | inserts | synSent | undoFinishes => exact moved rfl member
    | undoRemoves placed | undoAnnounces placed | undoMarks placed =>
      cases steady.undone _ (List.mem_of_getElem? placed)
    | _ => exact steady.undone pc member

/-- What the other tasks do to a stream that is not closed from this side. -/
theorem Move.readOn (moves : Move md5 s a t) (steady : s.Steady) (unended : s.ending = .none)
    (other : a ≠ .recvStep) (calm : a ≠ .close ref ∧ a ≠ .dropRead ref) (stored : s.objects[ref]? = some o)
    (ordered : Ordered o) (writer : o.writer.closing = false) (unspawned : o.pipeClosing = false) :
    ∃ after, t.objects[ref]? = some after ∧ ReadOn o after := by
  have refl : ReadOn o o := .refl ordered writer
  have modified {at_ : StreamRef} {f : StreamObject → StreamObject} (here : at_ = ref → ReadOn o (f o)) :
      ∃ after, (s.objects.modify at_ f)[ref]? = some after ∧ ReadOn o after := by
    rw [List.getElem?_modify, stored]
    by_cases same : at_ = ref
    · exact ⟨f o, by simp [same], here same⟩
    · exact ⟨o, by simp [same], refl⟩
  cases moves with
  | inserts =>
    refine ⟨o, ?_, refl⟩
    rw [List.getElem?_append_left (List.getElem?_eq_some_iff.mp stored).1]
    exact stored
  | synSent =>
    exact modified fun _ => ⟨rfl, rfl, ⟨ordered.order, ordered.settled⟩, refl.drains⟩
  | undoRemoves placed | undoAnnounces placed | undoMarks placed | undoFinishes placed =>
    cases steady.undone _ (List.mem_of_getElem? placed)
  | writes buf =>
    refine modified fun _ => ⟨rfl, ?_, ⟨ordered.order, ordered.settled⟩, refl.drains⟩
    simp only [StreamObject.startWrite]
    split_ifs
    · rfl
    · rfl
  | closes => exact modified fun same => absurd (congrArg SessionAction.close same) calm.1
  | pshSent | sendRefused =>
    exact modified fun _ => ⟨rfl, rfl, ⟨ordered.order, ordered.settled⟩, refl.drains⟩
  | finSent found closing | removes found closing | announces found closing | spawns found closing =>
    refine modified fun same => ?_
    subst same
    cases stored.symm.trans found
    rw [closing] at writer
    cases writer
  | pipeCloses found closing =>
    refine modified fun same => ?_
    subst same
    cases stored.symm.trans found
    cases unspawned.symm.trans closing
  | reads len found idle =>
    refine modified fun same => ?_
    subst same
    cases stored.symm.trans found
    have order := ordered.order
    have drains := refl.drains
    rw [idle] at order drains
    exact ⟨rfl, writer, ⟨order, by rintro ⟨⟩⟩, by rw [idle]; exact drains⟩
  | readSteps found reading read =>
    refine modified fun same => ?_
    subst same
    cases stored.symm.trans found
    have settled := ordered.settled
    rw [reading] at settled
    exact .afterRead ordered writer reading (PipeInner.readStep_unread settled read) fun _ drains =>
      drains.readStep read
  | readExpires found reading read =>
    refine modified fun same => ?_
    subst same
    cases stored.symm.trans found
    have settled := ordered.settled
    rw [reading] at settled
    exact .afterRead ordered writer reading (PipeInner.readDeadline_unread settled read) fun _ drains =>
      drains.readDeadline _ read
  | readDrops => exact modified fun same => absurd (congrArg SessionAction.dropRead same) calm.2
  | endMarks ending | endFinishes ending => cases unended.symm.trans ending
  | turns | alerts | handles | answers | ends | releases | creates | pushed | closeAnnounces | closeMarks
  | closeFinishes | fails => exact absurd rfl other
  | _ => exact ⟨o, stored, refl⟩

/-! ### One stream -/

/-- The stream and its inbox once the action in progress is done. -/
structure Tracked (s : Session) (ref : StreamRef) (o : StreamObject) (box : Inbox) : Prop where
  sid : box.sid = o.stream.id
  born : o.history.born ≤ s.handled.length
  ordered : Ordered o
  writer : o.writer.closing = false
  unspawned : o.pipeClosing = false
  stands : ∃ stage, Drains o.stream.pipe o.reader.pc stage ∧
    Stands o.history.pushed (s.recv.errand ref) o.stream.closed stage box.data box.ending
  listed : s.streams.lookup o.stream.id = some ref ↔ box.ending = none

/-- With the actions still to be applied the stream gets what the frames handled since it was
made have for it. -/
def Follows (s : Session) (ref : StreamRef) (o : StreamObject) (start : Inbox) : Prop :=
  ∀ actions, s.recv.pending = some actions → ∃ box, s.Tracked ref o box ∧
    actions.foldl Inbox.apply box = (s.handled.drop o.history.born).foldl Inbox.take start

variable {box start : Inbox} {after : StreamObject}

namespace Tracked

theorem isOpen (tracked : s.Tracked ref o box) {sid} (isOpen : box.isOpen sid = true) :
    s.streams.lookup sid = some ref := by
  obtain ⟨rfl, unended⟩ := Inbox.isOpen_iff.mp isOpen
  rw [tracked.sid]
  exact tracked.listed.mpr unended

/-- The loop goes on, and what it is about to do to this stream stays the same. -/
theorem move (tracked : s.Tracked ref o box) (errand : t.recv.errand ref = s.recv.errand ref)
    (table : t.streams.lookup o.stream.id = some ref ↔ s.streams.lookup o.stream.id = some ref)
    (handled : s.handled <+: t.handled) : t.Tracked ref o box := by
  refine ⟨tracked.sid, tracked.born.trans handled.length_le, tracked.ordered, tracked.writer, tracked.unspawned,
    ?_, table.trans tracked.listed⟩
  rw [errand]
  exact tracked.stands

/-- Another task works on the stream. -/
theorem readOn (tracked : s.Tracked ref o box) (readOn : ReadOn o after)
    (errand : t.recv.errand ref = s.recv.errand ref)
    (table : t.streams.lookup o.stream.id = s.streams.lookup o.stream.id)
    (handled : t.handled = s.handled) : t.Tracked ref after box := by
  have same := readOn.same
  simp only [Prod.mk.injEq] at same
  obtain ⟨id, closed, pushed, born, spawned⟩ := same
  obtain ⟨stage, drains, stands⟩ := tracked.stands
  obtain ⟨next, drained, onward⟩ := readOn.drains stage drains
  refine ⟨tracked.sid.trans id.symm, ?_, readOn.ordered, readOn.writer, spawned.trans tracked.unspawned,
    ⟨next, drained, ?_⟩, ?_⟩
  · rw [born, handled]
    exact tracked.born
  · rw [closed, pushed, errand]
    cases onward with
    | same => exact stands
    | taken error =>
      generalize s.recv.errand ref = errand at stands ⊢
      generalize o.stream.closed = closed at stands ⊢
      generalize box.data = data at stands ⊢
      generalize box.ending = ending at stands ⊢
      cases stands with
      | queued => exact .ended error
  · rw [id, table]
    exact tracked.listed

end Tracked

namespace Follows

/-- The loop goes on with what it has left to do, or has failed. -/
theorem goes (follows : s.Follows ref o start) (errand : t.recv.errand ref = s.recv.errand ref)
    (table : t.streams.lookup o.stream.id = some ref ↔ s.streams.lookup o.stream.id = some ref)
    (handled : t.handled = s.handled) (pending : t.recv.pending = s.recv.pending ∨ t.recv.pending = none) :
    t.Follows ref o start := by
  intro actions left
  rcases pending with same | failed
  · obtain ⟨box, tracked, rest⟩ := follows actions (same ▸ left)
    refine ⟨box, tracked.move errand table (handled ▸ List.prefix_rfl), ?_⟩
    rw [rest, handled]
  · cases failed.symm.trans left

/-- The loop begins an action that does nothing to this stream. -/
theorem passes {action rest} (follows : s.Follows ref o start)
    (receiving : s.recv = .applying (action :: rest)) (left : t.recv.pending = some rest)
    (inert : ∀ box, s.Tracked ref o box → box.apply action = box) (errand : t.recv.errand ref = .none)
    (table : t.streams.lookup o.stream.id = some ref ↔ s.streams.lookup o.stream.id = some ref)
    (handled : t.handled = s.handled) : t.Follows ref o start := by
  intro actions remaining
  cases left.symm.trans remaining
  obtain ⟨box, tracked, all⟩ := follows (action :: rest) (by rw [receiving]; rfl)
  refine ⟨box, tracked.move ?_ table (handled ▸ List.prefix_rfl), ?_⟩
  · rw [errand, receiving]
    rfl
  · rw [List.foldl_cons, inert box tracked] at all
    rw [all, handled]

/-- The loop does its errand, or begins one. -/
theorem acts {actions} (follows : s.Follows ref o start) (f : Inbox → Inbox)
    (before : s.recv.pending = some actions) {rest} (left : t.recv.pending = some rest)
    (born : after.history.born = o.history.born) (handled : t.handled = s.handled)
    (effect : ∀ box, s.Tracked ref o box → t.Tracked ref after (f box) ∧
      actions.foldl Inbox.apply box = rest.foldl Inbox.apply (f box)) : t.Follows ref after start := by
  intro others remaining
  cases left.symm.trans remaining
  obtain ⟨box, tracked, all⟩ := follows actions before
  obtain ⟨now, same⟩ := effect box tracked
  refine ⟨f box, now, ?_⟩
  rw [← same, all, handled, born]

end Follows

/-- What the loop's turns do to a stream that only the peer ends. -/
theorem Follows.turns (follows : s.Follows ref o start) (traced : s.Traced)
    (stored : s.objects[ref]? = some o) {next} (turns : Turns s next) :
    { s with recv := next }.Follows ref o start := by
  have stopped {failed : IoError} : { s with recv := .failed failed }.Follows ref o start := by
    intro actions left
    cases left
  -- the loop gives up a push or an end of another stream
  have another {pc : RecvPc} {rest : List ProtocolAction} {target : StreamRef} (receiving : s.recv = pc)
      (left : pc.pending = some rest) (errand : target ≠ ref → pc.errand ref = .none)
      (other : ∀ stage data ending, target = ref → Drains o.stream.pipe o.reader.pc stage →
        ¬ Stands o.history.pushed (pc.errand ref) o.stream.closed stage data ending)
      (idle : next.errand ref = .none) (pending : next.pending = pc.pending) :
      { s with recv := next }.Follows ref o start := by
    refine follows.goes ?_ .rfl rfl (.inl (pending.trans (by rw [receiving])))
    rw [receiving, idle]
    refine (errand fun same => ?_).symm
    obtain ⟨box, tracked, -⟩ := follows rest (by rw [receiving]; exact left)
    obtain ⟨stage, drains, stands⟩ := tracked.stands
    rw [receiving] at stands
    exact other stage box.data box.ending same drains stands
  cases turns with
  | woken | refused | synZero | ackLost | alerted | pushFails => exact stopped
  | drained receiving | applied receiving | acked receiving | synKnown receiving | pushForgiven receiving
  | pushChecked receiving | pushOpen receiving =>
    refine follows.goes ?_ .rfl rfl (.inl ?_)
    · rw [receiving]
      rfl
    · rw [receiving]
      rfl
  | @pushes sid data rest target receiving listed =>
    by_cases same : target = ref
    · subst same
      obtain ⟨_, found, rfl⟩ := traced.mapped sid target listed
      cases stored.symm.trans found
      refine follows.acts (fun box => { box with data := box.data ++ data }) (by rw [receiving]; rfl) rfl rfl rfl
        fun box tracked => ?_
      have unended := tracked.listed.mp listed
      obtain ⟨stage, drains, stands⟩ := tracked.stands
      rw [receiving] at stands
      obtain ⟨all, isOpen, -⟩ := stands.of_none
      obtain ⟨closed, rfl⟩ := isOpen unended
      refine ⟨⟨tracked.sid, tracked.born, tracked.ordered, tracked.writer, tracked.unspawned,
        ⟨.flowing, drains, ?_⟩, tracked.listed⟩, ?_⟩
      · simp only [RecvPc.errand, if_true, all, closed, unended]
        exact .push data
      · have applied : box.apply (.pushStreamData o.stream.id data) = { box with data := box.data ++ data } :=
          if_pos (Inbox.isOpen_iff.mpr ⟨tracked.sid, unended⟩)
        rw [List.foldl_cons, applied]
    · refine follows.passes receiving rfl (fun box tracked => ?_) (by simp [RecvPc.errand, same]) .rfl rfl
      have shut : box.isOpen sid ≠ true := fun isOpen =>
        same (Option.some.inj (listed.symm.trans (tracked.isOpen isOpen)))
      exact if_neg shut
  | pushUnknown receiving absent =>
    refine follows.passes receiving rfl (fun box tracked => if_neg fun isOpen => ?_) rfl .rfl rfl
    cases absent.symm.trans (tracked.isOpen isOpen)
  | synLate receiving | synPasses receiving =>
    exact follows.passes receiving rfl (fun _ _ => rfl) rfl .rfl rfl
  | @pushIgnored target data rest o' receiving found closed
  | @pushClosed target data rest o' receiving found closed =>
    refine another receiving rfl (fun apart => if_neg apart) (fun stage all ending same drains stands => ?_) rfl rfl
    subst same
    cases stored.symm.trans found
    simp only [RecvPc.errand, if_true] at stands
    cases closed.symm.trans stands.of_push.1
  | @pushRefused target data rest o' error pipe receiving found refused =>
    refine another receiving rfl (fun apart => if_neg apart) (fun stage all ending same drains stands => ?_) rfl rfl
    subst same
    cases stored.symm.trans found
    simp only [RecvPc.errand, if_true] at stands
    obtain ⟨-, rfl, -⟩ := stands.of_push
    rw [drains.writes data] at refused
    cases refused
  | @markedBefore target error rest o' receiving found closed =>
    refine another receiving rfl (fun apart => if_neg apart) (fun stage all ending same drains stands => ?_) rfl rfl
    subst same
    cases stored.symm.trans found
    simp only [RecvPc.errand, if_true] at stands
    cases closed.symm.trans stands.of_close.1

/-- The loop ends the stream, or another one, or none. -/
theorem Follows.ends (follows : s.Follows ref o start) (traced : s.Traced)
    (stored : s.objects[ref]? = some o) {action rest sid error}
    (receiving : s.recv = .applying (action :: rest)) (ends : action.Ends sid error) :
    { s with
      streams := s.streams.erase sid
      recv := .closeAnnounce (s.streams.lookup sid) (s.streams.erase sid).keys.isEmpty error rest }.Follows
        ref o start := by
  by_cases same : s.streams.lookup sid = some ref
  · obtain ⟨_, found, rfl⟩ := traced.mapped sid ref same
    cases stored.symm.trans found
    refine follows.acts (fun box => { box with ending := some error }) (by rw [receiving]; rfl) rfl rfl rfl
      fun box tracked => ?_
    have unended := tracked.listed.mp same
    obtain ⟨stage, drains, stands⟩ := tracked.stands
    rw [receiving] at stands
    obtain ⟨all, isOpen, -⟩ := stands.of_none
    obtain ⟨closed, rfl⟩ := isOpen unended
    refine ⟨⟨tracked.sid, tracked.born, tracked.ordered, tracked.writer, tracked.unspawned,
      ⟨.flowing, drains, ?_⟩, ?_⟩, ?_⟩
    · simp only [RecvPc.errand, same, if_true, all, closed]
      exact .close error
    · simp [AList.lookup_erase]
    · rw [List.foldl_cons, Inbox.apply_ends ends, if_pos (Inbox.isOpen_iff.mpr ⟨tracked.sid, unended⟩)]
  · refine follows.passes receiving rfl (fun box tracked => ?_) ?_ ?_ rfl
    · rw [Inbox.apply_ends ends, if_neg fun isOpen => same (tracked.isOpen isOpen)]
    · cases target : s.streams.lookup sid with
      | none => rfl
      | some other =>
        have apart : other ≠ ref := fun equal => same (target.trans (congrArg some equal))
        simp [RecvPc.errand, apart]
    · by_cases here : o.stream.id = sid
      · subst here
        simp [AList.lookup_erase, same]
      · rw [AList.lookup_erase_ne here]

/-- The errand of the loop on the stream itself: the stream changes, and its inbox does not. -/
theorem Follows.works (follows : s.Follows ref o start) {rest} (before : s.recv.pending = some rest)
    (left : t.recv.pending = some rest)
    (same : (after.stream.id, after.history.born, after.writer, after.pipeClosing) =
      (o.stream.id, o.history.born, o.writer, o.pipeClosing)) (handled : t.handled = s.handled)
    (streams : t.streams = s.streams) (ordered : Ordered o → Ordered after)
    (stands : ∀ stage data ending, Drains o.stream.pipe o.reader.pc stage →
      Stands o.history.pushed (s.recv.errand ref) o.stream.closed stage data ending →
      ∃ next, Drains after.stream.pipe after.reader.pc next ∧
        Stands after.history.pushed (t.recv.errand ref) after.stream.closed next data ending) :
    t.Follows ref after start := by
  simp only [Prod.mk.injEq] at same
  obtain ⟨id, born, writer, spawned⟩ := same
  refine follows.acts (fun box => box) before left born handled fun box tracked => ⟨?_, rfl⟩
  obtain ⟨stage, drains, standing⟩ := tracked.stands
  refine ⟨tracked.sid.trans id.symm, ?_, ordered tracked.ordered, ?_, spawned.trans tracked.unspawned,
    stands stage _ _ drains standing, ?_⟩
  · rw [born, handled]
    exact tracked.born
  · rw [writer]
    exact tracked.writer
  · rw [id, streams]
    exact tracked.listed

/-- What the receive loop does to a stream. -/
theorem Follows.recv (follows : s.Follows ref o start) (traced : s.Traced) (stored : s.objects[ref]? = some o)
    (moves : Move md5 s .recvStep t) :
    ∃ after, t.objects[ref]? = some after ∧ t.Follows ref after start := by
  have stopped {u : Session} (failed : u.recv.pending = none) : u.Follows ref o start := by
    intro actions left
    cases failed.symm.trans left
  -- the loop works on this stream or on another
  have modified {target : StreamRef} {f : StreamObject → StreamObject}
      (here : target = ref → t.Follows ref (f o) start) (other : target ≠ ref → t.Follows ref o start) :
      ∃ after, (s.objects.modify target f)[ref]? = some after ∧ t.Follows ref after start := by
    rw [List.getElem?_modify, stored]
    by_cases same : target = ref
    · exact ⟨f o, by simp [same], here same⟩
    · exact ⟨o, by simp [same], other same⟩
  cases moves with
  | acknowledges acknowledges | acknowledged acknowledges => cases acknowledges
  | turns turns => exact ⟨o, stored, follows.turns traced stored turns⟩
  | alerts | fails => exact ⟨o, stored, stopped rfl⟩
  | @handles frame rest receiving =>
    refine ⟨o, stored, fun actions left => ?_⟩
    cases left
    obtain ⟨box, tracked, all⟩ := follows [] (by rw [receiving]; rfl)
    refine ⟨box, tracked.move (by rw [receiving]; rfl) .rfl (List.prefix_append ..), ?_⟩
    rw [Inbox.onFrame_apply, List.drop_append_of_le_length tracked.born, List.foldl_append, ← all]
    rfl
  | answers receiving sending =>
    refine ⟨o, stored, ?_⟩
    cases sending with
    | alertAndFail => exact stopped rfl
    | sendFrame | sendFrameSync => exact follows.passes receiving rfl (fun _ _ => rfl) rfl .rfl rfl
  | ends receiving ends => exact ⟨o, stored, follows.ends traced stored receiving ends⟩
  | releases receiving =>
    exact ⟨o, stored, follows.passes receiving rfl (fun _ _ => rfl) rfl .rfl rfl⟩
  | @creates sid rest receiving absent =>
    have within := (List.getElem?_eq_some_iff.mp stored).1
    refine ⟨o, (List.getElem?_append_left within).trans stored, ?_⟩
    refine follows.goes (by rw [receiving]; rfl) ?_ rfl (.inl (by rw [receiving]; rfl))
    by_cases here : o.stream.id = sid
    · subst here
      simp only [AList.lookup_insert, absent, Option.some.injEq, reduceCtorEq, iff_false]
      exact fun same => absurd within (same ▸ Nat.lt_irrefl _)
    · simp [AList.lookup_insert_ne here]
  | @pushed target data rest o' n pipe receiving found written =>
    refine modified (fun same => ?_) fun other => ?_
    · subst same
      cases stored.symm.trans found
      have filled := traced.payload target data (by rw [receiving]; rfl)
      refine follows.works (by rw [receiving]; rfl) rfl rfl rfl rfl (fun ordered => ordered.push written)
        fun stage all ending drains stands => ?_
      rw [receiving] at stands
      simp only [RecvPc.errand, if_true] at stands
      obtain ⟨closed, rfl, rfl, rfl⟩ := stands.of_push
      refine ⟨.flowing, (drains.push filled written).2, ?_⟩
      simp only [StreamObject.modifyPipe, closed]
      exact .idle
    · refine follows.goes ?_ .rfl rfl (.inl (by rw [receiving]; rfl))
      rw [receiving]
      exact (if_neg other).symm
  | @closeAnnounces target isIdle error rest receiving =>
    refine ⟨o, stored, ?_⟩
    cases target with
    | none => exact follows.goes (by rw [receiving]; rfl) .rfl rfl (.inl (by rw [receiving]; rfl))
    | some target => exact follows.goes (by rw [receiving]; rfl) .rfl rfl (.inl (by rw [receiving]; rfl))
  | @closeMarks target error rest o' receiving found unclosed =>
    refine modified (fun same => ?_) fun other => ?_
    · subst same
      refine follows.works (by rw [receiving]; rfl) rfl rfl rfl rfl (fun ordered => ⟨ordered.order, ordered.settled⟩)
        fun stage all ending drains stands => ?_
      rw [receiving] at stands
      simp only [RecvPc.errand, if_true] at stands ⊢
      obtain ⟨-, rfl, rfl, rfl⟩ := stands.of_close
      exact ⟨.flowing, drains, .finish error⟩
    · refine follows.goes ?_ .rfl rfl (.inl (by rw [receiving]; rfl))
      rw [receiving]
      exact (if_neg other).trans (if_neg other).symm
  | @closeFinishes target error rest receiving =>
    refine modified (fun same => ?_) fun other => ?_
    · subst same
      refine follows.works (by rw [receiving]; rfl) rfl rfl rfl rfl (fun ordered => ordered.finish error)
        fun stage all ending drains stands => ?_
      rw [receiving] at stands
      simp only [RecvPc.errand, if_true] at stands
      obtain ⟨closed, rfl, rfl, rfl⟩ := stands.of_finish
      obtain ⟨next, drained, ⟨-, rfl⟩ | ⟨flowing, -⟩⟩ := drains.finish error
      · refine ⟨.queued error, drained, ?_⟩
        simp only [StreamObject.modifyPipe, closed]
        exact .queued error
      · exact absurd rfl flowing
    · refine follows.goes ?_ .rfl rfl (.inl (by rw [receiving]; rfl))
      rw [receiving]
      exact (if_neg other).symm

/-- What the other tasks do to a stream that is not closed from this side. -/
theorem Follows.others (follows : s.Follows ref o start) (steady : s.Steady) (stored : s.objects[ref]? = some o)
    (other : a ≠ .recvStep) (calm : a ≠ .close ref ∧ a ≠ .dropRead ref)
    (table : t.streams.lookup o.stream.id = s.streams.lookup o.stream.id) (stepped : s.step md5 a = some t) :
    ∃ after, t.objects[ref]? = some after ∧ t.Follows ref after start := by
  have moves := step_move stepped
  obtain ⟨after, kept, change⟩ := (step_effect stepped).objects.kept stored
  refine ⟨after, kept, fun actions left => ?_⟩
  have running := moves.pending (by rw [left]; exact Option.some_ne_none _)
  obtain ⟨before, pending⟩ := Option.ne_none_iff_exists'.mp running
  obtain ⟨box, tracked, all⟩ := follows before pending
  obtain ⟨_, found, on⟩ := moves.readOn steady (steady.unset running).2 other calm stored tracked.ordered
    tracked.writer tracked.unspawned
  cases kept.symm.trans found
  have loop : t.recv.errand ref = s.recv.errand ref ∧ before = actions ∧ t.handled = s.handled := by
    cases (step_effect stepped).inbound with
    | same same =>
      simp only [Prod.mk.injEq] at same
      rw [same.1] at left ⊢
      exact ⟨rfl, Option.some.inj (pending.symm.trans left), same.2.2.2.1⟩
    | receive chunk called receiving same =>
      subst same
      rw [receiving] at pending ⊢
      exact ⟨rfl, Option.some.inj (pending.symm.trans left), rfl⟩
    | disconnect error called receiving same =>
      subst same
      cases left
    | recv called => exact absurd called other
  obtain ⟨errand, rfl, handled⟩ := loop
  refine ⟨box, tracked.readOn on errand table handled, ?_⟩
  rw [all, handled, change.born]

theorem Follows.step (follows : s.Follows ref o start) (steady : s.Steady) (traced : s.Traced)
    (stored : s.objects[ref]? = some o) (calm : a ≠ .close ref ∧ a ≠ .dropRead ref)
    (table : a ≠ .recvStep → t.streams.lookup o.stream.id = s.streams.lookup o.stream.id)
    (stepped : s.step md5 a = some t) : ∃ after, t.objects[ref]? = some after ∧ t.Follows ref after start := by
  by_cases loop : a = .recvStep
  · subst loop
    exact follows.recv traced stored (step_move stepped)
  · exact follows.others steady stored loop calm (table loop) stepped

/-- A stream that has just been made and put into the table. What is left of a frame in progress
is applied to it. -/
theorem Follows.new {sid writer} (quiet : writer.closing = false) (listed : s.streams.lookup sid = some ref)
    (errand : s.recv.errand ref = .none) :
    s.Follows ref (StreamObject.new sid writer s.handled.length)
      ((s.recv.pending.getD []).foldl Inbox.apply (Inbox.new sid)) := by
  intro actions pending
  rw [pending]
  refine ⟨Inbox.new sid, ⟨rfl, Nat.le_refl _, .new .., quiet, rfl, ⟨.flowing, .new, ?_⟩, ?_⟩, ?_⟩
  · rw [errand]
    exact .idle
  · exact iff_of_true listed rfl
  · simp [StreamObject.new]

/-- The loop works on streams that there are. -/
def Aimed (s : Session) : Prop := ∀ ref : StreamRef, s.recv.errand ref ≠ .none → ref < s.objects.length

theorem aimed_step (aimed : s.Aimed) (traced : s.Traced) (stepped : s.step md5 a = some t) : t.Aimed := by
  have grown := (step_effect stepped).objects.1
  have same (recv : t.recv.errand = s.recv.errand) : t.Aimed := by
    intro ref works
    rw [recv] at works
    exact Nat.lt_of_lt_of_le (aimed ref works) grown
  have free (idle : ∀ ref, t.recv.errand ref = .none) : t.Aimed := fun ref works => absurd (idle ref) works
  -- the stream comes from the table
  have listed {sid : UInt32} {target : StreamRef} (found : s.streams.lookup sid = some target) :
      target < t.objects.length := by
    obtain ⟨o, stored, -⟩ := traced.mapped sid target found
    exact Nat.lt_of_lt_of_le (List.getElem?_eq_some_iff.mp stored).1 grown
  cases (step_effect stepped).inbound with
  | same unchanged =>
    have recv : t.recv = s.recv := congrArg (·.1) unchanged
    exact same (by rw [recv])
  | receive chunk called reading after | disconnect error called reading after =>
    subst after
    exact free fun _ => rfl
  | recv called =>
    subst called
    cases step_move stepped with
    | acknowledges acknowledges | acknowledged acknowledges => cases acknowledges
    | turns turns =>
      cases turns with
      | @pushes sid data rest target receiving found =>
        intro ref works
        by_cases here : target = ref
        · exact here ▸ listed found
        · exact absurd (if_neg here) works
      | pushChecked receiving | pushOpen receiving => exact same (by rw [receiving]; rfl)
      | _ => exact free fun _ => rfl
    | answers receiving sending => cases sending <;> exact free fun _ => rfl
    | @ends action rest sid error receiving ends =>
      intro ref works
      cases found : s.streams.lookup sid with
      | none =>
        rw [found] at works
        exact absurd rfl works
      | some target =>
        rw [found] at works
        by_cases here : target = ref
        · exact here ▸ listed found
        · exact absurd (if_neg here) works
    | @closeAnnounces target isIdle error rest receiving =>
      cases target with
      | none => exact free fun _ => rfl
      | some target => exact same (by rw [receiving]; rfl)
    | @closeMarks target error rest o receiving =>
      intro ref works
      refine Nat.lt_of_lt_of_le (aimed ref ?_) grown
      rw [receiving]
      by_cases here : target = ref
      · simp [RecvPc.errand, here]
      · exact absurd (if_neg here) works
    | _ => exact free fun _ => rfl

end Session

end AnyTls

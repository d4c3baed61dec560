import AnyTls.Proxy.PipeStage
import AnyTls.Proxy.PushSafety

/-! The reading half of a stream. What reads have returned and what the pipe still holds
is what was pushed. Unless the stream is closed locally, the end that its pipe comes to
is that of the call that set its closed flag. -/
namespace AnyTls

/-! ### One stream -/

/-- The position of the read in progress, or of the next one. -/
def ReaderPc.pc : ReaderPc → ReadPc
  | .idle => .start
  | .reading _ pc => pc

/-- No read that holds the receiver is dropped. -/
def Frees (a : SessionAction) (ref : StreamRef) (o : StreamObject) : Prop :=
  a = .dropRead ref → o.reader.holdsReceiver = false

section
variable (o : StreamObject) (len : Nat) (pipe : PipeInner) (state : ReadState)

theorem afterRead_pc : (o.afterRead len pipe state).reader.pc = state.pc := by
  unfold StreamObject.afterRead
  split <;> rfl

theorem afterRead_pipe : (o.afterRead len pipe state).stream = { o.stream with pipe := pipe } := by
  obtain ⟨reader, got, eof, firstEnd, same⟩ := o.afterRead_eq len pipe state
  rw [same]

theorem afterRead_got : (o.afterRead len pipe state).history.got = o.history.got ++ state.bytes := by
  unfold StreamObject.afterRead
  split
  · exact (List.append_nil _).symm
  · rfl
  · exact (List.append_nil _).symm

theorem afterRead_kept : ((o.afterRead len pipe state).writer, (o.afterRead len pipe state).pipeClosing,
    (o.afterRead len pipe state).history.pushed, (o.afterRead len pipe state).history.cause) =
      (o.writer, o.pipeClosing, o.history.pushed, o.history.cause) := by
  obtain ⟨reader, got, eof, firstEnd, same⟩ := o.afterRead_eq len pipe state
  rw [same]

end

/-- Reads have returned the first of the pushed bytes, and the pipe holds the others. -/
structure Ordered (o : StreamObject) : Prop where
  order : o.history.got ++ o.stream.pipe.unread o.reader.pc = o.history.pushed
  settled : o.reader.pc.pastBuffer = true → o.stream.pipe.buffer = []

namespace Ordered
variable {s t : Session} {a : SessionAction} {ref : StreamRef} {o after : StreamObject}

theorem new (sid) (writer : WriterPc) (born) : Ordered (StreamObject.new sid writer born) :=
  ⟨rfl, nofun⟩

theorem afterRead (ordered : Ordered o) {len pc pipe state} (reading : o.reader = .reading len pc)
    (read : o.stream.pipe.unread pc = state.bytes ++ pipe.unread state.pc ∧
      (state.pc.pastBuffer = true → pipe.buffer = [])) : Ordered (o.afterRead len pipe state) := by
  have order := ordered.order
  rw [reading, ReaderPc.pc, read.1, ← List.append_assoc] at order
  have kept := afterRead_kept o len pipe state
  simp only [Prod.mk.injEq] at kept
  constructor
  · rw [afterRead_got, afterRead_pipe, afterRead_pc, kept.2.2.1]
    exact order
  · rw [afterRead_pipe, afterRead_pc]
    exact read.2

theorem finish (ordered : Ordered o) (error) : Ordered (o.modifyPipe (·.finishStream error)) := by
  have kept : (o.stream.pipe.finishStream error).unread o.reader.pc = o.stream.pipe.unread o.reader.pc ∧
      (o.stream.pipe.finishStream error).buffer = o.stream.pipe.buffer := PipeInner.finishStream_unread error
  constructor
  · exact kept.1 ▸ ordered.order
  · exact fun past => kept.2.trans (ordered.settled past)

theorem push (ordered : Ordered o) {data n pipe} (written : o.stream.pipe.write data = (.ok n, pipe)) :
    Ordered { o.modifyPipe fun _ => pipe with
      history := { o.history with pushed := o.history.pushed ++ data } } := by
  have kept : pipe.unread o.reader.pc = o.stream.pipe.unread o.reader.pc ++ data ∧
      pipe.buffer = o.stream.pipe.buffer := PipeInner.write_unread written
  constructor
  · simp only [StreamObject.modifyPipe]
    rw [kept.1, ← List.append_assoc, ordered.order]
  · exact fun past => kept.2.trans (ordered.settled past)

theorem change (ordered : Ordered o) (changed : Change s a t ref o after) (frees : Frees a ref o) :
    Ordered after := by
  cases changed with
  | startClose idle =>
    unfold StreamObject.startClose
    split_ifs
    · exact ordered
    · exact ⟨ordered.order, ordered.settled⟩
  | finish error => exact ordered.finish error
  | push data rest pipe n _ _ written => exact ordered.push written
  | startRead len _ idle =>
    have order := ordered.order
    rw [idle] at order
    exact ⟨order, (by rintro ⟨⟩)⟩
  | read len pc pipe state reading read =>
    have settled := ordered.settled
    rw [reading] at settled
    exact ordered.afterRead reading (PipeInner.readStep_unread settled read)
  | deadline len pc pipe state _ reading read =>
    have settled := ordered.settled
    rw [reading] at settled
    exact ordered.afterRead reading (PipeInner.readDeadline_unread settled read)
  | dropRead len pc called reading =>
    have free := frees called
    have order := ordered.order
    rw [reading] at free order
    cases pc with
    | start | waiting | take => exact ⟨order, (by rintro ⟨⟩)⟩
    | recv | restore received => cases free
  | _ => exact ⟨ordered.order, ordered.settled⟩

/-- What reads have returned was pushed. -/
theorem got_pushed (ordered : Ordered o) : o.history.got <+: o.history.pushed :=
  ordered.order ▸ List.prefix_append ..

end Ordered

/-- The stage of a stream's pipe, against what set the closed flag of the stream and what
its reads have returned. The end is queued by the call that set the flag. -/
structure Arrived (recv : RecvPc) (ref : StreamRef) (o : StreamObject) (stage : Stage) : Prop where
  unclosed : o.history.cause = none → stage = .flowing
  pending : stage = .flowing → o.history.cause = some .peerFin ∨ o.history.cause = some .synAckError →
    ∃ error, recv.finishing = some (ref, error)
  error : ∀ error, stage = .queued error ∨ stage = .ended error →
    ∃ cause, o.history.cause = some cause ∧ cause.Ends error
  eof : o.history.eof = true → ∃ error, stage = .ended error
  first : o.history.firstEnd = some (.ok ()) → stage = .ended none
  failed : ∀ error, stage = .ended (some error) → o.history.firstEnd ≠ none

structure Ending (recv : RecvPc) (ref : StreamRef) (o : StreamObject) : Prop where
  unclosed : o.stream.closed = false → o.history.cause = none
  locally : o.pipeClosing = true ∨ o.writer.closing = true → o.history.cause = some .localClose
  draining : o.history.cause ≠ some .localClose →
    ∃ stage, Drains o.stream.pipe o.reader.pc stage ∧ Arrived recv ref o stage

/-- What has arrived shows in the cause of the end and in the ends the reads have seen. -/
theorem Arrived.same {recv ref o after stage} (arrived : Arrived recv ref o stage)
    (same : (after.history.cause, after.history.eof, after.history.firstEnd) =
      (o.history.cause, o.history.eof, o.history.firstEnd)) : Arrived recv ref after stage := by
  simp only [Prod.mk.injEq] at same
  obtain ⟨cause, eof, firstEnd⟩ := same
  constructor
  · rw [cause]
    exact arrived.unclosed
  · rw [cause]
    exact arrived.pending
  · rw [cause]
    exact arrived.error
  · rw [eof]
    exact arrived.eof
  · rw [firstEnd]
    exact arrived.first
  · rw [firstEnd]
    exact arrived.failed

theorem Arrived.afterRead {recv ref o stage next len state} (arrived : Arrived recv ref o stage)
    (outcome : ReadOutcome len stage state next) (pipe) :
    Arrived recv ref (o.afterRead len pipe state) next := by
  cases outcome with
  | running stage pc => exact arrived.same rfl
  | payload stage bytes filled =>
    have notEnd : (bytes.isEmpty && decide (0 < len)) = false := by
      cases bytes with
      | nil => simpa using filled
      | cons byte bytes => rfl
    have unchanged : o.afterRead len pipe (.returned (.ok bytes)) =
        { o with
          stream := { o.stream with pipe := pipe }
          reader := .idle
          history := { o.history with got := o.history.got ++ bytes } } := by
      simp [StreamObject.afterRead, notEnd]
    rw [unchanged]
    exact arrived.same rfl
  | timedOut stage error =>
    refine ⟨arrived.unclosed, arrived.pending, arrived.error, arrived.eof, fun first => ?_, fun problem same => ?_⟩
    · simp only [StreamObject.afterRead, Option.or_eq_some_iff] at first
      rcases first with before | ⟨-, ⟨⟩⟩
      exact arrived.first before
    · simp [StreamObject.afterRead]
  | eof =>
    have source := arrived.error none (.inl rfl)
    refine ⟨fun open_ => ?_, nofun, fun error same => ?_, fun _ => ⟨none, rfl⟩, fun _ => rfl, nofun⟩
    · obtain ⟨cause, known, -⟩ := source
      cases open_.symm.trans known
    · rcases same with ⟨⟨⟩⟩ | ⟨⟨⟩⟩
      exact source
  | failure error =>
    have source := arrived.error (some error) (.inl rfl)
    refine ⟨fun open_ => ?_, nofun, fun error same => ?_, fun _ => ⟨_, rfl⟩, fun first => ?_, fun problem _ => ?_⟩
    · obtain ⟨cause, known, -⟩ := source
      cases open_.symm.trans known
    · rcases same with ⟨⟨⟩⟩ | ⟨⟨⟩⟩
      exact source
    · simp only [StreamObject.afterRead, Option.or_eq_some_iff] at first
      rcases first with before | ⟨-, ⟨⟩⟩
      cases arrived.first before
    · simp [StreamObject.afterRead]
  | again error =>
    refine ⟨arrived.unclosed, nofun, arrived.error, fun _ => ⟨error, rfl⟩, fun first => ?_, fun problem same => ?_⟩
    · cases error with
      | none => rfl
      | some error =>
        obtain ⟨known, before⟩ := Option.ne_none_iff_exists'.mp (arrived.failed error rfl)
        refine arrived.first ?_
        simp only [StreamObject.afterRead, before] at first
        split_ifs at first
        · exact before.trans first
        · exact before.trans first
    · have before := arrived.failed problem same
      simp only [StreamObject.afterRead]
      split_ifs
      · simp
      · exact before

namespace Ending
variable {s t : Session} {a : SessionAction} {recv next : RecvPc} {ref : StreamRef} {o after : StreamObject}

theorem new (recv : RecvPc) (ref sid) {writer} (quiet : writer.closing = false) (born) :
    Ending recv ref (StreamObject.new sid writer born) := by
  refine ⟨fun _ => rfl, ?_, fun _ => ⟨.flowing, .new, fun _ => rfl, ?_, ?_, nofun, nofun, nofun⟩⟩
  · rintro (closing | closing)
    · cases closing
    · exact absurd closing (by simp [StreamObject.new, quiet])
  · rintro - (⟨⟨⟩⟩ | ⟨⟨⟩⟩)
  · rintro error (⟨⟨⟩⟩ | ⟨⟨⟩⟩)

/-- The receive loop goes on, and does not forget an end it is to queue. -/
theorem move (ending : Ending recv ref o)
    (kept : ∀ error, recv.finishing = some (ref, error) → next.finishing = some (ref, error)) :
    Ending next ref o := by
  refine ⟨ending.unclosed, ending.locally, fun notLocal => ?_⟩
  obtain ⟨stage, drains, arrived⟩ := ending.draining notLocal
  refine ⟨stage, drains, arrived.unclosed, fun flowing peer => ?_, arrived.error, arrived.eof, arrived.first,
    arrived.failed⟩
  obtain ⟨error, finishing⟩ := arrived.pending flowing peer
  exact ⟨error, kept error finishing⟩

/-- The call that set the flag queues the end. -/
theorem finish (ending : Ending recv ref o) {error cause} (known : o.history.cause = some cause)
    (ends : cause.Ends error) :
    Ending next ref (o.modifyPipe (·.finishStream error)) := by
  refine ⟨ending.unclosed, ending.locally, fun notLocal => ?_⟩
  obtain ⟨stage, drains, arrived⟩ := ending.draining notLocal
  obtain ⟨later, drains, moved⟩ := drains.finish error
  refine ⟨later, drains, fun open_ => ?_, fun flowing => ?_, fun problem same => ?_,
    fun eof => ?_, fun first => ?_, fun problem same => ?_⟩
  · cases known.symm.trans open_
  · rcases moved with ⟨-, rfl⟩ | ⟨apart, rfl⟩
    · cases flowing
    · exact absurd flowing apart
  · rcases moved with ⟨-, rfl⟩ | ⟨-, rfl⟩
    · rcases same with ⟨⟨⟩⟩ | ⟨⟨⟩⟩
      exact ⟨cause, known, ends⟩
    · exact arrived.error problem same
  · obtain ⟨problem, same⟩ := arrived.eof eof
    rcases moved with ⟨flowing, -⟩ | ⟨-, rfl⟩
    · cases flowing.symm.trans same
    · exact ⟨problem, same⟩
  · have same := arrived.first first
    rcases moved with ⟨flowing, -⟩ | ⟨-, rfl⟩
    · cases flowing.symm.trans same
    · exact same
  · rcases moved with ⟨-, rfl⟩ | ⟨-, rfl⟩
    · cases same
    · exact arrived.failed problem same

/-- Reads and pushes change the pipe but not the calls that close the stream. -/
theorem pipe (ending : Ending recv ref o)
    (kept : (after.stream.closed, after.writer, after.pipeClosing, after.history.cause) =
      (o.stream.closed, o.writer, o.pipeClosing, o.history.cause))
    (draining : ∀ stage, Drains o.stream.pipe o.reader.pc stage → Arrived recv ref o stage →
      ∃ stage, Drains after.stream.pipe after.reader.pc stage ∧ Arrived recv ref after stage) :
    Ending recv ref after := by
  simp only [Prod.mk.injEq] at kept
  obtain ⟨closed, writer, pipeClosing, cause⟩ := kept
  refine ⟨?_, ?_, fun notLocal => ?_⟩
  · rw [closed, cause]
    exact ending.unclosed
  · rw [writer, pipeClosing, cause]
    exact ending.locally
  · obtain ⟨stage, drains, arrived⟩ := ending.draining (cause ▸ notLocal)
    exact draining stage drains arrived

/-- The writing task goes on. -/
theorem writer (ending : Ending recv ref o) (pc : WriterPc) (closing : pc.closing = true → o.writer.closing = true) :
    Ending recv ref { o with writer := pc } := by
  refine ⟨ending.unclosed, ?_, fun notLocal => ?_⟩
  · rintro (spawned | still)
    · exact ending.locally (.inl spawned)
    · exact ending.locally (.inr (closing still))
  · obtain ⟨stage, drains, arrived⟩ := ending.draining notLocal
    exact ⟨stage, drains, arrived.same rfl⟩

theorem afterRead (ending : Ending recv ref o) {len pc pipe state} (reading : o.reader = .reading len pc)
    (read : ∀ stage, Drains o.stream.pipe pc stage → ∃ next, Drains pipe state.pc next ∧ ReadOutcome len stage state next) :
    Ending recv ref (o.afterRead len pipe state) := by
  have same := afterRead_kept o len pipe state
  simp only [Prod.mk.injEq] at same
  refine ending.pipe ?_ fun stage drains arrived => ?_
  · rw [afterRead_pipe, same.1, same.2.1, same.2.2.2]
  · rw [reading] at drains
    obtain ⟨next, drains, outcome⟩ := read stage drains
    rw [afterRead_pipe, afterRead_pc]
    exact ⟨next, drains, arrived.afterRead outcome pipe⟩

/-- The end of a stream that this side has closed is its own. -/
theorem closedHere (ending : Ending recv ref o) (closing : o.pipeClosing = true ∨ o.writer.closing = true)
    (kept : (after.stream.closed, after.history.cause) = (o.stream.closed, o.history.cause)) :
    Ending next ref after := by
  simp only [Prod.mk.injEq] at kept
  have locally : after.history.cause = some .localClose := kept.2.trans (ending.locally closing)
  refine ⟨fun still => ?_, fun _ => locally, fun notLocal => absurd locally notLocal⟩
  exact kept.2.trans (ending.unclosed (kept.1.symm.trans still))

theorem change (ending : Ending s.recv ref o) (changed : Change s a t ref o after) (frees : Frees a ref o)
    (filled : ∀ data rest, s.recv = .pushPipe ref data rest → data ≠ [])
    (marked : ∀ error, s.Finishes ref error → ∃ cause, o.history.cause = some cause ∧ cause.Ends error)
    (marks : ∀ error rest, a = .recvStep → s.recv = .closeMark ref error rest → o.stream.closed = false →
      t.recv.finishing = some (ref, error))
    (kept : ∀ error, s.recv.finishing = some (ref, error) → t.recv.finishing = some (ref, error)) :
    Ending t.recv ref after := by
  cases changed with
  | same => exact ending.move kept
  | opened i => exact (ending.writer .idle (by rintro ⟨⟩)).move kept
  | startWrite buf =>
    have writing := ending.writer (if o.stream.closed then .idle else .sending buf) (by split <;> nofun)
    exact .move (.pipe writing rfl fun stage drains arrived => ⟨stage, drains, arrived.same rfl⟩) kept
  | startClose idle =>
    unfold StreamObject.startClose
    split_ifs with closed
    · exact ending.move kept
    · exact ⟨(by rintro ⟨⟩), fun _ => rfl, fun notLocal => absurd rfl notLocal⟩
  | sent buf sending =>
    have idle := ending.writer .idle (by rintro ⟨⟩)
    exact .move (.pipe idle rfl fun stage drains arrived => ⟨stage, drains, arrived.same rfl⟩) kept
  | refused _ _ => exact (ending.writer .idle (by rintro ⟨⟩)).move kept
  | removed isIdle closing => exact (ending.writer _ fun _ => by rw [closing]; rfl).move kept
  | announced isIdle closing => exact (ending.writer _ fun _ => by rw [closing]; rfl).move kept
  | spawned closing | finSent closing => exact ending.closedHere (.inr (by rw [closing]; rfl)) rfl
  | pipeClose spawned => exact ending.closedHere (.inl spawned) rfl
  | mark cause still marking =>
    have before := ending.unclosed still
    refine ⟨(by rintro ⟨⟩), fun closing => ?_, fun _ => ?_⟩
    · cases before.symm.trans (ending.locally closing)
    · obtain ⟨stage, drains, arrived⟩ := ending.draining (by rw [before]; nofun)
      have flowing := arrived.unclosed before
      subst flowing
      refine ⟨.flowing, drains, fun _ => rfl, fun _ peer => ?_, ?_, arrived.eof, arrived.first, arrived.failed⟩
      · rcases marking with ⟨called, error, rest, receiving, -⟩ | ⟨-, rfl, -⟩ | ⟨rfl, -⟩
        · exact ⟨error, marks error rest called receiving still⟩
        · rcases peer with ⟨⟨⟩⟩ | ⟨⟨⟩⟩
        · rcases peer with ⟨⟨⟩⟩ | ⟨⟨⟩⟩
      · rintro error (⟨⟨⟩⟩ | ⟨⟨⟩⟩)
  | finish error finishes =>
    obtain ⟨cause, known, ends⟩ := marked error finishes
    exact ending.finish known ends
  | push data rest pipe n _ receiving written =>
    refine .move (ending.pipe rfl fun stage drains arrived => ?_) kept
    obtain ⟨rfl, pushed⟩ := drains.push (filled data rest receiving) written
    exact ⟨.flowing, pushed, arrived.same rfl⟩
  | startRead len _ idle =>
    refine .move (ending.pipe rfl fun stage drains arrived => ?_) kept
    rw [idle] at drains
    exact ⟨stage, drains, arrived.same rfl⟩
  | read len pc pipe state reading read =>
    exact (ending.afterRead reading fun stage drains => drains.readStep read).move kept
  | deadline len pc pipe state _ reading read =>
    exact (ending.afterRead reading fun stage drains => drains.readDeadline len read).move kept
  | dropRead len pc called reading =>
    have free := frees called
    refine .move (ending.pipe rfl fun stage drains arrived => ?_) kept
    rw [reading] at drains free
    have position : pc = .start ∨ pc = .take := by
      cases pc with
      | start => exact .inl rfl
      | take => exact .inr rfl
      | waiting => cases drains.receiver
      | recv | restore received => cases free
    exact ⟨stage, drains.dropRead position, arrived.same rfl⟩

end Ending

/-! ### Every run -/

namespace Session
variable {s t : Session} {a : SessionAction}

structure Draining (s : Session) : Prop where
  finishes : ∀ ref error, s.Finishes ref error → s.Marked ref error
  ordered : ∀ (ref : StreamRef) o, s.objects[ref]? = some o → Ordered o
  ending : ∀ (ref : StreamRef) o, s.objects[ref]? = some o → Ending s.recv ref o

theorem Fresh.draining (fresh : s.Fresh) : s.Draining :=
  ⟨fun _ _ => fresh.unfinished, fun _ _ => fresh.empty, fun _ _ => fresh.empty⟩

/-- Who closed a stream does not change. -/
theorem cause_stays {ref before after} (changed : Change s a t ref before after)
    (closed : before.stream.closed = true) : after.history.cause = before.history.cause := by
  cases changed with
  | startClose => simp [StreamObject.startClose, closed]
  | mark cause still => exact absurd (closed.symm.trans still) (by decide)
  | read len pc pipe state | deadline len pc pipe state =>
    exact congrArg (·.2.2.2) (afterRead_kept before len pipe state)
  | _ => rfl

theorem Evolved.marked (evolved : s.Evolved a t) {ref error} (marked : s.Marked ref error) : t.Marked ref error := by
  obtain ⟨o, cause, stored, closed, known, ends⟩ := marked
  obtain ⟨after, kept, change⟩ := evolved.kept stored
  exact ⟨after, cause, kept, change.closed_stays closed, (cause_stays change closed).trans known, ends⟩

/-- The receive loop queues an end as soon as it has set the flag. -/
theorem recvStep_finishing {md5} (stepped : s.recvStep md5 = some t) :
    (∀ ref error, s.recv.finishing = some (ref, error) →
      t.objects = s.objects.modify ref (·.modifyPipe (·.finishStream error))) ∧
    ∀ ref error rest o, s.recv = .closeMark ref error rest → s.objects[ref]? = some o →
      o.stream.closed = false → t.recv.finishing = some (ref, error) := by
  constructor
  · intro ref error finishing
    unfold RecvPc.finishing at finishing
    split at finishing
    · rename_i target problem rest receiving
      cases finishing
      simp only [recvStep, receiving] at stepped
      cases stepped
      rfl
    · cases finishing
  · intro ref error rest o receiving stored still
    simp only [recvStep, receiving, stored, Option.map_some, still, Bool.false_eq_true, if_false] at stepped
    cases stepped
    rfl

theorem finishing_kept (inbound : InChange s a t) (other : a ≠ .recvStep) : t.recv.finishing = s.recv.finishing := by
  cases inbound with
  | same unchanged => rw [(Prod.mk.inj unchanged).1]
  | receive chunk _ reading same =>
    rw [same, reading]
    rfl
  | disconnect error _ reading same =>
    rw [same, reading]
    rfl
  | recv called => exact absurd called other

theorem draining_step {md5} (draining : s.Draining)
    (frees : ∀ (ref : StreamRef) o, s.objects[ref]? = some o → Frees a ref o)
    (filled : ∀ ref data rest, s.recv = .pushPipe ref data rest → data ≠ [])
    (stepped : s.step md5 a = some t) : t.Draining := by
  have effect := step_effect stepped
  have marked (ref : StreamRef) (o : StreamObject) (stored : s.objects[ref]? = some o) (error : Option IoError)
      (finishes : s.Finishes ref error) : ∃ cause, o.history.cause = some cause ∧ cause.Ends error := by
    obtain ⟨p, cause, found, -, known, ends⟩ := draining.finishes ref error finishes
    cases stored.symm.trans found
    exact ⟨cause, known, ends⟩
  refine ⟨fun ref error finishes => ?_, fun ref after stored => ?_, fun ref after stored => ?_⟩
  · rcases effect.finishes ref error finishes with before | now
    · exact effect.objects.marked (draining.finishes ref error before)
    · exact now
  · rcases effect.objects.2 ref after stored with ⟨before, was, change⟩ | ⟨-, created⟩
    · exact (draining.ordered ref before was).change change (frees ref before was)
    · cases created with
      | incoming sid => exact .new sid _ _
      | opened => exact .new _ _ _
  · by_cases queueing : a = .recvStep ∧ s.recv.finishing ≠ none
    · -- the receive loop queues an end
      obtain ⟨rfl, finishing⟩ := queueing
      obtain ⟨⟨target, error⟩, finishing⟩ := Option.ne_none_iff_exists'.mp finishing
      rw [(recvStep_finishing stepped).1 target error finishing, List.getElem?_modify] at stored
      obtain ⟨before, was, rfl⟩ := Option.map_eq_some_iff.mp stored
      split_ifs with hit
      · subst hit
        obtain ⟨cause, known, ends⟩ := marked target before was error (.inl finishing)
        exact (draining.ending target before was).finish known ends
      · refine (draining.ending ref before was).move fun problem same => ?_
        cases finishing.symm.trans same
        exact absurd rfl hit
    · rcases effect.objects.2 ref after stored with ⟨before, was, change⟩ | ⟨-, created⟩
      · refine (draining.ending ref before was).change change (frees ref before was) (filled ref)
          (marked ref before was) (fun error rest called receiving still => ?_) fun error finishing => ?_
        · subst called
          exact (recvStep_finishing stepped).2 ref error rest before receiving was still
        · rw [finishing_kept effect.inbound fun called => queueing ⟨called, by rw [finishing]; nofun⟩]
          exact finishing
      · cases created with
        | incoming sid => exact .new _ _ sid rfl _
        | opened => exact .new _ _ _ rfl _

end Session

/-! ### Reading to the end -/

/-- Once a pipe is over, all that was pushed has been read. -/
theorem Ordered.complete {o error} (ordered : Ordered o)
    (drains : Drains o.stream.pipe o.reader.pc (.ended error)) : o.history.got = o.history.pushed := by
  obtain ⟨-, -, drained, empty, start⟩ := drains.stage
  simpa [start, PipeInner.unread, drained, empty, ReadPc.inHand] using ordered.order

/-- How many steps a reader needs before it hands something over, or begins a read that does. -/
def ReaderPc.effort : ReaderPc → Nat
  | .idle => 4
  | .reading len pc => pc.effort + if len = 0 then 5 else 0

/-- What the read returns that meets the end of the stream. -/
def Stage.result : Stage → Except IoError Bytes
  | .queued (some error) => .error error
  | _ => .ok []

/-- What a read returns: the next bytes, the error of its deadline, or the end of the stream
when all that was pushed has been read. -/
theorem Ordered.answers {o len pc stage pipe result} (ordered : Ordered o)
    (reading : o.reader = .reading len pc) (drains : Drains o.stream.pipe pc stage)
    (read : o.stream.pipe.readStep len pc = some (pipe, .returned result)) :
    (Drains pipe .start stage ∧ ((∃ bytes, result = .ok bytes ∧ (0 < len → bytes ≠ [])) ∨
      (pc = .restore none ∧ ∃ error, result = .error error))) ∨
    (o.history.got = o.history.pushed ∧ stage ≠ .flowing ∧ result = stage.result) := by
  have settled := ordered.settled
  rw [reading] at settled
  obtain ⟨later, after, outcome⟩ := drains.readStep read
  have complete {error : Option IoError} (none : (ReadState.returned result).bytes = []) (ended : later = .ended error) :
      o.history.got = o.history.pushed := by
    have here : Drains (o.afterRead len pipe (.returned result)).stream.pipe
        (o.afterRead len pipe (.returned result)).reader.pc (.ended error) := by
      rw [afterRead_pipe, afterRead_pc]
      exact ended ▸ after
    have all := (ordered.afterRead reading (PipeInner.readStep_unread settled read)).complete here
    have kept := afterRead_kept o len pipe (.returned result)
    simp only [Prod.mk.injEq] at kept
    rwa [afterRead_got, none, List.append_nil, kept.2.2.1] at all
  cases outcome with
  | payload _ bytes filled => exact .inl ⟨after, .inl ⟨bytes, rfl, filled⟩⟩
  | timedOut _ error =>
    rcases drains.failed_read read with late | ⟨rfl, rfl⟩
    · exact .inl ⟨after, .inr ⟨late, error, rfl⟩⟩
    · refine .inr ⟨?_, by simp, rfl⟩
      have order := ordered.order
      rw [reading] at order
      simpa [ReaderPc.pc, PipeInner.unread, drains.last.2, settled rfl, ReadPc.inHand, PipeEvent.bytes] using order
  | eof | again error | failure error => exact .inr ⟨complete rfl rfl, by simp, rfl⟩

namespace Session
variable {s : Session} {ref : StreamRef} {o : StreamObject} {stage : Stage} {len : Nat}

/-- The reader has all that was pushed, and its next step returns this result. -/
def AtEnd (s : Session) (ref : StreamRef) (pushed : Bytes) (size : Nat) (result : Except IoError Bytes) : Prop :=
  ∃ o pc pipe, s.objects[ref]? = some o ∧ o.reader = .reading size pc ∧
    o.stream.pipe.readStep size pc = some (pipe, .returned result) ∧ o.history.got = pushed

/-- A reader that goes on reading a stream whose end is queued gets all that was pushed
and then the end. -/
theorem reads_on (md5 : Bytes → String) (room : 0 < len) (stored : s.objects[ref]? = some o) (ordered : Ordered o)
    (drains : Drains o.stream.pipe o.reader.pc stage) (finished : stage ≠ .flowing) :
    ∃ actions t size, Transition.run (Session.step md5) s actions = some t ∧
      t.AtEnd ref o.history.pushed size stage.result ∧ (size = len ∨ ∃ pc, o.reader = .reading size pc) ∧
      ∀ a ∈ actions, a = .read ref len ∨ a = .readStep ref := by
  -- each step makes the read shorter or what is left to read
  induction measure : 5 * (o.stream.pipe.unread o.reader.pc).length + o.reader.effort using Nat.strongRecOn
    generalizing s o with
  | _ n ih =>
    have onward {a : SessionAction} {u : Session} {next : StreamObject}
        (called : a = .read ref len ∨ a = .readStep ref) (stepped : s.step md5 a = some u)
        (kept : u.objects[ref]? = some next) (pushed : next.history.pushed = o.history.pushed)
        (ordered : Ordered next) (drains : Drains next.stream.pipe next.reader.pc stage)
        (same : ∀ size pc, next.reader = .reading size pc → size = len ∨ ∃ pc, o.reader = .reading size pc)
        (less : 5 * (next.stream.pipe.unread next.reader.pc).length + next.reader.effort < n) :
        ∃ actions t size, Transition.run (Session.step md5) s actions = some t ∧
          t.AtEnd ref o.history.pushed size stage.result ∧ (size = len ∨ ∃ pc, o.reader = .reading size pc) ∧
          ∀ a ∈ actions, a = .read ref len ∨ a = .readStep ref := by
      obtain ⟨actions, t, size, path, atEnd, sized, only⟩ := ih _ less kept ordered drains rfl
      refine ⟨a :: actions, t, size, Transition.run_cons_some.mpr ⟨u, stepped, path⟩, pushed ▸ atEnd, ?_,
        fun b member => ?_⟩
      · rcases sized with new | ⟨pc, reading⟩
        · exact .inl new
        · exact same size pc reading
      · rcases List.mem_cons.mp member with rfl | later
        · exact called
        · exact only b later
    cases reading : o.reader with
    | idle =>
      have stepped : s.step md5 (.read ref len) =
          some (s.modifyObject ref fun o => { o with reader := .reading len .start }) := by
        simp [Session.step, stored, reading]
      have kept : (s.modifyObject ref fun o => { o with reader := .reading len .start }).objects[ref]? =
          some { o with reader := .reading len .start } := by
        simp [Session.modifyObject, stored]
      have order := ordered.order
      rw [reading] at order drains measure
      rw [← reading]
      refine onward (.inl rfl) stepped kept rfl ⟨order, (by rintro ⟨⟩)⟩ drains (by rintro _ _ ⟨⟩; exact .inl rfl) ?_
      rw [← measure]
      simp only [ReaderPc.effort, ReaderPc.pc, ReadPc.effort, if_neg (Nat.ne_of_gt room)]
      omega
    | reading size pc =>
      have settled := ordered.settled
      simp only [reading, ReaderPc.pc, ReaderPc.effort] at settled drains measure
      obtain ⟨pipe, state, read⟩ := drains.enabled finished size
      have unread := (PipeInner.readStep_unread settled read).1
      have stepped : s.step md5 (.readStep ref) = some (s.modifyObject ref (·.afterRead size pipe state)) := by
        simp only [Session.step, Session.advanceRead, stored, reading, read, Option.bind_some, Option.map_some]
      have kept : (s.modifyObject ref (·.afterRead size pipe state)).objects[ref]? =
          some (o.afterRead size pipe state) := by
        simp [Session.modifyObject, stored]
      have proceed (after : Drains pipe state.pc stage) := onward (.inr rfl) stepped kept
        (congrArg (·.2.2.1) (afterRead_kept o size pipe state))
        (ordered.afterRead reading (PipeInner.readStep_unread settled read))
        (by rwa [afterRead_pipe, afterRead_pc])
      rw [afterRead_pipe, afterRead_pc] at proceed
      rw [← reading]
      cases state with
      | running next =>
        obtain ⟨later, after, outcome⟩ := drains.readStep read
        cases outcome with
        | running =>
          have shorter := drains.effort_lt read
          refine proceed after ?_ ?_
          · rintro _ _ ⟨⟩
            exact .inr ⟨pc, reading⟩
          · rw [← measure, unread]
            simp only [ReadState.bytes, List.nil_append, StreamObject.afterRead, ReaderPc.effort]
            omega
      | returned result =>
        rcases ordered.answers reading drains read with ⟨after, ⟨bytes, rfl, filled⟩ | ⟨rfl, error, rfl⟩⟩ |
          ⟨all, -, rfl⟩
        · refine proceed after (by simp [StreamObject.afterRead]) ?_
          rw [← measure, unread]
          simp only [ReadState.bytes, List.length_append, StreamObject.afterRead, ReaderPc.effort]
          by_cases wide : size = 0
          · rw [if_pos wide]
            omega
          · have some_ := List.length_pos_of_ne_nil (filled (Nat.pos_of_ne_zero wide))
            omega
        · refine proceed after (by simp [StreamObject.afterRead]) ?_
          rw [← measure, unread]
          simp only [ReadState.bytes, List.nil_append, StreamObject.afterRead, ReaderPc.effort, ReadPc.effort]
          omega
        · exact ⟨[], s, size, rfl, ⟨o, pc, pipe, stored, reading, read, all⟩, .inr ⟨pc, reading⟩, by simp⟩

/-- A reader that goes on reading a stream that its peer has ended gets all that was pushed
and then `Ok(0)`. -/
theorem reads_to_end (md5 : Bytes → String) (room : 0 < len) (stored : s.objects[ref]? = some o) (ordered : Ordered o)
    (drains : Drains o.stream.pipe o.reader.pc stage) (finished : stage = .queued none ∨ stage = .ended none)
    (rooms : ∀ n pc, o.reader = .reading n pc → 0 < n) :
    ∃ actions t after, Transition.run (Session.step md5) s actions = some t ∧ t.objects[ref]? = some after ∧
      after.history.eof = true ∧ after.history.got = o.history.pushed ∧
      ∀ a ∈ actions, a = .read ref len ∨ a = .readStep ref := by
  have unfinished : stage ≠ .flowing := by
    rcases finished with rfl | rfl
    · simp
    · simp
  have result : stage.result = .ok [] := by
    rcases finished with rfl | rfl
    · rfl
    · rfl
  obtain ⟨actions, t, size, path, ⟨last, pc, pipe, here, reading, read, got⟩, sized, only⟩ :=
    reads_on md5 room stored ordered drains unfinished
  have wide : 0 < size := by
    rcases sized with rfl | ⟨pc, reading⟩
    · exact room
    · exact rooms size pc reading
  rw [result] at read
  have stepped : t.step md5 (.readStep ref) = some (t.modifyObject ref (·.afterRead size pipe (.returned (.ok [])))) := by
    simp only [Session.step, Session.advanceRead, here, reading, read, Option.bind_some, Option.map_some]
  refine ⟨actions ++ [.readStep ref], _, last.afterRead size pipe (.returned (.ok [])),
    Transition.run_append_some.mpr ⟨t, path, Transition.run_cons_some.mpr ⟨_, stepped, rfl⟩⟩, ?_, ?_, ?_,
    fun a member => ?_⟩
  · simp [Session.modifyObject, here]
  · simp [StreamObject.afterRead, wide]
  · simpa [StreamObject.afterRead] using got
  · rcases List.mem_append.mp member with old | new
    · exact only a old
    · exact .inr (List.mem_singleton.mp new)

end Session

end AnyTls

import AnyTls.Library.Transition
import AnyTls.Proxy.PipeStage
import AnyTls.Proxy.StreamReader

/-! The pipe as its two sides see it: any number of writes, the end of the stream and
the reads of one reader, whose deadline may fire at any time. The reads return what was
written, then the end, and then nothing more. -/
namespace AnyTls

/-- A pipe and what its two sides have seen of it. -/
structure PipeRun where
  pipe : PipeInner
  reading : ReadFut
  /-- the deadline has fired during the read in progress -/
  expired : Bool
  /-- the successful writes -/
  written : List Bytes
  /-- the argument of the first `finish_stream` -/
  finished : Option (Option IoError)
  /-- what the reads returned, and whether the deadline had fired -/
  results : List (Bool × Except IoError Bytes)

inductive PipeAction where
  | write (buf : Bytes)
  | finish (error : Option IoError)
  | begin (len : Nat)
  | read
  | deadline

/-- A write and a buffer are not empty. -/
def PipeAction.Proper : PipeAction → Prop
  | .write buf => buf ≠ []
  | .begin len => 0 < len
  | .finish _ | .read | .deadline => True

def deadlineReached : IoError := ⟨.timedOut, "read deadline reached"⟩

namespace PipeRun

def new : PipeRun := ⟨.new, none, false, [], none, []⟩

def advance (s : PipeRun) (len : Nat) : PipeInner × ReadState → PipeRun
  | (pipe, .running pc) => { s with pipe := pipe, reading := some (len, pc) }
  | (pipe, .returned result) =>
    { s with pipe := pipe, reading := none, results := s.results ++ [(s.expired, result)] }

def step (s : PipeRun) : PipeAction → Option PipeRun
  | .write buf =>
    match s.pipe.write buf with
    | (.ok _, pipe) => some { s with pipe := pipe, written := s.written ++ [buf] }
    | (.error _, pipe) => some { s with pipe := pipe }
  | .finish error =>
    some { s with pipe := s.pipe.finishStream error, finished := s.finished.or (some error) }
  | .begin len =>
    match s.reading with
    | none => some { s with reading := some (len, .start), expired := false }
    | some _ => none
  | .read =>
    match s.reading with
    | none => none
    | some (len, pc) => (s.pipe.readStep len pc).map (s.advance len)
  | .deadline =>
    match s.reading with
    | none => none
    | some (len, pc) => (s.pipe.readDeadline pc).map ({ s with expired := true }.advance len)

/-- The results of the reads whose deadline had not fired. -/
def answers (s : PipeRun) : List (Except IoError Bytes) :=
  (s.results.filter fun result => !result.1).map Prod.snd

/-- The bytes of the successful reads. -/
def returned (s : PipeRun) : Bytes := s.results.flatMap fun result => (ReadState.returned result.2).bytes

end PipeRun

/-! ### One read -/

theorem ReadPc.effort_le (pc : ReadPc) : pc.effort ≤ 5 := by
  cases pc with
  | restore received => cases received <;> simp [effort]
  | start | waiting | take | recv => simp [effort]

namespace Drains
variable {pipe pipe' : PipeInner} {pc : ReadPc} {stage : Stage} {len : Nat}

/-- A read past its deadline puts the receiver back and fails. -/
theorem expired_read (drains : Drains pipe (.restore none) stage) (len) :
    pipe.readStep len (.restore none) =
      some ({ pipe with dataReceiver := .inPipe }, .returned (.error deadlineReached)) := by
  have sender := (drains.opened (drains.underway (by simp))).2
  simp only [PipeInner.readStep, PipeInner.restore, drains.noError, sender, if_true]
  rfl

/-- A read that goes on has not reached its deadline. -/
theorem running_timely {next} (drains : Drains pipe pc stage)
    (read : pipe.readStep len pc = some (pipe', .running next)) : pc ≠ .restore none ∧ next ≠ .restore none := by
  have less := drains.effort_lt read
  constructor
  · rintro rfl
    cases (drains.expired_read len).symm.trans read
  · -- no position is further from an answer than a read past its deadline
    rintro rfl
    exact Nat.not_lt.mpr pc.effort_le less

/-- A read in time returns a payload, or the end of the stream, or nothing after it. -/
theorem answer {result} (drains : Drains pipe pc stage) (timely : pc ≠ .restore none) (room : 0 < len)
    (read : pipe.readStep len pc = some (pipe', .returned result)) :
    (∃ bytes, result = .ok bytes ∧ bytes ≠ [] ∧ Drains pipe' .start stage) ∨
    (∃ error, stage = .queued error ∧ result = streamEnding error ∧ Drains pipe' .start (.ended error)) ∨
    ∃ error, stage = .ended error ∧ result = .ok [] ∧ Drains pipe' .start stage := by
  obtain ⟨next, drained, outcome⟩ := drains.readStep read
  cases outcome with
  | payload _ bytes filled => exact .inl ⟨bytes, rfl, filled room, drained⟩
  | timedOut _ error =>
    rcases drains.failed_read read with late | ⟨rfl, rfl⟩
    · exact absurd late timely
    · -- the end of the stream has been taken, so its stage has moved on
      cases read
      cases drained.stage.1
  | eof => exact .inr (.inl ⟨none, rfl, rfl, drained⟩)
  | failure error => exact .inr (.inl ⟨some error, rfl, rfl, drained⟩)
  | again error => exact .inr (.inr ⟨error, rfl, rfl, drained⟩)

/-- Once the end of the stream is queued, nothing is written. -/
theorem refuses (drains : Drains pipe pc stage) (finished : stage ≠ .flowing) (buf) :
    pipe.write buf = (.error ⟨.brokenPipe, "Pipe closed"⟩, pipe) := by
  have holds := drains.stage
  have shut : (pipe.closed || pipe.streamEndQueued) = true := by
    cases stage with
    | flowing => exact absurd rfl finished
    | queued error => rw [holds.2.1, Bool.or_true]
    | ended error => rw [holds.1, Bool.true_or]
  rw [PipeInner.write, if_pos shut]

theorem ended_unread {error} (drains : Drains pipe pc (.ended error)) : pipe.unread pc = [] := by
  obtain ⟨-, -, drained, empty, rfl⟩ := drains.stage
  simp [PipeInner.unread, drained, empty, ReadPc.inHand]

end Drains

theorem PipeInner.write_error {pipe pipe' : PipeInner} {buf error}
    (written : pipe.write buf = (.error error, pipe')) : pipe' = pipe := by
  unfold write send at written
  split_ifs at written
  · cases written
    rfl
  · cases written
    rfl
  · cases written
  · cases written
    rfl

/-! ### Runs -/

/-- The end of the stream that a stage has seen queued. -/
def Stage.finish? : Stage → Option (Option IoError)
  | .flowing => none
  | .queued error | .ended error => some error

/-- What the reads have answered after the last payload. -/
def Stage.Closing : Stage → List (Except IoError Bytes) → Prop
  | .flowing, endings | .queued _, endings => endings = []
  | .ended error, endings => ∃ n, endings = streamEnding error :: List.replicate n (.ok [])

theorem Stage.Closing.before {stage : Stage} {endings} (closing : stage.Closing endings)
    (unended : ∀ error, stage ≠ .ended error) : endings = [] := by
  cases stage with
  | flowing => exact closing
  | queued error => exact closing
  | ended error => exact absurd rfl (unended error)

namespace PipeRun
variable {s t : PipeRun} {a : PipeAction} {actions : List PipeAction}

structure Reads (s : PipeRun) (stage : Stage) (payloads : List Bytes) (endings : List (Except IoError Bytes)) :
    Prop where
  drains : Drains s.pipe s.reading.pc stage
  finished : s.finished = stage.finish?
  room : ∀ len pc, s.reading = some (len, pc) → 0 < len
  late : ∀ len pc, s.reading = some (len, pc) → (s.expired = true ↔ pc = .restore none)
  ordered : s.returned ++ s.pipe.unread s.reading.pc = s.written.flatten
  contents : s.returned = payloads.flatten
  filled : ∀ bytes ∈ payloads, bytes ≠ []
  answers : s.answers = payloads.map .ok ++ endings
  closing : stage.Closing endings
  timeouts : ∀ result, (true, result) ∈ s.results → result = .error deadlineReached

def Orderly (s : PipeRun) : Prop := ∃ stage payloads endings, s.Reads stage payloads endings

theorem orderly_new : Orderly new :=
  ⟨.flowing, [], [], .new, rfl, (by rintro _ _ ⟨⟩), (by rintro _ _ ⟨⟩), rfl, rfl, (by simp), rfl, rfl,
    (by simp [new])⟩

variable {stage : Stage} {payloads : List Bytes} {endings : List (Except IoError Bytes)}

theorem Reads.write (reads : s.Reads stage payloads endings) {buf} (filled : buf ≠ [])
    (stepped : s.step (.write buf) = some t) : t.Orderly := by
  simp only [step] at stepped
  split at stepped
  · rename_i n pipe written
    cases stepped
    obtain ⟨rfl, drains⟩ := reads.drains.push filled written
    have order : pipe.unread s.reading.pc = s.pipe.unread s.reading.pc ++ buf := (PipeInner.write_unread written).1
    refine ⟨.flowing, payloads, endings, { reads with drains := drains, ordered := ?_ }⟩
    rw [order, ← List.append_assoc]
    exact (congrArg (· ++ buf) reads.ordered).trans (by simp)
  · rename_i error pipe written
    cases stepped
    cases PipeInner.write_error written
    exact ⟨stage, payloads, endings, reads⟩

theorem Reads.finish (reads : s.Reads stage payloads endings) (error)
    (stepped : s.step (.finish error) = some t) : t.Orderly := by
  cases stepped
  obtain ⟨next, drains, change⟩ := reads.drains.finish error
  have order : (s.pipe.finishStream error).unread s.reading.pc = s.pipe.unread s.reading.pc :=
    (PipeInner.finishStream_unread error).1
  have ordered : s.returned ++ (s.pipe.finishStream error).unread s.reading.pc = s.written.flatten := by
    rw [order]
    exact reads.ordered
  refine ⟨next, payloads, endings, { reads with
    drains := drains, ordered := ordered, finished := ?_, closing := ?_ }⟩
  · rw [reads.finished]
    rcases change with ⟨rfl, rfl⟩ | ⟨late, rfl⟩
    · rfl
    · cases next with
      | flowing => exact absurd rfl late
      | queued other => rfl
      | ended other => rfl
  · rcases change with ⟨rfl, rfl⟩ | ⟨-, rfl⟩
    · exact reads.closing
    · exact reads.closing

theorem Reads.begin (reads : s.Reads stage payloads endings) {len} (positive : 0 < len)
    (stepped : s.step (.begin len) = some t) : t.Orderly := by
  simp only [step] at stepped
  split at stepped
  · rename_i idle
    cases stepped
    have same : s.reading.pc = .start := by rw [idle]; rfl
    have drains := reads.drains
    have ordered := reads.ordered
    rw [same] at drains ordered
    refine ⟨stage, payloads, endings, { reads with drains := drains, ordered := ordered, room := ?_, late := ?_ }⟩
    · rintro _ _ ⟨⟩
      exact positive
    · rintro _ _ ⟨⟩
      simp
  · cases stepped

/-- A read goes on. -/
theorem Reads.goes (reads : s.Reads stage payloads endings) {len pipe pc} (drains : Drains pipe pc stage)
    (unread : s.pipe.unread s.reading.pc = pipe.unread pc) (positive : 0 < len) {expired}
    (late : expired = true ↔ pc = .restore none) :
    ({ s with expired := expired }.advance len (pipe, .running pc)).Orderly := by
  have ordered := reads.ordered
  rw [unread] at ordered
  refine ⟨stage, payloads, endings, { reads with drains := drains, ordered := ordered, room := ?_, late := ?_ }⟩
  · rintro _ _ ⟨⟩
    exact positive
  · rintro _ _ ⟨⟩
    exact late

/-- A read returns. -/
theorem Reads.record (reads : s.Reads stage payloads endings) {pipe result next payloads' endings'} (len)
    (drains : Drains pipe .start next) (finished : next.finish? = stage.finish?)
    (order : s.pipe.unread s.reading.pc = (ReadState.returned result).bytes ++ pipe.unread .start)
    (contents : payloads'.flatten = payloads.flatten ++ (ReadState.returned result).bytes)
    (filled : ∀ bytes ∈ payloads', bytes ≠ [])
    (answers : payloads'.map .ok ++ endings' = payloads.map .ok ++ endings ++ if s.expired then [] else [result])
    (closing : next.Closing endings') (timeout : s.expired = true → result = .error deadlineReached) :
    (s.advance len (pipe, .returned result)).Reads next payloads' endings' := by
  have returned : (s.advance len (pipe, .returned result)).returned =
      s.returned ++ (ReadState.returned result).bytes := by
    simp [PipeRun.returned, advance]
  refine ⟨drains, reads.finished.trans finished.symm, (by rintro _ _ ⟨⟩), (by rintro _ _ ⟨⟩), ?_, ?_, filled, ?_,
    closing, ?_⟩
  · rw [returned, List.append_assoc]
    exact (congrArg (s.returned ++ ·) order.symm).trans reads.ordered
  · rw [returned, reads.contents, contents]
  · rw [answers, ← reads.answers]
    cases expired : s.expired <;> simp [PipeRun.answers, advance, expired]
  · intro other member
    rcases List.mem_append.mp member with old | new
    · exact reads.timeouts other old
    · obtain ⟨overdue, rfl⟩ := Prod.mk.inj (List.mem_singleton.mp new)
      exact timeout overdue.symm

theorem Reads.returns (reads : s.Reads stage payloads endings) {len pc pipe result}
    (reading : s.reading = some (len, pc)) (read : s.pipe.readStep len pc = some (pipe, .returned result)) :
    (s.advance len (pipe, .returned result)).Orderly := by
  have position : s.reading.pc = pc := by rw [reading]; rfl
  have drains : Drains s.pipe pc stage := position ▸ reads.drains
  have order : s.pipe.unread s.reading.pc = (ReadState.returned result).bytes ++ pipe.unread .start := by
    rw [position]
    exact (PipeInner.readStep_unread drains.settled read).1
  by_cases late : pc = .restore none
  · -- nothing has been received: the read answers with its deadline
    subst late
    have overdue : s.expired = true := (reads.late _ _ reading).mpr rfl
    cases (drains.expired_read len).symm.trans read
    have back : Drains { s.pipe with dataReceiver := .inPipe } .start stage :=
      drains.move (drains.underway (by simp)) rfl rfl (by simp [ReadPc.pastBuffer])
    exact ⟨stage, payloads, endings, reads.record len back rfl order (by simp [ReadState.bytes]) reads.filled
      (by simp [overdue]) reads.closing fun _ => rfl⟩
  · have timely : s.expired = false := by
      cases overdue : s.expired with
      | false => rfl
      | true => exact absurd ((reads.late _ _ reading).mp overdue) late
    have inTime : s.expired = true → result = .error deadlineReached := by
      rw [timely]
      rintro ⟨⟩
    rcases drains.answer late (reads.room _ _ reading) read with
      ⟨bytes, rfl, filled, onward⟩ | ⟨error, rfl, rfl, onward⟩ | ⟨error, rfl, rfl, onward⟩
    · have unended : ∀ error, stage ≠ .ended error := by
        rintro error rfl
        rw [position, drains.ended_unread] at order
        exact filled (List.append_eq_nil_iff.mp order.symm).1
      have none_yet := reads.closing.before unended
      refine ⟨stage, payloads ++ [bytes], endings, reads.record len onward rfl order (by simp [ReadState.bytes])
        (fun other member => ?_) (by simp [timely, none_yet]) reads.closing inTime⟩
      rcases List.mem_append.mp member with old | new
      · exact reads.filled other old
      · cases List.mem_singleton.mp new
        exact filled
    · have none_yet : endings = [] := reads.closing
      have silent : (ReadState.returned (streamEnding error)).bytes = [] := by cases error <;> rfl
      exact ⟨.ended error, payloads, [streamEnding error], reads.record len onward rfl order (by simp [silent])
        reads.filled (by simp [timely, none_yet]) ⟨0, rfl⟩ inTime⟩
    · obtain ⟨n, rfl⟩ := reads.closing
      refine ⟨.ended error, payloads, _, reads.record len onward rfl order (by simp [ReadState.bytes]) reads.filled
        ?_ ⟨n + 1, rfl⟩ inTime⟩
      simp [timely, List.replicate_succ']

theorem Reads.step (reads : s.Reads stage payloads endings) (proper : a.Proper) (stepped : s.step a = some t) :
    t.Orderly := by
  cases a with
  | write buf => exact reads.write proper stepped
  | finish error => exact reads.finish error stepped
  | begin len => exact reads.begin proper stepped
  | read =>
    simp only [PipeRun.step] at stepped
    split at stepped
    · cases stepped
    · rename_i len pc reading
      obtain ⟨⟨pipe, state⟩, read, rfl⟩ := Option.map_eq_some_iff.mp stepped
      cases state with
      | returned result => exact reads.returns reading read
      | running next =>
        have position : s.reading.pc = pc := by rw [reading]; rfl
        have drains : Drains s.pipe pc stage := position ▸ reads.drains
        obtain ⟨onward, drained, outcome⟩ := drains.readStep read
        cases outcome
        have order := (PipeInner.readStep_unread drains.settled read).1
        rw [← position] at order
        have timely := drains.running_timely read
        have inTime : s.expired = true ↔ next = .restore none := by
          rw [reads.late _ _ reading]
          exact iff_of_false timely.1 timely.2
        exact reads.goes drained order (reads.room _ _ reading) inTime
  | deadline =>
    simp only [PipeRun.step] at stepped
    split at stepped
    · cases stepped
    · rename_i len pc reading
      have position : s.reading.pc = pc := by rw [reading]; rfl
      have drains : Drains s.pipe pc stage := position ▸ reads.drains
      obtain ⟨⟨pipe, state⟩, fired, rfl⟩ := Option.map_eq_some_iff.mp stepped
      cases pc with
      | recv =>
        cases fired
        have waits : Drains s.pipe (.restore none) stage :=
          drains.move (drains.underway (by simp)) drains.receiver rfl fun _ => drains.settled rfl
        have order : s.pipe.unread s.reading.pc = s.pipe.unread (.restore none) := by
          rw [position]
          rfl
        exact reads.goes waits order (reads.room _ _ reading) (iff_of_true rfl rfl)
      | waiting => cases drains.receiver
      | start | take | restore received => cases fired

theorem orderly_step (orderly : s.Orderly) (proper : a.Proper) (stepped : s.step a = some t) : t.Orderly := by
  obtain ⟨stage, payloads, endings, reads⟩ := orderly
  exact reads.step proper stepped

/-- Once the end of the stream is queued, a read waits for nothing. -/
theorem Orderly.answered {fuel len pc} (orderly : s.Orderly) (finished : s.finished ≠ none)
    (reading : s.reading = some (len, pc)) (enough : pc.effort < fuel) :
    ∃ n ≤ fuel, ∃ t, Transition.run PipeRun.step s (List.replicate n .read) = some t ∧ t.reading = none := by
  induction fuel generalizing s pc with
  | zero => exact absurd enough (Nat.not_lt_zero _)
  | succ fuel ih =>
    obtain ⟨stage, payloads, endings, reads⟩ := id orderly
    have drains : Drains s.pipe pc stage := by
      have here := reads.drains
      rwa [reading] at here
    have ending : stage ≠ .flowing := by
      rintro rfl
      exact finished reads.finished
    obtain ⟨pipe, state, read⟩ := drains.enabled ending len
    have stepped : s.step .read = some (s.advance len (pipe, state)) := by
      simp only [PipeRun.step, reading, read, Option.map_some]
    cases state with
    | returned result =>
      exact ⟨1, Nat.le_add_left _ _, _, Transition.run_cons_some.mpr ⟨_, stepped, rfl⟩, rfl⟩
    | running next =>
      have less := drains.effort_lt read
      have onward : (s.advance len (pipe, .running next)).Orderly :=
        orderly_step orderly (a := .read) trivial stepped
      obtain ⟨n, bound, t, path, idle⟩ := ih onward finished rfl (by omega)
      exact ⟨n + 1, Nat.succ_le_succ bound, t, Transition.run_cons_some.mpr ⟨_, stepped, path⟩, idle⟩

/-- The reads of a pipe return the bytes written, then the end of the stream with its
error, and then nothing more; one past its deadline leaves all for the next. -/
theorem pipe_semantics (proper : ∀ a ∈ actions, a.Proper) (path : Transition.run step new actions = some s) :
    s.returned ++ s.pipe.unread s.reading.pc = s.written.flatten ∧
    (∀ result, (true, result) ∈ s.results → result = .error deadlineReached) ∧
    (s.expired = true → ∀ len pc, s.reading = some (len, pc) → s.step .read = some { s with
      pipe := { s.pipe with dataReceiver := .inPipe }, reading := none,
      results := s.results ++ [(true, .error deadlineReached)] }) ∧
    (s.finished ≠ none → ∀ buf, s.pipe.write buf = (.error ⟨.brokenPipe, "Pipe closed"⟩, s.pipe)) ∧
    (∃ payloads : List Bytes, (∀ bytes ∈ payloads, bytes ≠ []) ∧ s.returned = payloads.flatten ∧
      (s.answers = payloads.map .ok ∨
        ∃ error n, s.finished = some error ∧ payloads.flatten = s.written.flatten ∧
          s.answers = payloads.map .ok ++ streamEnding error :: List.replicate n (.ok []))) ∧
    (s.finished ≠ none → ∀ len pc, s.reading = some (len, pc) →
      ∃ n ≤ 6, ∃ t, Transition.run step s (List.replicate n .read) = some t ∧ t.reading = none) := by
  have along : Transition.Along step (fun _ a => a.Proper) new actions := Transition.along_of_mem proper
  have orderly : s.Orderly := Transition.invariant_along orderly_step orderly_new along path
  obtain ⟨stage, payloads, endings, reads⟩ := id orderly
  refine ⟨reads.ordered, reads.timeouts, ?_, ?_, ?_, fun finished len pc reading =>
    orderly.answered finished reading (Nat.lt_succ_of_le pc.effort_le)⟩
  · intro expired len pc reading
    cases (reads.late _ _ reading).mp expired
    have drains := reads.drains
    rw [reading] at drains
    simp only [step, reading, drains.expired_read len, Option.map_some, advance, expired]
  · intro finished buf
    refine reads.drains.refuses ?_ buf
    rintro rfl
    exact finished reads.finished
  · refine ⟨payloads, reads.filled, reads.contents, ?_⟩
    have closing := reads.closing
    cases stage with
    | flowing | queued error =>
      cases closing
      exact .inl (reads.answers.trans (List.append_nil _))
    | ended error =>
      obtain ⟨n, rfl⟩ := closing
      refine .inr ⟨error, n, reads.finished, ?_, reads.answers⟩
      rw [← reads.contents, ← reads.ordered, reads.drains.ended_unread, List.append_nil]

/-- Two payloads are read through small buffers, around a failed write and a deadline,
and then the error of the peer. -/
def drainingRun : List PipeAction :=
  [.write [1, 2], .begin 1, .read, .read, .read, .read, .write [3], .begin 4, .read,
    .finish (some ⟨.other, "peer failed"⟩), .write [9], .begin 4, .read, .read, .deadline, .read,
    .begin 4, .read, .read, .read, .read, .begin 4, .read, .read, .read, .read, .begin 4, .read]

theorem drainingRun_answers : ∃ s, Transition.run step new drainingRun = some s ∧
    s.answers = [.ok [1], .ok [2], .ok [3], .error ⟨.other, "peer failed"⟩, .ok []] ∧
    s.returned ++ s.pipe.unread s.reading.pc = s.written.flatten := by
  have reached : (Transition.run step new drainingRun).any (fun s =>
      decide (s.answers = [.ok [1], .ok [2], .ok [3], .error ⟨.other, "peer failed"⟩, .ok []])) = true := by
    decide +kernel
  obtain ⟨s, path, found⟩ := (Option.any_eq_true _ _).mp reached
  have answers := of_decide_eq_true found
  have proper : ∀ a ∈ drainingRun, a.Proper := by
    simp [drainingRun, PipeAction.Proper]
  exact ⟨s, path, answers, (pipe_semantics proper path).1⟩

end PipeRun

end AnyTls

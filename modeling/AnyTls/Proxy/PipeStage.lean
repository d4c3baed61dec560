import AnyTls.Proxy.PipeOrder

/-! How a pipe with one reader comes to its end, while nothing but the peer ends it: it
flows, then holds the end of the stream behind the last payload, and is over once a read
has taken that end. -/
namespace AnyTls

/-- How far the pipe of a stream is towards its end. -/
inductive Stage where
  | flowing
  | queued (error : Option IoError)
  | ended (error : Option IoError)

/-- What the read that takes the end of the stream returns. -/
def streamEnding : Option IoError → Except IoError Bytes
  | some error => .error error
  | none => .ok []

/-- The event a read has received and not yet handed over. -/
def ReadPc.held : ReadPc → List PipeEvent
  | .restore (some event) => [event]
  | _ => []

def PipeEvent.isData : PipeEvent → Bool
  | .data _ => true
  | .streamEnd _ => false

/-- The events of a pipe that no read has handed over. -/
def PipeInner.events (pipe : PipeInner) (pc : ReadPc) : List PipeEvent := pc.held ++ pipe.channel

def Stage.Holds (pipe : PipeInner) (pc : ReadPc) : Stage → Prop
  | .flowing => pipe.closed = false ∧ pipe.streamEndQueued = false ∧ pipe.dataSender = true ∧
      ∀ event ∈ pipe.events pc, event.isData = true
  | .queued error => pipe.closed = false ∧ pipe.streamEndQueued = true ∧ pipe.dataSender = true ∧
      ∃ payload, (∀ event ∈ payload, event.isData = true) ∧ pipe.events pc = payload ++ [.streamEnd error]
  | .ended _ => pipe.closed = true ∧ pipe.dataSender = false ∧ pipe.channel = [] ∧ pipe.buffer = [] ∧
      pc = .start

/-- Where the receiver is while a read with this position is the only one. -/
def ReadPc.receiver : ReadPc → Option Receiver
  | .start | .take => some .inPipe
  | .recv | .restore _ => some .taken
  | .waiting => none

structure Drains (pipe : PipeInner) (pc : ReadPc) (stage : Stage) : Prop where
  receiver : pc.receiver = some pipe.dataReceiver
  noError : pipe.readError = none
  filled : ∀ bytes, .data bytes ∈ pipe.events pc → bytes ≠ []
  settled : pc.pastBuffer = true → pipe.buffer = []
  stage : stage.Holds pipe pc

/-- What a step of a read makes of the stage. -/
inductive ReadOutcome (len : Nat) : Stage → ReadState → Stage → Prop where
  | running (stage pc) : ReadOutcome len stage (.running pc) stage
  | payload (stage bytes) : (0 < len → bytes ≠ []) → ReadOutcome len stage (.returned (.ok bytes)) stage
  | timedOut (stage error) : ReadOutcome len stage (.returned (.error error)) stage
  | eof : ReadOutcome len (.queued none) (.returned (.ok [])) (.ended none)
  | failure (error) : ReadOutcome len (.queued (some error)) (.returned (.error error)) (.ended (some error))
  | again (error) : ReadOutcome len (.ended error) (.returned (.ok [])) (.ended error)

/-- How many steps a read needs before it hands something over. -/
def ReadPc.effort : ReadPc → Nat
  | .restore none => 5
  | .start => 3
  | .take => 2
  | .recv => 1
  | .restore (some _) | .waiting => 0

namespace Drains
variable {pipe pipe' : PipeInner} {pc next : ReadPc} {stage : Stage} {len : Nat} {state : ReadState}

theorem new : Drains PipeInner.new .start .flowing :=
  ⟨rfl, rfl, nofun, nofun, rfl, rfl, rfl, nofun⟩

/-- The position changes and the pipe keeps all but the place of its receiver. -/
theorem move (drains : Drains pipe pc stage) {next place} (unended : ∀ error, stage ≠ .ended error)
    (receiver : next.receiver = some place) (held : next.held = pc.held)
    (settled : next.pastBuffer = true → pipe.buffer = []) :
    Drains { pipe with dataReceiver := place } next stage := by
  have events : PipeInner.events { pipe with dataReceiver := place } next = pipe.events pc := by
    rw [PipeInner.events, PipeInner.events, held]
  refine ⟨receiver, drains.noError, events ▸ drains.filled, settled, ?_⟩
  have holds := drains.stage
  cases stage with
  | flowing =>
    unfold Stage.Holds at holds ⊢
    rw [events]
    exact holds
  | queued error =>
    unfold Stage.Holds at holds ⊢
    rw [events]
    exact holds
  | ended error => exact absurd rfl (unended error)

theorem opened (drains : Drains pipe pc stage) (unended : ∀ error, stage ≠ .ended error) :
    pipe.closed = false ∧ pipe.dataSender = true := by
  have holds := drains.stage
  cases stage with
  | flowing => exact ⟨holds.1, holds.2.2.1⟩
  | queued error => exact ⟨holds.1, holds.2.2.1⟩
  | ended error => exact absurd rfl (unended error)

theorem underway (drains : Drains pipe pc stage) (started : pc ≠ .start) (error) :
    stage ≠ .ended error := by
  rintro rfl
  exact started drains.stage.2.2.2.2

/-- The next event of the channel is taken in hand. -/
theorem receive (drains : Drains pipe .recv stage) {event rest} (queued : pipe.channel = event :: rest) :
    Drains { pipe with channel := rest } (.restore (some event)) stage := by
  have events : PipeInner.events { pipe with channel := rest } (.restore (some event)) = pipe.events .recv := by
    simp [PipeInner.events, ReadPc.held, queued]
  refine ⟨drains.receiver, drains.noError, events ▸ drains.filled, fun _ => drains.settled rfl, ?_⟩
  have holds := drains.stage
  cases stage with
  | flowing =>
    unfold Stage.Holds at holds ⊢
    rw [events]
    exact holds
  | queued error =>
    unfold Stage.Holds at holds ⊢
    rw [events]
    exact holds
  | ended error => cases holds.2.2.2.2

/-- A payload in hand is handed over; what does not fit goes to the side buffer. -/
theorem handOver {data} (drains : Drains pipe (.restore (some (.data data))) stage) (buffer) :
    Drains { pipe with dataReceiver := .inPipe, buffer := buffer } .start stage := by
  refine ⟨rfl, drains.noError, fun bytes member => ?_, nofun, ?_⟩
  · exact drains.filled bytes (List.mem_append_right _ member)
  have holds := drains.stage
  cases stage with
  | flowing =>
    obtain ⟨closed, unfinished, sender, payload⟩ := holds
    exact ⟨closed, unfinished, sender, fun event member => payload event (List.mem_append_right _ member)⟩
  | queued error =>
    obtain ⟨closed, finished, sender, payload, data, events⟩ := holds
    refine ⟨closed, finished, sender, payload.tail, fun event member => ?_, ?_⟩
    · exact data event (List.mem_of_mem_tail member)
    · cases payload with
      | nil => cases events
      | cons first payload =>
        rw [List.cons_append, PipeInner.events, ReadPc.held, List.singleton_append, List.cons.injEq] at events
        exact events.2
  | ended error => cases holds.2.2.2.2

/-- Nothing follows the end of the stream. -/
theorem last {error} (drains : Drains pipe (.restore (some (.streamEnd error))) stage) :
    stage = .queued error ∧ pipe.channel = [] := by
  have holds := drains.stage
  cases stage with
  | flowing => cases holds.2.2.2 _ List.mem_cons_self
  | ended other => cases holds.2.2.2.2
  | queued other =>
    obtain ⟨-, -, -, payload, data, events⟩ := holds
    rw [PipeInner.events, ReadPc.held, List.singleton_append] at events
    cases payload with
    | nil =>
      obtain ⟨first, rest⟩ := List.cons.inj events
      cases first
      exact ⟨rfl, rest⟩
    | cons first payload =>
      cases (List.cons.inj events).1
      cases data _ List.mem_cons_self

/-- A read that holds the end of the stream ends the pipe. -/
theorem finishes {error} (drains : Drains pipe (.restore (some (.streamEnd error))) stage) :
    Drains { pipe with dataReceiver := .inPipe, closed := true, dataSender := false } .start (.ended error) := by
  have drained := drains.last.2
  refine ⟨rfl, drains.noError, ?_, nofun, rfl, rfl, drained, drains.settled rfl, rfl⟩
  simp [PipeInner.events, ReadPc.held, drained]

/-- A read takes from the side buffer. -/
theorem takeBuffer (drains : Drains pipe .start stage) (filled : pipe.buffer ≠ []) (rest) :
    Drains { pipe with buffer := rest } .start stage := by
  refine ⟨drains.receiver, drains.noError, drains.filled, nofun, ?_⟩
  have holds := drains.stage
  cases stage with
  | flowing => exact holds
  | queued error => exact holds
  | ended error => exact absurd holds.2.2.2.1 filled

theorem inPipe (drains : Drains pipe pc stage) (outside : pc = .start ∨ pc = .take) :
    pipe.dataReceiver = .inPipe := by
  have receiver := drains.receiver
  rcases outside with rfl | rfl
  · exact (Option.some.inj receiver).symm
  · exact (Option.some.inj receiver).symm

theorem readStep (drains : Drains pipe pc stage) (read : pipe.readStep len pc = some (pipe', state)) :
    ∃ next, Drains pipe' state.pc next ∧ ReadOutcome len stage state next := by
  cases PipeInner.readStep_move read with
  | buffered filled => exact ⟨stage, drains.takeBuffer filled _, .payload _ _ (take_ne_nil filled)⟩
  | failsClosed _ _ _ failed | failsDrained failed => cases drains.noError.symm.trans failed
  | endsClosed _ closed =>
    cases stage with
    | ended error => exact ⟨_, drains, .again error⟩
    | flowing | queued error => cases drains.stage.1.symm.trans closed
  | finds empty live =>
    have unended : ∀ error, stage ≠ .ended error := by
      rintro error rfl
      cases (live drains.stage.1).symm.trans drains.stage.2.1
    exact ⟨stage, drains.move unended drains.receiver rfl fun _ => empty, .running _ _⟩
  | parks _ _ busy => exact absurd (drains.inPipe (.inl rfl)) busy
  | inUse busy => exact absurd (drains.inPipe (.inr rfl)) busy
  | wakes => cases drains.receiver
  | takes =>
    exact ⟨stage, drains.move (drains.underway (by simp)) rfl rfl fun _ => drains.settled rfl, .running _ _⟩
  | receives queued => exact ⟨stage, drains.receive queued, .running _ _⟩
  | drained _ senderless | endsDrained _ senderless =>
    cases senderless.symm.trans (drains.opened (drains.underway (by simp))).2
  | handsOver data =>
    exact ⟨stage, drains.handOver _, .payload _ _ (take_ne_nil (drains.filled data List.mem_cons_self))⟩
  | fails error =>
    obtain ⟨rfl, -⟩ := drains.last
    exact ⟨_, drains.finishes, .failure error⟩
  | ends =>
    obtain ⟨rfl, -⟩ := drains.last
    exact ⟨_, drains.finishes, .eof⟩
  | timesOut =>
    have back : Drains { pipe with dataReceiver := .inPipe } .start stage :=
      drains.move (drains.underway (by simp)) rfl rfl (by simp [ReadPc.pastBuffer])
    exact ⟨stage, back, .timedOut _ _⟩

theorem readDeadline (drains : Drains pipe pc stage) (len)
    (read : pipe.readDeadline pc = some (pipe', state)) :
    ∃ next, Drains pipe' state.pc next ∧ ReadOutcome len stage state next := by
  cases pc with
  | waiting => cases drains.receiver
  | recv =>
    have unended := drains.underway (by simp)
    cases read
    exact ⟨stage, drains.move unended drains.receiver rfl fun _ => drains.settled rfl, .running _ _⟩
  | start | take | restore received => cases read

/-- The receiver is not dropped. -/
theorem present (drains : Drains pipe pc stage) : pipe.dataReceiver ≠ .dropped := by
  intro dropped
  have receiver := drains.receiver
  rw [dropped] at receiver
  cases pc <;> cases receiver

/-- A pipe that takes a payload is flowing, and goes on so. -/
theorem push (drains : Drains pipe pc stage) {data n} (filled : data ≠ [])
    (written : pipe.write data = (.ok n, pipe')) : stage = .flowing ∧ Drains pipe' pc .flowing := by
  simp only [PipeInner.write, PipeInner.send] at written
  split_ifs at written with finished sender dropped
  · cases written
  · cases written
  · cases written
    simp only [Bool.or_eq_true, not_or, Bool.not_eq_true] at finished
    have holds := drains.stage
    cases stage with
    | flowing =>
      refine ⟨rfl, drains.receiver, drains.noError, fun bytes member => ?_, drains.settled, holds.1, holds.2.1,
        holds.2.2.1, fun event member => ?_⟩
      · rw [PipeInner.events, ← List.append_assoc] at member
        rcases List.mem_append.mp member with old | new
        · exact drains.filled bytes old
        · cases List.mem_singleton.mp new
          exact filled
      · rw [PipeInner.events, ← List.append_assoc] at member
        rcases List.mem_append.mp member with old | new
        · exact holds.2.2.2 event old
        · cases List.mem_singleton.mp new
          rfl
    | queued error => exact absurd (holds.2.1.symm.trans finished.2) (by decide)
    | ended error => exact absurd (holds.1.symm.trans finished.1) (by decide)
  · cases written

/-- The end of the stream is queued once. -/
theorem finish (drains : Drains pipe pc stage) (error) :
    ∃ next, Drains (pipe.finishStream error) pc next ∧
      (stage = .flowing ∧ next = .queued error ∨ stage ≠ .flowing ∧ next = stage) := by
  have holds := drains.stage
  cases stage with
  | flowing =>
    have present := drains.present
    obtain ⟨closed, unfinished, sender, payload⟩ := holds
    refine ⟨.queued error, ?_, .inl ⟨rfl, rfl⟩⟩
    simp only [PipeInner.finishStream, closed, unfinished, sender, PipeInner.send, present, Bool.or_self,
      Bool.false_eq_true, if_false, if_true]
    refine ⟨drains.receiver, drains.noError, fun bytes member => ?_, drains.settled, rfl, rfl, rfl,
      pipe.events pc, payload, (List.append_assoc ..).symm⟩
    rw [PipeInner.events, ← List.append_assoc] at member
    rcases List.mem_append.mp member with old | new
    · exact drains.filled bytes old
    · cases List.mem_singleton.mp new
  | queued other =>
    refine ⟨.queued other, ?_, .inr ⟨by simp, rfl⟩⟩
    simpa only [PipeInner.finishStream, holds.2.1, Bool.or_true, if_true] using drains
  | ended other =>
    refine ⟨.ended other, ?_, .inr ⟨by simp, rfl⟩⟩
    simpa only [PipeInner.finishStream, holds.1, Bool.true_or, if_true] using drains

/-- A read that does not hold the receiver is dropped. -/
theorem dropRead (drains : Drains pipe pc stage) (free : pc = .start ∨ pc = .take) :
    Drains (pipe.dropRead pc) .start stage := by
  rcases free with rfl | rfl
  · exact drains
  · refine ⟨drains.receiver, drains.noError, drains.filled, nofun, ?_⟩
    have holds := drains.stage
    cases stage with
    | flowing => exact holds
    | queued error => exact holds
    | ended error => cases holds.2.2.2.2

/-! ### Progress -/

/-- A read waits only while its pipe is flowing. -/
theorem enabled (drains : Drains pipe pc stage) (finished : stage ≠ .flowing) (len) :
    ∃ pipe' state, pipe.readStep len pc = some (pipe', state) := by
  cases pc with
  | recv =>
    have holds := drains.stage
    simp only [PipeInner.readStep, PipeInner.recv]
    cases stage with
    | flowing => exact absurd rfl finished
    | queued error =>
      obtain ⟨-, -, -, payload, -, events⟩ := holds
      split
      · exact ⟨_, _, rfl⟩
      · rename_i drained
        simp [PipeInner.events, ReadPc.held, drained] at events
    | ended error => cases holds.2.2.2.2
  | start | waiting | take | restore received => exact ⟨_, _, rfl⟩

theorem effort_lt (drains : Drains pipe pc stage) (read : pipe.readStep len pc = some (pipe', .running next)) :
    next.effort < pc.effort := by
  cases PipeInner.readStep_move read with
  | finds | takes => decide
  | receives => exact Nat.one_pos
  | parks _ _ busy => exact absurd (drains.inPipe (.inl rfl)) busy
  | wakes => cases drains.receiver
  | drained _ senderless => cases senderless.symm.trans (drains.opened (drains.underway (by simp))).2

/-- A read that fails is past its deadline, or has the end of the stream in hand. -/
theorem failed_read {error} (drains : Drains pipe pc stage)
    (read : pipe.readStep len pc = some (pipe', .returned (.error error))) :
    pc = .restore none ∨ pc = .restore (some (.streamEnd (some error))) ∧ stage = .queued (some error) := by
  cases PipeInner.readStep_move read with
  | failsClosed _ _ _ failed => cases drains.noError.symm.trans failed
  | inUse busy => exact absurd (drains.inPipe (.inr rfl)) busy
  | fails => exact .inr ⟨rfl, drains.last.1⟩
  | failsDrained | timesOut => exact .inl rfl

end Drains

end AnyTls

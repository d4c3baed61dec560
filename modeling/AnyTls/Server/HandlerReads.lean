import AnyTls.Proxy.PushSafety
import AnyTls.Server.HandlerSteps

/-! What a handler reads from a stream that is not closed: bytes, never an end and
never an error. The end of the stream and read errors reach the handler only after
the closed flag is set. -/
namespace AnyTls

/-- The pipe of an open stream with its one reader. -/
structure Delivering (pipe : PipeInner) (pc : ReadPc) : Prop where
  flowing : Flowing pipe
  filled : ∀ bytes, .data bytes ∈ pipe.channel → bytes ≠ []
  position : match pc with
    | .start | .take => pipe.dataReceiver = .inPipe
    | .recv => pipe.dataReceiver = .taken
    | .restore (some (.data bytes)) => pipe.dataReceiver = .taken ∧ bytes ≠ []
    | _ => False

theorem delivering_new : Delivering PipeInner.new .start := ⟨flowing_new, nofun, rfl⟩

theorem Delivering.readStep {pipe pipe' len pc state} (delivering : Delivering pipe pc) (room : 0 < len)
    (read : pipe.readStep len pc = some (pipe', state)) :
    Delivering pipe' state.pc ∧ ((∃ next, state = .running next) ∨
      ∃ bytes, bytes ≠ [] ∧ state = .returned (.ok bytes)) := by
  obtain ⟨flowing, filled, position⟩ := delivering
  cases PipeInner.readStep_move read with
  | buffered buffered =>
    refine ⟨⟨flowing.keep rfl flowing.receiver fun _ => id, filled, position⟩, .inr ?_⟩
    exact ⟨_, take_ne_nil buffered room, rfl⟩
  | failsClosed _ closed | endsClosed _ closed => cases closed.symm.trans flowing.opened
  | finds _ _ ready => exact ⟨⟨flowing, filled, ready⟩, .inl ⟨_, rfl⟩⟩
  | parks _ _ busy | inUse busy => exact absurd position busy
  | takes => exact ⟨⟨flowing.keep rfl nofun fun _ => id, filled, rfl⟩, .inl ⟨_, rfl⟩⟩
  | @receives event rest queued =>
    obtain ⟨bytes, rfl⟩ := flowing.events event (queued ▸ List.mem_cons_self)
    have later {event : PipeEvent} (member : event ∈ rest) : event ∈ pipe.channel :=
      queued ▸ List.mem_cons_of_mem _ member
    refine ⟨⟨flowing.keep rfl flowing.receiver fun _ => later, fun bytes member => filled bytes (later member),
      position, ?_⟩, .inl ⟨_, rfl⟩⟩
    exact filled bytes (queued ▸ List.mem_cons_self)
  | drained _ senderless => cases senderless.symm.trans flowing.sender
  | handsOver data =>
    refine ⟨⟨flowing.keep rfl nofun fun _ => id, filled, rfl⟩, .inr ?_⟩
    exact ⟨_, take_ne_nil position.2 room, rfl⟩
  | wakes | fails | ends | failsDrained | timesOut | endsDrained => exact position.elim

theorem Delivering.push {pipe pipe' pc data n} (delivering : Delivering pipe pc) (filled : data ≠ [])
    (written : pipe.write data = (.ok n, pipe')) :
    Delivering pipe' pc := by
  rw [delivering.flowing.write data] at written
  cases written
  refine ⟨delivering.flowing.push data, fun bytes member => ?_, delivering.position⟩
  rcases List.mem_append.mp member with old | new
  · exact delivering.filled bytes old
  · cases List.mem_singleton.mp new
    exact filled

/-- The read in progress of a future asks for something. -/
def Waits {α : Type} (program : ReadProgram IoError α) (held : Bytes) : Prop :=
  ∀ count next, program = .read count next → held.length < count

theorem waits_feed {α : Type} (program : ReadProgram IoError α) (input) :
    Waits (program.feed input).1 (program.feed input).2 := by
  induction program generalizing input with
  | done value => nofun
  | fail error => nofun
  | read count next ih =>
    unfold ReadProgram.feed
    split_ifs with short
    · rintro _ _ ⟨⟩
      exact short
    · exact ih _ _

section
variable {α : Type} {pipe pipe' : PipeInner} {fut fut' : ReadFut} {program : ReadProgram IoError α}
  {held bytes : Bytes} {polled : Polled α}

theorem PollCase.room (poll : PollCase pipe fut program held pipe' fut' bytes polled)
    (room : ∀ len pc, fut = some (len, pc) → 0 < len) (waits : Waits program held) :
    ∀ len pc, fut' = some (len, pc) → 0 < len := by
  cases poll with
  | done value | fail error => exact room
  | start count next reading =>
    rintro _ _ ⟨⟩
    exact Nat.sub_pos_of_lt (waits count next reading)
  | running count next len pc pc' _ _ pending =>
    rintro _ _ ⟨⟩
    exact room len pc pending
  | error | panicked | eof | ready => nofun

theorem PollCase.waits (poll : PollCase pipe fut program held pipe' fut' bytes polled)
    (waits : Waits program held) : ∀ next kept, polled = .pending next kept → Waits next kept := by
  cases poll with
  | done value | fail error => nofun
  | start | running =>
    rintro _ _ ⟨⟩
    exact waits
  | error | panicked | eof => nofun
  | ready =>
    intro next kept same
    have fed := waits_feed program (held ++ bytes)
    revert same fed
    generalize program.feed (held ++ bytes) = outcome
    obtain ⟨after, left⟩ := outcome
    cases after with
    | done value => nofun
    | fail error => nofun
    | read count next =>
      rintro ⟨⟩ fed
      exact fed

/-- A future that reads an open stream fails only by its own verdict on the bytes. -/
theorem PollCase.delivers (poll : PollCase pipe fut program held pipe' fut' bytes polled)
    (room : ∀ len pc, fut = some (len, pc) → 0 < len) (delivering : Delivering pipe fut.pc) :
    Delivering pipe' fut'.pc ∧ ∀ error, polled = .failed error →
      ∃ left, program.feed (held ++ bytes) = (.fail error, left) := by
  have reads {len : Nat} {pc : ReadPc} {state : ReadState} (pending : fut = some (len, pc))
      (read : pipe.readStep len pc = some (pipe', state)) : Delivering pipe' state.pc ∧
        ((∃ next, state = .running next) ∨ ∃ bytes, bytes ≠ [] ∧ state = .returned (.ok bytes)) := by
    subst pending
    exact delivering.readStep (room len pc rfl) read
  cases poll with
  | done value => exact ⟨delivering, nofun⟩
  | fail error rejected =>
    subst rejected
    refine ⟨delivering, ?_⟩
    rintro _ ⟨⟩
    exact ⟨_, rfl⟩
  | start count next _ idle =>
    subst idle
    exact ⟨delivering, nofun⟩
  | running count next len pc pc' _ _ pending read => exact ⟨(reads pending read).1, nofun⟩
  | error len pc _ error pending read =>
    obtain ⟨-, ⟨next, same⟩ | ⟨data, -, same⟩⟩ := reads pending read
    · cases same
    · cases same
  | panicked count next len pc _ data _ pending read => exact ⟨(reads pending read).1, nofun⟩
  | eof len pc _ pending read =>
    obtain ⟨-, ⟨next, same⟩ | ⟨data, filled, same⟩⟩ := reads pending read
    · cases same
    · cases same
      exact absurd rfl filled
  | ready count next len pc _ _ _ pending read =>
    refine ⟨(reads pending read).1, fun error failed => ?_⟩
    revert failed
    generalize program.feed (held ++ bytes) = outcome
    obtain ⟨after, left⟩ := outcome
    cases after with
    | done value => nofun
    | fail verdict =>
      rintro ⟨⟩
      exact ⟨left, rfl⟩
    | read count next => nofun

theorem pollRead_room {remaining result} (room : ∀ len pc, fut = some (len, pc) → 0 < len)
    (positive : 0 < remaining) (polled : pollRead pipe fut remaining = some (pipe', fut', result)) :
    ∀ len pc, fut' = some (len, pc) → 0 < len := by
  unfold pollRead at polled
  split at polled
  · cases polled
    rintro _ _ ⟨⟩
    exact positive
  · rename_i len pc
    obtain ⟨⟨after, state⟩, -, returned⟩ := Option.map_eq_some_iff.mp polled
    cases state with
    | running next =>
      cases returned
      rintro _ _ ⟨⟩
      exact room len pc rfl
    | returned outcome =>
      cases outcome with
      | error error => cases returned; nofun
      | ok bytes => cases returned; nofun

/-- A read of an open stream brings bytes. -/
theorem pollRead_delivers {remaining result} (room : ∀ len pc, fut = some (len, pc) → 0 < len)
    (delivering : Delivering pipe fut.pc)
    (polled : pollRead pipe fut remaining = some (pipe', fut', result)) :
    Delivering pipe' fut'.pc ∧
    (result = .pending ∨ result = .panicked ∨ ∃ bytes, bytes ≠ [] ∧ result = .ready bytes) := by
  unfold pollRead at polled
  split at polled
  · cases polled
    exact ⟨delivering, .inl rfl⟩
  · rename_i len pc
    obtain ⟨⟨after, state⟩, read, returned⟩ := Option.map_eq_some_iff.mp polled
    obtain ⟨still, ⟨next, rfl⟩ | ⟨bytes, filled, rfl⟩⟩ := delivering.readStep (room len pc rfl) read
    · cases returned
      exact ⟨still, .inl rfl⟩
    · cases returned
      refine ⟨still, .inr ?_⟩
      split_ifs
      · exact .inl rfl
      · exact .inr ⟨bytes, filled, rfl⟩

end

variable {Address : Type}

/-- The futures of a phase ask for something. -/
def Phase.Waiting : Phase Address → Prop
  | .retrieve program held => Waits program held
  | .uotRequest program held => Waits program held
  | .uotRelay relay => Waits relay.decoder relay.held
  | _ => True

def S2oPc.pastMark : S2oPc → Bool
  | .closing pc => pc ≠ .mark
  | _ => false

def O2sPc.pastMark : O2sPc → Bool
  | .closing pc => pc ≠ .mark
  | _ => false

/-- A `close` of the handler is past `mark_closed`. -/
def Phase.pastMark : Phase Address → Bool
  | .closing pc _ => pc ≠ .mark
  | .tcpRelay s2o o2s _ => s2o.pastMark || o2s.pastMark
  | _ => false

/-- The handler's reader and the flag: all that ends the pipe comes after the flag
is set. -/
structure Reads (s : Handler Address) : Prop where
  marked : s.phase.pastMark = true → s.stream.closed = true
  spawned : s.stream.pipeClosing = true → s.stream.closed = true
  finishing : ∀ cause error, s.stream.closer = some (cause, error, true) → s.stream.closed = true
  delivering : s.stream.closed = false → Delivering s.stream.pipe s.readFut.pc
  room : ∀ len pc, s.readFut = some (len, pc) → 0 < len
  waiting : s.phase.Waiting

section
variable {s t : Handler Address} {codec : AddressCodec Address}

theorem ServerStream.closeStep_closed {stream : ServerStream} {pc}
    (past : pc ≠ .mark → stream.closed = true) : (stream.closeStep pc).1.closed = true := by
  cases pc with
  | mark =>
    simp only [ServerStream.closeStep]
    split_ifs with closed
    · exact closed
    · rfl
  | remove | spawn => exact past nofun
  | fin =>
    simp only [ServerStream.closeStep]
    split_ifs
    · exact past nofun
    · exact past nofun

theorem Reads.of_closed (closed : t.stream.closed = true)
    (room : ∀ len pc, t.readFut = some (len, pc) → 0 < len) (waiting : t.phase.Waiting) : Reads t :=
  ⟨fun _ => closed, fun _ => closed, fun _ _ _ => closed, fun still => (nomatch closed.symm.trans still),
    room, waiting⟩

theorem Reads.start (peerVersion) : Reads (Handler.start peerVersion : Handler Address) :=
  ⟨nofun, nofun, nofun, fun _ => delivering_new, nofun, trivial⟩

theorem Reads.event {event stream} (reads : Reads s) (happened : s.stream.event event = some stream) :
    Reads { s with stream } := by
  obtain ⟨marked, spawned, finishing, delivering, room, waiting⟩ := reads
  cases event with
  | push data =>
    simp only [ServerStream.event] at happened
    split_ifs at happened with empty
    split at happened
    · rename_i written
      cases happened
      refine ⟨marked, spawned, finishing, fun still => ?_, room, waiting⟩
      exact (delivering still).push (by simpa using empty) written
    · cases happened
      exact ⟨marked, spawned, finishing, delivering, room, waiting⟩
  | remove cause error =>
    simp only [ServerStream.event] at happened
    split_ifs at happened
    cases happened
    exact ⟨marked, spawned, nofun, delivering, room, waiting⟩
  | mark =>
    simp only [ServerStream.event] at happened
    split at happened
    · split_ifs at happened
      · cases happened
        exact ⟨marked, spawned, nofun, delivering, room, waiting⟩
      · cases happened
        exact .of_closed rfl room waiting
    · cases happened
  | finish =>
    simp only [ServerStream.event] at happened
    split at happened
    · rename_i cause error closing
      cases happened
      exact .of_closed (finishing _ _ closing) room waiting
    · cases happened
  | pipeClose =>
    simp only [ServerStream.event] at happened
    split_ifs at happened with pending
    cases happened
    exact .of_closed (spawned pending) room waiting
  | writerDies =>
    cases happened
    exact ⟨marked, spawned, finishing, delivering, room, waiting⟩

theorem Reads.quiet {phase} (reads : Reads s) (waiting : phase.Waiting)
    (marked : phase.pastMark = true → s.stream.closed = true) : Reads { s with phase } :=
  ⟨marked, reads.spawned, reads.finishing, reads.delivering, reads.room, waiting⟩

theorem Reads.poll {α : Type} {program : ReadProgram IoError α} {held bytes : Bytes} {pipe : PipeInner}
    {fut : ReadFut} {polled : Polled α} {phase : Phase Address} (reads : Reads s)
    (waits : Waits program held)
    (poll : PollCase s.stream.pipe s.readFut program held pipe fut bytes polled)
    (waiting : phase.Waiting) (unmarked : phase.pastMark = false) :
    Reads { s with stream := { s.stream with pipe }, readFut := fut, phase } := by
  refine ⟨fun past => ?_, reads.spawned, reads.finishing, fun still => ?_,
    poll.room reads.room waits, waiting⟩
  · exact nomatch unmarked.symm.trans past
  · exact (poll.delivers reads.room (reads.delivering still)).1

/-- A step of a `close` leaves the stream closed. -/
theorem Reads.close {pc} {phase : Phase Address} (reads : Reads s)
    (past : pc ≠ .mark → s.stream.closed = true) (waiting : phase.Waiting) :
    Reads { s with stream := (s.stream.closeStep pc).1, phase } :=
  .of_closed (ServerStream.closeStep_closed past) reads.room waiting

theorem waits_fresh {α : Type} (program : ReadProgram IoError α) : Waits (program.feed []).1 [] := by
  have fresh := waits_feed program []
  rwa [ReadProgram.feed_nil] at fresh

theorem Quiet.waiting {a phase} (quiet : Quiet codec s a phase) :
    phase.Waiting := by
  cases quiet with
  | approved => exact waits_fresh _
  | uotStarts => exact waits_fresh _
  | created request _ _ next => rcases next with rfl | rfl <;> trivial
  | _ => trivial

theorem Quiet.pastMark {a phase} (quiet : Quiet codec s a phase) (past : phase.pastMark = true) :
    s.phase.pastMark = true := by
  cases quiet with
  | created request _ _ next => rcases next with rfl | rfl <;> cases past
  | s2oCancelled o2s here => rwa [here]
  | s2oTick o2s cancel approved here => cases approved <;> rwa [here]
  | s2oWrote bytes o2s cancel here => rwa [here]
  | s2oFails bytes o2s cancel error here => rwa [here]
  | s2oShutdown failed o2s cancel result after here => rwa [here]
  | o2sCancelled s2o here => rwa [here]
  | o2sTick s2o cancel approved here => cases approved <;> rwa [here]
  | o2sEof s2o cancel here => rwa [here]
  | o2sWrote s2o cancel bytes here => rwa [here]
  | o2sRefused s2o cancel bytes here => rwa [here]
  | o2sFails s2o cancel error here => rwa [here]
  | _ => cases past

/-- The `close` that takes a step was past `mark_closed`, unless it sets the flag. -/
theorem Closes.past {pc outcome} {before after : Phase Address} (closes : Closes before pc outcome after)
    (past : pc ≠ .mark) : before.pastMark = true := by
  cases closes with
  | main | mainDone => simpa [Phase.pastMark] using past
  | s2o | s2oDone => simp [Phase.pastMark, S2oPc.pastMark, past]
  | o2s | o2sDone => simp [Phase.pastMark, O2sPc.pastMark, past]

theorem Closes.waiting {pc outcome} {before after : Phase Address} (closes : Closes before pc outcome after) :
    after.Waiting := by
  cases closes with
  | mainDone pc next result =>
    cases next with
    | returnOk | again => trivial
    | returnError error => cases result <;> trivial
  | _ => trivial

theorem Reads.relay {relay next : Relay Address} {action : RelayAction} (reads : Reads s)
    (here : s.phase = .uotRelay relay)
    (moved : Relay.Moved codec { relay with pipe := s.stream.pipe, readFut := s.readFut } action next) :
    Reads { s with
      stream := { s.stream with pipe := next.pipe }, readFut := next.readFut, phase := .uotRelay next } := by
  have waits : Waits relay.decoder relay.held := by
    have waiting := reads.waiting
    rwa [here] at waiting
  cases moved with
  | poll pipe fut bytes polled polling =>
    have poll := pollProgram_cases polling
    have pending := poll.waits waits
    cases polled with
    | pending decoder held => exact reads.poll waits poll (pending decoder held rfl) rfl
    | done packet => exact reads.poll waits poll waits rfl
    | failed error =>
      rcases Relay.packetError_ends { relay with
        pipe, readFut := fut, consumed := relay.consumed ++ bytes, taken := relay.taken ++ bytes } error
        with ⟨-, same⟩ | same
      · simp only [Relay.took, same]
        exact reads.poll waits poll waits rfl
      · simp only [Relay.took, same]
        exact reads.poll waits poll waits rfl
    | panicked => exact reads.poll waits poll waits rfl
  | restarts action forwarded => exact reads.quiet (waits_fresh _) nofun
  | handles status => exact reads.quiet waits nofun
  | fails action error => exact reads.quiet waits nofun

theorem Reads.step {a : HandlerAction} (reads : Reads s) (stepped : s.step codec a = some t) :
    Reads t := by
  have waiting := reads.waiting
  have moved := Handler.step_moved stepped
  cases moved with
  | session event stream happened => exact reads.event happened
  | quiet _ phase quiet => exact reads.quiet quiet.waiting fun past => reads.marked (quiet.pastMark past)
  | close _ pc phase closes =>
    exact reads.close (fun past => reads.marked (closes.past past)) closes.waiting
  | retrieve program held bytes pipe fut polled here polling =>
    rw [here] at waiting
    have poll := pollProgram_cases polling
    have pending := poll.waits waiting
    cases polled with
    | pending program held => exact reads.poll waiting poll (pending program held rfl) rfl
    | done destination =>
      have done : Reads { s with stream := { s.stream with pipe }, readFut := fut, phase := .check } :=
        reads.poll waiting poll trivial rfl
      simp only [Handler.retrieved]
      split_ifs
      · exact ⟨nofun, done.spawned, done.finishing, done.delivering, done.room, waits_fresh _⟩
      · exact ⟨nofun, done.spawned, done.finishing, done.delivering, done.room, trivial⟩
    | failed error => exact reads.poll waiting poll trivial rfl
    | panicked => exact reads.poll waiting poll trivial rfl
  | request program held bytes pipe fut polled here polling =>
    rw [here] at waiting
    have poll := pollProgram_cases polling
    have pending := poll.waits waiting
    cases polled with
    | pending program held => exact reads.poll waiting poll (pending program held rfl) rfl
    | done request => exact reads.poll waiting poll trivial rfl
    | failed error => exact reads.poll waiting poll trivial rfl
    | panicked => exact reads.poll waiting poll trivial rfl
  | relay relay next outer inner here _ relayed looping =>
    exact reads.relay here (Relay.step_moved relayed looping)
  | s2oPoll o2s cancel pipe fut result here polled =>
    have marked := reads.marked
    rw [here] at marked
    refine ⟨fun past => ?_, reads.spawned, reads.finishing, fun still => ?_,
      pollRead_room reads.room (by decide) polled, ?_⟩
    · cases result with
      | pending | failed error => exact marked past
      | ready bytes => cases bytes <;> exact marked past
      | panicked => cases past
    · exact (pollRead_delivers reads.room (reads.delivering still) polled).1
    · cases result with
      | pending | failed error | panicked => trivial
      | ready bytes => cases bytes <;> trivial

end

end AnyTls

import AnyTls.Proxy.Pipe

/-! The order of the bytes of a pipe with one reader. The side buffer comes before
what a read in progress has received, and that before the channel; no step loses,
repeats or reorders a byte. -/
namespace AnyTls

def PipeEvent.bytes : PipeEvent → Bytes
  | .data bytes => bytes
  | .streamEnd _ => []

namespace ReadPc

/-- The payload a read has received and not yet handed over. -/
def inHand : ReadPc → Bytes
  | .restore (some event) => event.bytes
  | _ => []

/-- A read that has found the side buffer empty. -/
def pastBuffer : ReadPc → Bool
  | .start | .waiting => false
  | .take | .recv | .restore _ => true

end ReadPc

namespace ReadState

def bytes : ReadState → Bytes
  | .returned (.ok bytes) => bytes
  | _ => []

/-- The read that goes on; once it has returned, the next one is yet to start. -/
def pc : ReadState → ReadPc
  | .running pc => pc
  | .returned _ => .start

end ReadState

theorem take_ne_nil {bytes : Bytes} {len} (filled : bytes ≠ []) (room : 0 < len) :
    bytes.take len ≠ [] := by
  simp only [ne_eq, List.take_eq_nil_iff, filled, or_false]
  exact Nat.ne_of_gt room

namespace PipeInner
variable {pipe pipe' : PipeInner} {pc : ReadPc} {state : ReadState} {len : Nat}

/-- The bytes still to be read, in order. -/
def unread (pipe : PipeInner) (pc : ReadPc) : Bytes :=
  pipe.buffer ++ pc.inHand ++ pipe.channel.flatMap PipeEvent.bytes

/-- What one step of a read does, branch by branch. -/
inductive ReadMove (pipe : PipeInner) (len : Nat) : ReadPc → PipeInner → ReadState → Prop where
  | buffered (filled : pipe.buffer ≠ []) : ReadMove pipe len .start
      { pipe with buffer := pipe.buffer.drop len } (.returned (.ok (pipe.buffer.take len)))
  | failsClosed {error} (empty : pipe.buffer = []) (closed : pipe.closed = true)
      (senderless : pipe.dataSender = false) (failed : pipe.readError = some error) :
      ReadMove pipe len .start { pipe with readError := none } (.returned (.error error))
  | endsClosed (empty : pipe.buffer = []) (closed : pipe.closed = true) (senderless : pipe.dataSender = false)
      (noError : pipe.readError = none) : ReadMove pipe len .start pipe (.returned (.ok []))
  | finds (empty : pipe.buffer = []) (live : pipe.closed = true → pipe.dataSender = true)
      (ready : pipe.dataReceiver = .inPipe) : ReadMove pipe len .start pipe (.running .take)
  | parks (empty : pipe.buffer = []) (live : pipe.closed = true → pipe.dataSender = true)
      (busy : pipe.dataReceiver ≠ .inPipe) : ReadMove pipe len .start pipe (.running .waiting)
  | wakes : ReadMove pipe len .waiting pipe (.running .start)
  | takes (ready : pipe.dataReceiver = .inPipe) :
      ReadMove pipe len .take { pipe with dataReceiver := .taken } (.running .recv)
  | inUse (busy : pipe.dataReceiver ≠ .inPipe) : ReadMove pipe len .take pipe
      (.returned (.error ⟨.brokenPipe, "Pipe reader already in use"⟩))
  | receives {event rest} (queued : pipe.channel = event :: rest) :
      ReadMove pipe len .recv { pipe with channel := rest } (.running (.restore (some event)))
  | drained (drained : pipe.channel = []) (senderless : pipe.dataSender = false) :
      ReadMove pipe len .recv pipe (.running (.restore none))
  | handsOver (data) : ReadMove pipe len (.restore (some (.data data)))
      { pipe with dataReceiver := .inPipe, buffer := pipe.buffer ++ data.drop len } (.returned (.ok (data.take len)))
  | fails (error) : ReadMove pipe len (.restore (some (.streamEnd (some error))))
      { pipe with dataReceiver := .inPipe, closed := true, dataSender := false } (.returned (.error error))
  | ends : ReadMove pipe len (.restore (some (.streamEnd none)))
      { pipe with dataReceiver := .inPipe, closed := true, dataSender := false } (.returned (.ok []))
  | failsDrained {error} (failed : pipe.readError = some error) : ReadMove pipe len (.restore none)
      { pipe with dataReceiver := .inPipe, readError := none } (.returned (.error error))
  | timesOut (noError : pipe.readError = none) (sender : pipe.dataSender = true) : ReadMove pipe len (.restore none)
      { pipe with dataReceiver := .inPipe } (.returned (.error ⟨.timedOut, "read deadline reached"⟩))
  | endsDrained (noError : pipe.readError = none) (senderless : pipe.dataSender = false) :
      ReadMove pipe len (.restore none) { pipe with dataReceiver := .inPipe } (.returned (.ok []))

theorem readStep_move (read : pipe.readStep len pc = some (pipe', state)) : ReadMove pipe len pc pipe' state := by
  cases pc with
  | start =>
    simp only [readStep, readFast] at read
    split_ifs at read with filled finished ready
    · cases read
      exact .buffered filled
    · obtain ⟨closed, senderless⟩ : pipe.closed = true ∧ pipe.dataSender = false := by simpa using finished
      split at read
      · rename_i error failed
        cases read
        exact .failsClosed (not_not.mp filled) closed senderless failed
      · rename_i noError
        cases read
        exact .endsClosed (not_not.mp filled) closed senderless noError
    · cases read
      exact .finds (not_not.mp filled) (by simpa using finished) ready
    · cases read
      exact .parks (not_not.mp filled) (by simpa using finished) ready
  | waiting =>
    cases read
    exact .wakes
  | take =>
    simp only [readStep, takeReceiver] at read
    split_ifs at read with ready
    · cases read
      exact .takes ready
    · cases read
      exact .inUse ready
  | recv =>
    simp only [readStep, recv] at read
    split at read
    · rename_i event rest queued
      cases read
      exact .receives queued
    · rename_i drained
      split_ifs at read with sender
      cases read
      exact .drained drained (Bool.not_eq_true _ ▸ sender)
  | restore received =>
    simp only [readStep, restore] at read
    split at read
    · cases read
      exact .handsOver _
    · split at read
      · cases read
        exact .fails _
      · cases read
        exact .ends
    · split at read
      · rename_i error failed
        cases read
        exact .failsDrained failed
      · rename_i noError
        split_ifs at read with sender
        · cases read
          exact .timesOut noError sender
        · cases read
          exact .endsDrained noError (Bool.not_eq_true _ ▸ sender)

/-- A step of a read returns the first unread bytes and leaves the others. -/
theorem readStep_unread (settled : pc.pastBuffer = true → pipe.buffer = [])
    (read : pipe.readStep len pc = some (pipe', state)) :
    pipe.unread pc = state.bytes ++ pipe'.unread state.pc ∧
    (state.pc.pastBuffer = true → pipe'.buffer = []) := by
  cases readStep_move read with
  | buffered =>
    refine ⟨?_, nofun⟩
    simp only [unread, ReadState.bytes, ReadState.pc, ReadPc.inHand, List.append_nil]
    rw [← List.append_assoc, List.take_append_drop]
  | finds empty => exact ⟨rfl, fun _ => empty⟩
  | takes | drained => exact ⟨rfl, fun _ => settled rfl⟩
  | receives queued =>
    refine ⟨?_, fun _ => settled rfl⟩
    simp [unread, ReadState.bytes, ReadState.pc, ReadPc.inHand, queued]
  | handsOver data =>
    refine ⟨?_, nofun⟩
    simp only [unread, ReadState.bytes, ReadState.pc, ReadPc.inHand, PipeEvent.bytes, settled rfl,
      List.nil_append, List.append_nil]
    rw [← List.append_assoc, List.take_append_drop]
  | failsClosed | endsClosed | parks | wakes | inUse | fails | ends | failsDrained | timesOut | endsDrained =>
    exact ⟨rfl, nofun⟩

theorem readDeadline_unread (settled : pc.pastBuffer = true → pipe.buffer = [])
    (read : pipe.readDeadline pc = some (pipe', state)) :
    pipe.unread pc = state.bytes ++ pipe'.unread state.pc ∧
    (state.pc.pastBuffer = true → pipe'.buffer = []) := by
  cases pc with
  | waiting =>
    cases read
    exact ⟨rfl, nofun⟩
  | recv =>
    cases read
    exact ⟨rfl, fun _ => settled rfl⟩
  | start | take | restore _ => cases read

/-- A read returns no more than its buffer has room for. -/
theorem readStep_length {bytes} (read : pipe.readStep len pc = some (pipe', .returned (.ok bytes))) :
    bytes.length ≤ len := by
  cases readStep_move read with
  | buffered | handsOver => exact List.length_take_le ..
  | endsClosed | ends | endsDrained => exact Nat.zero_le _

theorem write_unread {buf n} (written : pipe.write buf = (.ok n, pipe')) :
    pipe'.unread pc = pipe.unread pc ++ buf ∧ pipe'.buffer = pipe.buffer := by
  unfold write send at written
  split_ifs at written
  · cases written
  · cases written
  · cases written
    simp [unread, PipeEvent.bytes]
  · cases written

theorem finishStream_unread (error) :
    (pipe.finishStream error).unread pc = pipe.unread pc ∧
    (pipe.finishStream error).buffer = pipe.buffer := by
  simp only [finishStream, send]
  split_ifs
  · exact ⟨rfl, rfl⟩
  · exact ⟨rfl, rfl⟩
  · simp [unread, PipeEvent.bytes]
  · exact ⟨rfl, rfl⟩

end PipeInner

end AnyTls

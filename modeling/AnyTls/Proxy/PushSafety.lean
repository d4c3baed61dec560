import AnyTls.Proxy.PipeOrder
import AnyTls.Proxy.SessionSteps

/-! Payload for one stream and the life of the session. `push_stream_data` fails
the receive loop when the pipe refuses data of a stream that is not closed. The
pipe of an open stream refuses nothing as long as its receiver exists, and only
the drop of a read that has taken the receiver out destroys it. -/
namespace AnyTls

/-! ### The pipe of an open stream -/

structure Flowing (pipe : PipeInner) : Prop where
  opened : pipe.closed = false
  unfinished : pipe.streamEndQueued = false
  sender : pipe.dataSender = true
  receiver : pipe.dataReceiver ≠ .dropped
  events : ∀ event ∈ pipe.channel, ∃ bytes, event = .data bytes

/-- A read that has not received the end of the stream. -/
def ReadPc.Clean (pc : ReadPc) : Prop :=
  ∀ event, pc = .restore (some event) → ∃ bytes, event = .data bytes

theorem flowing_new : Flowing PipeInner.new := ⟨rfl, rfl, rfl, nofun, nofun⟩

theorem Flowing.write {pipe} (flowing : Flowing pipe) (buf) :
    pipe.write buf = (.ok buf.length, { pipe with channel := pipe.channel ++ [.data buf] }) := by
  simp [PipeInner.write, PipeInner.send, flowing.opened, flowing.unfinished, flowing.sender,
    flowing.receiver]

theorem Flowing.push {pipe} (flowing : Flowing pipe) (buf) :
    Flowing { pipe with channel := pipe.channel ++ [.data buf] } := by
  refine ⟨flowing.opened, flowing.unfinished, flowing.sender, flowing.receiver, fun event member => ?_⟩
  rcases List.mem_append.mp member with old | new
  · exact flowing.events event old
  · exact ⟨buf, List.mem_singleton.mp new⟩

/-- A step that leaves the pipe open keeps it flowing. -/
theorem Flowing.keep {pipe pipe'} (flowing : Flowing pipe)
    (same : (pipe'.closed, pipe'.streamEndQueued, pipe'.dataSender) =
      (pipe.closed, pipe.streamEndQueued, pipe.dataSender)) (receiver : pipe'.dataReceiver ≠ .dropped)
    (events : ∀ event ∈ pipe'.channel, event ∈ pipe.channel) :
    Flowing pipe' := by
  simp only [Prod.mk.injEq] at same
  obtain ⟨closed, queued, sender⟩ := same
  exact ⟨closed.trans flowing.opened, queued.trans flowing.unfinished, sender.trans flowing.sender, receiver,
    fun event member => flowing.events event (events event member)⟩

theorem Flowing.readStep {pipe pipe' len pc state} (flowing : Flowing pipe) (clean : pc.Clean)
    (read : pipe.readStep len pc = some (pipe', state)) :
    Flowing pipe' ∧ ∀ next, state = .running next → next.Clean := by
  cases PipeInner.readStep_move read with
  | buffered => exact ⟨flowing.keep rfl flowing.receiver fun _ => id, nofun⟩
  | failsClosed _ closed | endsClosed _ closed => cases closed.symm.trans flowing.opened
  | finds | parks | wakes => exact ⟨flowing, by rintro _ ⟨⟩; nofun⟩
  | takes => exact ⟨flowing.keep rfl nofun fun _ => id, by rintro _ ⟨⟩; nofun⟩
  | inUse => exact ⟨flowing, nofun⟩
  | @receives event rest queued =>
    refine ⟨flowing.keep rfl flowing.receiver fun _ member => queued ▸ List.mem_cons_of_mem _ member, ?_⟩
    rintro _ ⟨⟩ _ ⟨⟩
    exact flowing.events event (queued ▸ List.mem_cons_self)
  | drained _ senderless | endsDrained _ senderless => cases senderless.symm.trans flowing.sender
  | handsOver | failsDrained | timesOut => exact ⟨flowing.keep rfl nofun fun _ => id, nofun⟩
  | fails error | ends =>
    obtain ⟨bytes, same⟩ := clean _ rfl
    cases same

theorem Flowing.readDeadline {pipe pipe' pc state} (flowing : Flowing pipe)
    (read : pipe.readDeadline pc = some (pipe', state)) :
    Flowing pipe' ∧ ∀ next, state = .running next → next.Clean := by
  cases pc with
  | waiting =>
    cases read
    exact ⟨flowing, nofun⟩
  | recv =>
    cases read
    exact ⟨flowing, by rintro _ ⟨⟩; nofun⟩
  | start | take | restore _ => cases read

/-! ### One stream -/

/-- `close` past `mark_closed`. -/
def WriterPc.closing : WriterPc → Bool
  | .removing | .announcing _ | .spawning | .finishing => true
  | .opening | .idle | .sending _ => false

/-- A read past the lock section that takes the receiver out. -/
def ReaderPc.holdsReceiver : ReaderPc → Bool
  | .reading _ .recv | .reading _ (.restore _) => true
  | _ => false

/-- An open stream's pipe flows; all that ends the pipe comes after the flag is set. -/
structure Sound (o : StreamObject) : Prop where
  closing : o.writer.closing = true → o.stream.closed = true
  spawned : o.pipeClosing = true → o.stream.closed = true
  flowing : o.stream.closed = false → Flowing o.stream.pipe
  clean : o.stream.closed = false → ∀ len pc, o.reader = .reading len pc → pc.Clean

theorem sound_new (sid) {writer} (quiet : writer.closing = false) (born) :
    Sound (StreamObject.new sid writer born) :=
  ⟨fun closing => absurd closing (by simp [StreamObject.new, quiet]), nofun, fun _ => flowing_new, nofun⟩

theorem Sound.of_closed {o} (closed : o.stream.closed = true) : Sound o :=
  ⟨fun _ => closed, fun _ => closed, fun still => absurd (closed.symm.trans still) nofun,
    fun still => absurd (closed.symm.trans still) nofun⟩

/-- Nothing but `dropRead` of a read that holds the receiver of an open stream. -/
def KeepsReceiver (s : Session) : SessionAction → Prop
  | .dropRead ref => ∀ o ∈ s.objects[ref]?, o.reader.holdsReceiver = true → o.stream.closed = true
  | _ => True

instance (s : Session) : (a : SessionAction) → Decidable (KeepsReceiver s a)
  | .dropRead ref => inferInstanceAs (Decidable (∀ o ∈ s.objects[ref]?,
      o.reader.holdsReceiver = true → o.stream.closed = true))
  | .openStream _ | .openStep _ | .write _ _ | .close _ | .writeStep _ | .pipeClose _ | .read _ _
  | .readStep _ | .readDeadline _ | .handshakeSuccess _ | .handshakeFailure _ _ | .receive _
  | .disconnect | .recvStep | .terminate | .endStep | .emit _ | .writerFails _ _ => .isTrue trivial

section
variable {s t : Session} {a : SessionAction} {ref : StreamRef} {before after : StreamObject}

theorem Change.closed_stays (change : Change s a t ref before after)
    (closed : before.stream.closed = true) : after.stream.closed = true := by
  cases change with
  | startClose => simp [StreamObject.startClose, closed]
  | mark => rfl
  | read len pc pipe state | deadline len pc pipe state =>
    obtain ⟨reader, got, eof, firstEnd, same⟩ := before.afterRead_eq len pipe state
    rw [same]
    exact closed
  | _ => exact closed

theorem sound_afterRead {len pipe state} (sound : Sound before) (flowing : Flowing pipe)
    (clean : ∀ next, state = .running next → next.Clean) :
    Sound (before.afterRead len pipe state) := by
  unfold StreamObject.afterRead
  split
  · rename_i pc
    refine ⟨sound.closing, sound.spawned, fun _ => flowing, ?_⟩
    rintro _ _ _ ⟨⟩
    exact clean pc rfl
  · exact ⟨sound.closing, sound.spawned, fun _ => flowing, nofun⟩
  · exact ⟨sound.closing, sound.spawned, fun _ => flowing, nofun⟩

/-- What a step does to an open stream keeps its pipe flowing or closes it. -/
theorem Sound.change (sound : Sound before) (change : Change s a t ref before after)
    (stored : s.objects[ref]? = some before) (keeps : KeepsReceiver s a)
    (finished : ∀ error, s.Finishes ref error → before.stream.closed = true) : Sound after := by
  cases closed : before.stream.closed with
  | true => exact .of_closed (change.closed_stays closed)
  | false =>
    have still {P : Prop} (gone : before.stream.closed = true) : P := nomatch closed.symm.trans gone
    cases change with
    | same => exact sound
    | opened | sent | refused | startWrite =>
      refine ⟨fun closing => ?_, sound.spawned, sound.flowing, sound.clean⟩
      simp [StreamObject.startWrite, closed, WriterPc.closing] at closing
    | startClose => exact .of_closed (by simp [StreamObject.startClose, closed, StreamObject.markClosed])
    | removed isIdle writing | announced isIdle writing =>
      exact still (sound.closing (by rw [writing]; rfl))
    | spawned writing | finSent writing => exact still (sound.closing (by rw [writing]; rfl))
    | pipeClose pending => exact still (sound.spawned pending)
    | mark => exact .of_closed rfl
    | finish error finishes => exact still (finished error finishes)
    | push data rest pipe n _ _ written =>
      rw [(sound.flowing closed).write data] at written
      cases written
      exact ⟨sound.closing, sound.spawned, fun _ => (sound.flowing closed).push data, sound.clean⟩
    | startRead len =>
      refine ⟨sound.closing, sound.spawned, sound.flowing, ?_⟩
      rintro _ _ _ ⟨⟩
      nofun
    | read len pc pipe state reading read =>
      obtain ⟨flowing, clean⟩ := (sound.flowing closed).readStep (sound.clean closed len pc reading) read
      exact sound_afterRead sound flowing clean
    | deadline len pc pipe state _ reading read =>
      obtain ⟨flowing, clean⟩ := (sound.flowing closed).readDeadline read
      exact sound_afterRead sound flowing clean
    | dropRead len pc dropped reading =>
      subst dropped
      have free := keeps before stored
      have kept : before.stream.pipe.dropRead pc = before.stream.pipe := by
        cases pc with
        | start | waiting | take => rfl
        | recv | restore _ => exact still (free (by rw [reading]; rfl))
      refine ⟨sound.closing, sound.spawned, fun _ => ?_, nofun⟩
      simpa only [StreamObject.modifyPipe, kept] using sound.flowing closed

end

/-! ### The session -/

/-- The receive loop in the middle of a push knows its stream, and has met a
refusal only of a stream that is closed by now. -/
def PushGuard (objects : List StreamObject) : RecvPc → Prop
  | .pushCheck ref _ _ | .pushData ref _ _ | .pushPipe ref _ _ => ref < objects.length
  | .pushError ref _ _ => ∃ o, objects[ref]? = some o ∧ o.stream.closed = true
  | _ => True

structure PushSafe (s : Session) : Prop where
  sound : ∀ (ref : StreamRef) o, s.objects[ref]? = some o → Sound o
  finished : ∀ ref error, s.Finishes ref error → ∃ o, s.objects[ref]? = some o ∧ o.stream.closed = true
  table : ∀ sid ref, s.streams.lookup sid = some ref → ref < s.objects.length
  pushing : PushGuard s.objects s.recv

namespace Session
variable {s t : Session} {a : SessionAction}

theorem Evolved.closed_stays (evolved : s.Evolved a t) {ref : StreamRef} {o : StreamObject}
    (stored : s.objects[ref]? = some o) (closed : o.stream.closed = true) :
    ∃ o', t.objects[ref]? = some o' ∧ o'.stream.closed = true := by
  obtain ⟨after, kept, change⟩ := evolved.kept stored
  exact ⟨after, kept, change.closed_stays closed⟩

theorem Evolved.guard (evolved : s.Evolved a t) {pc : RecvPc} (guard : PushGuard s.objects pc) :
    PushGuard t.objects pc := by
  cases pc with
  | pushCheck ref data rest | pushData ref data rest | pushPipe ref data rest =>
    exact Nat.lt_of_lt_of_le guard evolved.1
  | pushError ref error rest =>
    obtain ⟨o, stored, closed⟩ := guard
    exact evolved.closed_stays stored closed
  | _ => trivial

/-- The pipe refuses a push only if the stream was closed after the checks of the
flag, so the error is met with the flag set. -/
theorem Turns.guard {next} (turns : Turns s next) (safe : PushSafe s) : PushGuard s.objects next := by
  have guard := safe.pushing
  cases turns with
  | pushes _ listed => exact safe.table _ _ listed
  | pushChecked receiving | pushOpen receiving =>
    rw [receiving] at guard
    exact guard
  | pushClosed _ stored closed => exact ⟨_, stored, closed⟩
  | @pushRefused ref data _ o _ _ _ stored refused =>
    refine ⟨o, stored, ?_⟩
    by_contra still
    rw [((safe.sound ref o stored).flowing (by simpa using still)).write data] at refused
    cases refused
  | _ => trivial

theorem Move.guard {md5} (moves : Move md5 s a t) (safe : PushSafe s) :
    PushGuard t.objects t.recv := by
  have kept := moves.evolved.guard safe.pushing
  cases moves with
  | turns turning => exact turning.guard safe
  | answers _ sending =>
    cases sending with
    | _ => trivial
  | @closeAnnounces ref =>
    cases ref with
    | _ => trivial
  | receives | disconnects | alerts | handles | ends | releases | creates | pushed | closeMarks | closeFinishes
  | fails => trivial
  | _ => exact kept

theorem pushSafe_step {md5 : Bytes → String} (safe : PushSafe s) (keeps : KeepsReceiver s a)
    (stepped : s.step md5 a = some t) : PushSafe t := by
  have effect := step_effect stepped
  refine ⟨fun ref after stored => ?_, fun ref error finishes => ?_, fun sid ref listed => ?_,
    (step_move stepped).guard safe⟩
  · rcases effect.objects.2 ref after stored with ⟨before, was, change⟩ | ⟨-, created⟩
    · refine (safe.sound ref before was).change change was keeps fun error finishes => ?_
      obtain ⟨o, stored, closed⟩ := safe.finished ref error finishes
      cases stored.symm.trans was
      exact closed
    · cases created with
      | incoming sid => exact sound_new sid rfl _
      | opened => exact sound_new _ rfl _
  · rcases effect.finishes ref error finishes with earlier | ⟨o, -, stored, closed, -⟩
    · obtain ⟨o, stored, closed⟩ := safe.finished ref error earlier
      exact effect.objects.closed_stays stored closed
    · exact ⟨o, stored, closed⟩
  · rcases effect.table.lookup listed with before | ⟨o, -, objects, rfl⟩
    · exact Nat.lt_of_lt_of_le (safe.table sid ref before) effect.objects.1
    · simp [objects]

theorem Fresh.pushSafe (fresh : s.Fresh) : PushSafe s := by
  refine ⟨fun _ _ => fresh.empty, fun _ _ => fresh.unfinished, fun _ _ => fresh.unlisted, ?_⟩
  rw [fresh.recv]
  trivial

/-- `push_stream_data` in progress: the actions after it, and a bound on its steps. -/
def pushing (s : Session) : Option (List ProtocolAction × Nat) :=
  match s.recv with
  | .applying (.pushStreamData _ _ :: rest) => some (rest, 4)
  | .pushCheck _ _ rest => some (rest, 3)
  | .pushData _ _ rest => some (rest, 2)
  | .pushPipe _ _ rest => some (rest, 1)
  | .pushError _ _ rest => some (rest, 0)
  | _ => none

/-- The next step of a push: the call returns `Ok`, or it goes on and is nearer to
its end. The session and every stream stay as open as they were. -/
structure PushOnward (s : Session) (rest : List ProtocolAction) (bound : Nat) (t : Session) : Prop where
  onward : t.recv = .applying rest ∨ ∃ fewer, fewer < bound ∧ t.pushing = some (rest, fewer)
  closed : t.closed = s.closed
  streams : t.streams = s.streams
  flags : t.objects.map (·.stream.closed) = s.objects.map (·.stream.closed)

theorem push_step (md5 : Bytes → String) {rest bound} (safe : PushSafe s)
    (inPush : s.pushing = some (rest, bound)) :
    ∃ t, s.recvStep md5 = some t ∧ s.PushOnward rest bound t := by
  have guard := safe.pushing
  have stored {ref : StreamRef} (known : ref < s.objects.length) : ∃ o, s.objects[ref]? = some o :=
    ⟨_, List.getElem?_eq_getElem known⟩
  unfold pushing at inPush
  split at inPush
  · rename_i sid data rest receiving
    cases inPush
    cases listed : s.streams.lookup sid with
    | none =>
      refine ⟨{ s with recv := .applying rest }, ?_, .inl rfl, rfl, rfl, rfl⟩
      simp [recvStep, receiving, applyAction, listed]
    | some ref =>
      refine ⟨{ s with recv := .pushCheck ref data rest }, ?_, .inr ⟨3, by decide, rfl⟩, rfl, rfl, rfl⟩
      simp [recvStep, receiving, applyAction, listed]
  · rename_i ref data rest receiving
    cases inPush
    rw [receiving] at guard
    obtain ⟨o, found⟩ := stored guard
    cases closed : o.stream.closed with
    | true =>
      refine ⟨{ s with recv := .applying rest }, ?_, .inl rfl, rfl, rfl, rfl⟩
      simp [recvStep, receiving, found, closed]
    | false =>
      refine ⟨{ s with recv := .pushData ref data rest }, ?_, .inr ⟨2, by decide, rfl⟩, rfl, rfl, rfl⟩
      simp [recvStep, receiving, found, closed]
  · rename_i ref data rest receiving
    cases inPush
    rw [receiving] at guard
    obtain ⟨o, found⟩ := stored guard
    cases closed : o.stream.closed with
    | true =>
      refine ⟨{ s with recv := .pushError ref streamClosed rest }, ?_, .inr ⟨0, by decide, rfl⟩,
        rfl, rfl, rfl⟩
      simp [recvStep, receiving, found, closed]
    | false =>
      refine ⟨{ s with recv := .pushPipe ref data rest }, ?_, .inr ⟨1, by decide, rfl⟩, rfl, rfl, rfl⟩
      simp [recvStep, receiving, found, closed]
  · rename_i ref data rest receiving
    cases inPush
    rw [receiving] at guard
    obtain ⟨o, found⟩ := stored guard
    cases written : o.stream.pipe.write data with
    | mk result pipe =>
      cases result with
      | error error =>
        refine ⟨{ s with recv := .pushError ref error rest }, ?_, .inr ⟨0, by decide, rfl⟩, rfl, rfl, rfl⟩
        simp [recvStep, receiving, found, written]
      | ok n =>
        refine ⟨{ s.modifyObject ref fun object =>
            { object.modifyPipe fun _ => pipe with
              history := { object.history with pushed := object.history.pushed ++ data } }
          with recv := .applying rest }, ?_, .inl rfl, rfl, rfl, ?_⟩
        · simp [recvStep, receiving, found, written]
        · exact ListUpdate.map_modify fun _ => rfl
  · rename_i ref error rest receiving
    cases inPush
    rw [receiving] at guard
    obtain ⟨o, found, closed⟩ := guard
    refine ⟨{ s with recv := .applying rest }, ?_, .inl rfl, rfl, rfl, rfl⟩
    simp [recvStep, receiving, found, closed]
  · cases inPush

/-- One stream's payload never takes the session down. In every state of a run that
drops no read holding the receiver of an open stream, a push in progress, for any
sid and payload, goes on at the next step of the receive loop, and returns `Ok`
within its bound; other steps leave the loop where it is. -/
theorem push_returns_ok (md5 : Bytes → String)
    (iterate : StringMap.Order) (isClient : Bool)
    (padding : PaddingFactory) (actions : List SessionAction) (s : Session)
    (path : Transition.run (step md5) ((new isClient padding).ensureStarted iterate) actions = some s)
    (keeps : Transition.Along (step md5) KeepsReceiver ((new isClient padding).ensureStarted iterate)
      actions)
    (rest : List ProtocolAction) (bound : Nat) (inPush : s.pushing = some (rest, bound)) :
    (∃ t, s.step md5 .recvStep = some t ∧ s.PushOnward rest bound t) ∧
    ∀ a t, a ≠ .recvStep → s.step md5 a = some t → t.recv = s.recv := by
  have safe : PushSafe s := Transition.invariant_along pushSafe_step
    (fresh_started iterate isClient padding).pushSafe keeps path
  refine ⟨push_step md5 safe inPush, fun a t other stepped => ?_⟩
  cases (step_effect stepped).inbound with
  | same unchanged => exact congrArg (·.1) unchanged
  | receive chunk _ reading | disconnect error _ reading => simp [pushing, reading] at inPush
  | recv same => exact absurd same other

/-- A client session with two open streams. -/
def twoStreams : List SessionAction :=
  [.openStream 8, .openStep 0, .openStep 0, .openStep 0,
    .openStream 8, .openStep 1, .openStep 1, .openStep 1]

/-- A read of the first stream up to the point where it holds the receiver. -/
def heldRead : List SessionAction := [.read 0 16, .readStep 0, .readStep 0]

/-- The peer's payload for the first stream, up to the last step of its push. -/
def pushedByte : List SessionAction :=
  [.receive (Frame.withData .psh 1 [7]).toBytes, .recvStep, .recvStep, .recvStep, .recvStep, .recvStep]

def plainPadding : PaddingFactory := ⟨∅, [], 8, ""⟩

def started : Session := (new true plainPadding).ensureStarted AList.entries

/-- A push while the read holds the receiver, and a drop of a read that does not. -/
theorem heldRead_push_ok :
    ∃ s rest bound, Transition.run (step fun _ => "") started
        (twoStreams ++ heldRead ++ [.read 1 16, .dropRead 1] ++ pushedByte.take 2) = some s ∧
      s.pushing = some (rest, bound) ∧
      (∃ t, s.step (fun _ => "") .recvStep = some t ∧ s.PushOnward rest bound t) ∧
      ∀ a t, a ≠ .recvStep → s.step (fun _ => "") a = some t → t.recv = s.recv :=
  ⟨_, [], 4, rfl, rfl, push_returns_ok (fun _ => "") AList.entries true plainPadding
    (twoStreams ++ heldRead ++ [SessionAction.read 1 16, .dropRead 1] ++ pushedByte.take 2) _ rfl
    (by decide) [] 4 rfl⟩

/-- Dropping that read destroys the receiver. The next payload for the stream, which
is not closed, is refused, the receive loop fails, and the other stream is closed
with the session. -/
theorem dropped_read_fails_session :
    ∃ s t u, Transition.run (step fun _ => "") started
        (twoStreams ++ heldRead ++ [.dropRead 0] ++ pushedByte) = some s ∧
      s.pushing = some ([], 0) ∧ s.objects.map (·.stream.closed) = [false, false] ∧
      s.step (fun _ => "") .recvStep = some t ∧
      t.recv = .failed ⟨.brokenPipe, "Channel closed: channel closed"⟩ ∧
      Transition.run (step fun _ => "") t
        [.recvStep, .endStep, .endStep, .endStep, .endStep, .endStep] = some u ∧
      u.closed = true ∧ u.objects.map (·.stream.closed) = [true, true] :=
  ⟨_, _, _, rfl, rfl, rfl, rfl, rfl, rfl, rfl, rfl⟩

end Session

end AnyTls

import AnyTls.Proxy.SessionMoves

/-! What one step of a session does: to each of its streams, to the frame channel,
to the stream table, to the receive loop and to the `open_stream` calls, each listed
once with what the step saw of the session. The invariants of sessions are proved
from these lists. -/
namespace AnyTls

/-- The stream is being closed by the peer, by the session or by a failed open:
the next step of that call sets the flag. -/
def Session.Marks (s : Session) (a : SessionAction) (ref : StreamRef) (cause : CloseCause) : Prop :=
  (a = .recvStep ∧ ∃ error rest, s.recv = .closeMark ref error rest ∧ cause = .ofPeer error) ∨
  (a = .endStep ∧ cause = .sessionEnd ∧ ∃ refs, s.ending = .mark (ref :: refs)) ∨
  (cause = .openFailed ∧ .undoMark ref ∈ s.opens)

/-- What the end queued by a call that set the flag carries: an error for a SynAck and a
failed open, none for a FIN and for `terminate`; `close` queues no end. -/
def CloseCause.Ends : CloseCause → Option IoError → Prop
  | .localClose, _ => False
  | .peerFin, error => error = none
  | .synAckError, error => error ≠ none
  | .sessionEnd, error => error = none
  | .openFailed, error => error ≠ none

theorem CloseCause.ofPeer_ends (error) : (CloseCause.ofPeer error).Ends error := by
  cases error with
  | none => rfl
  | some problem => exact Option.some_ne_none problem

/-- The stream whose end the receive loop is about to queue. -/
def RecvPc.finishing : RecvPc → Option (StreamRef × Option IoError)
  | .closeFinish ref error _ => some (ref, error)
  | _ => none

theorem ProtocolAction.Sending.unfinished {rest} {action : ProtocolAction} {frame ack} {next : RecvPc}
    {error} (sending : action.Sending rest frame ack next error) :
    next.finishing = none := by
  cases sending with
  | _ => rfl

/-- The flag is set and the end of the stream is still to be queued. -/
def Session.Finishes (s : Session) (ref : StreamRef) (error : Option IoError) : Prop :=
  s.recv.finishing = some (ref, error) ∨
  (error = none ∧ ∃ refs, s.ending = .finish ref refs) ∨ (error ≠ none ∧ .undoFinish ref ∈ s.opens)

/-- The change of one stream in a step of the session. -/
inductive Change (s : Session) (a : SessionAction) (t : Session) (ref : StreamRef) :
    StreamObject → StreamObject → Prop where
  | same : Change s a t ref o o
  | opened (i) : s.opens[i]? = some (.syn ref) → t.opens = s.opens.set i (.returned (.ok ref)) →
      t.accepted = s.accepted ++ [Frame.new .syn o.stream.id] →
      Change s a t ref o { o with writer := .idle }
  | startWrite (buf) : a = .write ref buf → o.writer = .idle → Change s a t ref o (o.startWrite buf)
  | startClose : o.writer = .idle → Change s a t ref o o.startClose
  | sent (buf) : o.writer = .sending buf → s.frameTx.isClosed = false →
      t.accepted = s.accepted ++ [Frame.withData .psh o.stream.id buf] →
      Change s a t ref o
        { o with writer := .idle, history := { o.history with sent := o.history.sent ++ buf } }
  | refused : (∃ buf, o.writer = .sending buf) ∨ o.writer = .finishing →
      s.frameTx.isClosed = true → Change s a t ref o { o with writer := .idle }
  | removed (isIdle) : o.writer = .removing → Change s a t ref o { o with writer := .announcing isIdle }
  | announced (isIdle) : o.writer = .announcing isIdle → Change s a t ref o { o with writer := .spawning }
  | spawned : o.writer = .spawning →
      Change s a t ref o { o with writer := .finishing, pipeClosing := true }
  | finSent : o.writer = .finishing → s.frameTx.isClosed = false →
      t.accepted = s.accepted ++ [Frame.new .fin o.stream.id] →
      Change s a t ref o { o with writer := .idle, history := { o.history with finSent := true } }
  | pipeClose : o.pipeClosing = true →
      Change s a t ref o { o.modifyPipe (·.closeWithError none) with pipeClosing := false }
  | mark (cause) : o.stream.closed = false → s.Marks a ref cause → Change s a t ref o (o.markClosed cause)
  | finish (error) : s.Finishes ref error → Change s a t ref o (o.modifyPipe (·.finishStream error))
  | push (data rest pipe n) : a = .recvStep → s.recv = .pushPipe ref data rest →
      o.stream.pipe.write data = (.ok n, pipe) →
      Change s a t ref o
        { o.modifyPipe fun _ => pipe with
          history := { o.history with pushed := o.history.pushed ++ data } }
  | startRead (len) : a = .read ref len → o.reader = .idle →
      Change s a t ref o { o with reader := .reading len .start }
  | read (len pc pipe state) : o.reader = .reading len pc → o.stream.pipe.readStep len pc = some (pipe, state) →
      Change s a t ref o (o.afterRead len pipe state)
  | deadline (len pc pipe state) : a = .readDeadline ref → o.reader = .reading len pc →
      o.stream.pipe.readDeadline pc = some (pipe, state) →
      Change s a t ref o (o.afterRead len pipe state)
  | dropRead (len pc) : a = .dropRead ref → o.reader = .reading len pc →
      Change s a t ref o { o.modifyPipe (·.dropRead pc) with reader := .idle }

/-- The stream a step adds: one of the peer's, or one of an `open_stream` call. -/
inductive Created (s : Session) (a : SessionAction) : StreamObject → Prop where
  | incoming (sid rest) : a = .recvStep → s.recv = .incoming sid rest → s.streams.lookup sid = none →
      Created s a (StreamObject.new sid .idle s.handled.length)
  | opened (i maxStreams) : a = .openStep i → s.opens[i]? = some (.insert maxStreams) →
      s.closed = false → s.nextStreamId + 1 ≠ 0 →
      Created s a (StreamObject.new (s.nextStreamId + 1) .opening s.handled.length)

/-- The frames a session sends, by the call that sends them. -/
inductive Sends (s : Session) (a : SessionAction) (t : Session) : Frame → Prop where
  | syn (i ref o) : s.opens[i]? = some (.syn ref) →
      t.opens = s.opens.set i (.returned (.ok ref)) → s.objects[ref]? = some o →
      t.objects = s.objects.modify ref (fun o => { o with writer := .idle }) →
      Sends s a t (Frame.new .syn o.stream.id)
  | psh (ref o buf) : s.objects[ref]? = some o → o.writer = .sending buf → t.objects = s.objects.modify ref (fun o =>
        { o with writer := .idle, history := { o.history with sent := o.history.sent ++ buf } }) →
      Sends s a t (Frame.withData .psh o.stream.id buf)
  | fin (ref o) : s.objects[ref]? = some o → o.writer = .finishing → t.objects = s.objects.modify ref (fun o =>
        { o with writer := .idle, history := { o.history with finSent := true } }) →
      Sends s a t (Frame.new .fin o.stream.id)
  | synAck (ref o error) : s.objects[ref]? = some o →
      (∀ byte ∈ error, ∃ message, a = .handshakeFailure ref message ∧ error = asBytes message) →
      t.objects = s.objects → Sends s a t (Frame.withData .synAck o.stream.id error)
  | answer (action rest frame) : s.recv = .applying (action :: rest) →
      action = .sendFrame frame ∨ action = .sendFrameSync frame ∨
        (∃ message, action = .alertAndFail message ∧ frame = Frame.withData .alert 0 (asBytes message)) →
      t.objects = s.objects → Sends s a t frame

/-- What a step does to the frame channel and the connection. -/
inductive OutChange (s : Session) (a : SessionAction) (t : Session) : Prop where
  | same : t.accepted = s.accepted → t.frameTx = s.frameTx → t.transcript = s.transcript →
      OutChange s a t
  | send (frame ack) : Sends s a t frame → s.frameTx.isClosed = false → t.accepted = s.accepted ++ [frame] →
      t.frameTx = ⟨s.frameTx.queue ++ [⟨frame, ack⟩], false⟩ → t.transcript = s.transcript →
      OutChange s a t
  | emit (next rest padding) : a = .emit padding →
      s.frameTx = ⟨next :: rest, false⟩ → t.frameTx = ⟨rest, false⟩ → t.accepted = s.accepted →
      t.transcript = s.transcript.apply (.write next.frame padding) → t.objects = s.objects →
      OutChange s a t
  | fails (padding count) : a = .writerFails padding count →
      t.accepted = s.accepted → t.objects = s.objects → OutChange s a t
  | release : t.accepted = s.accepted → t.frameTx = s.frameTx →
      t.transcript = s.transcript.apply (.setBuffering false) → t.objects = s.objects →
      OutChange s a t

/-- What a step does to the stream table. -/
inductive TableChange (s : Session) (a : SessionAction) (t : Session) : Prop where
  | same : t.streams = s.streams → TableChange s a t
  | erase (sid) : t.streams = s.streams.erase sid → t.objects.length = s.objects.length → TableChange s a t
  | clear : t.streams = ∅ → TableChange s a t
  | insert (o) : Created s a o → t.objects = s.objects ++ [o] →
      t.streams = s.streams.insert o.stream.id s.objects.length → TableChange s a t

/-- An entry of the table was there before, or is that of the stream added. -/
theorem TableChange.lookup {s t a} (table : TableChange s a t) {sid ref}
    (listed : t.streams.lookup sid = some ref) :
    s.streams.lookup sid = some ref ∨
    ∃ o : StreamObject, o.stream.id = sid ∧ t.objects = s.objects ++ [o] ∧ ref = s.objects.length := by
  cases table with
  | same streams => exact .inl (streams ▸ listed)
  | erase other streams =>
    rw [streams] at listed
    by_cases same : sid = other
    · rw [same, AList.lookup_erase] at listed
      cases listed
    · rw [AList.lookup_erase_ne same] at listed
      exact .inl listed
  | clear streams =>
    rw [streams] at listed
    cases listed
  | insert o created objects streams =>
    rw [streams] at listed
    by_cases same : sid = o.stream.id
    · rw [same, AList.lookup_insert] at listed
      cases listed
      exact .inr ⟨o, same.symm, objects, rfl⟩
    · rw [AList.lookup_insert_ne same] at listed
      exact .inl listed

/-- What a step other than one of the receive loop does to the loop and to what it
has of the connection. -/
inductive InChange (s : Session) (a : SessionAction) (t : Session) : Prop where
  | same : (t.recv, t.pending, t.received, t.handled, t.protocolState, t.isClient) =
        (s.recv, s.pending, s.received, s.handled, s.protocolState, s.isClient) →
      InChange s a t
  | receive (chunk) : a = .receive chunk → s.recv = .reading →
      t = { s with
        pending := s.pending ++ chunk, received := s.received ++ chunk, recv := .decoding } →
      InChange s a t
  | disconnect (error) : a = .disconnect → s.recv = .reading → t = { s with recv := .failed error } → InChange s a t
  | recv : a = .recvStep → InChange s a t

/-- An `open_stream` call before its lock section. -/
def OpenPc.early : OpenPc → Bool
  | .check _ | .insert _ => true
  | _ => false

/-- A step of an `open_stream` call, and what becomes of the id counter. -/
inductive OpenMove (s : Session) (t : Session) : OpenPc → OpenPc → Prop where
  | insert (maxStreams) : t.nextStreamId = s.nextStreamId →
      t.objects.length = s.objects.length → OpenMove s t (.check maxStreams) (.insert maxStreams)
  | created (maxStreams o) : o.writer = .opening → o.stream.id = s.nextStreamId + 1 → s.nextStreamId + 1 ≠ 0 →
      t.nextStreamId = s.nextStreamId + 1 → t.objects = s.objects ++ [o] →
      OpenMove s t (.insert maxStreams) (.syn s.objects.length)
  | exhausted (maxStreams error) : s.nextStreamId + 1 = 0 →
      OpenMove s t (.insert maxStreams) (.returned (.error error))
  | later (pc next) : (∀ ref, next ≠ .syn ref) → next.early = false →
      t.nextStreamId = s.nextStreamId → t.objects.length = s.objects.length → OpenMove s t pc next

/-- What a step does to the `open_stream` calls. -/
inductive OpensChange (s : Session) (a : SessionAction) (t : Session) : Prop where
  | same : (t.opens, t.nextStreamId) = (s.opens, s.nextStreamId) →
      t.objects.length = s.objects.length ∨ a = .recvStep → OpensChange s a t
  | start (maxStreams) : a = .openStream maxStreams → t.opens = s.opens ++ [.check maxStreams] →
      t.nextStreamId = s.nextStreamId → t.objects.length = s.objects.length → OpensChange s a t
  | move (i pc next) : s.opens[i]? = some pc → OpenMove s t pc next → t.opens = s.opens.set i next → OpensChange s a t

theorem Change.id {s t a ref before after} (change : Change s a t ref before after) :
    after.stream.id = before.stream.id := by
  cases change with
  | startClose =>
    unfold StreamObject.startClose
    split_ifs
    · rfl
    · rfl
  | read len pc pipe state | deadline len pc pipe state =>
    obtain ⟨reader, got, eof, firstEnd, same⟩ := before.afterRead_eq len pipe state
    rw [same]
  | _ => rfl

theorem Change.born {s t a ref before after} (change : Change s a t ref before after) :
    after.history.born = before.history.born := by
  cases change with
  | startClose =>
    unfold StreamObject.startClose
    split_ifs
    · rfl
    · rfl
  | read len pc pipe state | deadline len pc pipe state =>
    obtain ⟨reader, got, eof, firstEnd, same⟩ := before.afterRead_eq len pipe state
    rw [same]
  | _ => rfl

namespace Session
variable {s t : Session} {a : SessionAction}

/-- Each stream of `t` is a stream of `s`, perhaps changed, or the one added. -/
def Evolved (s : Session) (a : SessionAction) (t : Session) : Prop :=
  s.objects.length ≤ t.objects.length ∧
  ∀ (ref : StreamRef) (after : StreamObject), t.objects[ref]? = some after →
    (∃ before, s.objects[ref]? = some before ∧ Change s a t ref before after) ∨
    (ref = s.objects.length ∧ Created s a after)

/-- A stream stays where it is. -/
theorem Evolved.kept (evolved : s.Evolved a t) {ref o} (stored : s.objects[ref]? = some o) :
    ∃ after, t.objects[ref]? = some after ∧ Change s a t ref o after := by
  have bound : ref < s.objects.length := (List.getElem?_eq_some_iff.mp stored).1
  have present := List.getElem?_eq_getElem (Nat.lt_of_lt_of_le bound evolved.1)
  rcases evolved.2 ref _ present with ⟨before, was, change⟩ | ⟨new, -⟩
  · cases stored.symm.trans was
    exact ⟨_, present, change⟩
  · exact absurd new (Nat.ne_of_lt bound)

/-- The streams a step leaves, as far as no step changes them: the same, or one more. -/
theorem Evolved.map {α : Type} (f : StreamObject → α) (evolved : s.Evolved a t)
    (fixed : ∀ ref before after, Change s a t ref before after → f after = f before) :
    t.objects.map f = s.objects.map f ∨ ∃ o, Created s a o ∧ t.objects.map f = s.objects.map f ++ [f o] := by
  have old {ref : StreamRef} (bound : ref < s.objects.length) :
      (t.objects.map f)[ref]? = (s.objects.map f)[ref]? := by
    have kept := List.getElem?_eq_getElem (Nat.lt_of_lt_of_le bound evolved.1)
    rcases evolved.2 ref _ kept with ⟨before, was, change⟩ | ⟨new, -⟩
    · rw [List.getElem?_map, List.getElem?_map, kept, was, Option.map_some, Option.map_some, fixed _ _ _ change]
    · exact absurd new (Nat.ne_of_lt bound)
  have beyond {ref : StreamRef} {o : StreamObject} (past : s.objects.length ≤ ref)
      (stored : t.objects[ref]? = some o) : ref = s.objects.length ∧ Created s a o := by
    rcases evolved.2 ref o stored with ⟨before, was, -⟩ | created
    · exact absurd (List.getElem?_eq_some_iff.mp was).1 (Nat.not_lt.mpr past)
    · exact created
  cases added : t.objects[s.objects.length]? with
  | none =>
    refine .inl (List.ext_getElem? fun ref => ?_)
    rcases Nat.lt_or_ge ref s.objects.length with bound | past
    · exact old bound
    · have short := List.getElem?_eq_none_iff.mp added
      rw [List.getElem?_eq_none (by simpa using short.trans past),
        List.getElem?_eq_none (by simpa using past)]
  | some o =>
    refine .inr ⟨o, (beyond (Nat.le_refl _) added).2, List.ext_getElem? fun ref => ?_⟩
    rcases Nat.lt_trichotomy ref s.objects.length with bound | rfl | past
    · rw [old bound, List.getElem?_append_left (by simpa using bound)]
    · rw [List.getElem?_map, added, List.getElem?_append_right (by simp)]
      simp
    · have size : (s.objects.map f ++ [f o]).length ≤ ref := by
        rw [List.length_append, List.length_map]
        exact past
      rw [List.getElem?_eq_none size, List.getElem?_map]
      cases stored : t.objects[ref]? with
      | none => rfl
      | some other => exact absurd (beyond (Nat.le_of_lt past) stored).1 (Nat.ne_of_gt past)

theorem Evolved.ids (evolved : s.Evolved a t) :
    t.objects.map (·.stream.id) = s.objects.map (·.stream.id) ∨
    ∃ o, Created s a o ∧
      t.objects.map (·.stream.id) = s.objects.map (·.stream.id) ++ [o.stream.id] :=
  evolved.map (·.stream.id) fun _ _ _ change => change.id

/-- The flag is set, by a call that ends the stream this way. -/
def Marked (t : Session) (ref : StreamRef) (error : Option IoError) : Prop :=
  ∃ o cause, t.objects[ref]? = some o ∧ o.stream.closed = true ∧ o.history.cause = some cause ∧
    cause.Ends error

/-- A call that is about to queue the end of a stream has set its closed flag. -/
def FinishesMarked (s t : Session) : Prop :=
  ∀ ref error, t.Finishes ref error → s.Finishes ref error ∨ t.Marked ref error

/-- All that a step can do. -/
structure Effect (s : Session) (a : SessionAction) (t : Session) : Prop where
  objects : s.Evolved a t
  out : OutChange s a t
  table : TableChange s a t
  inbound : InChange s a t
  opens : OpensChange s a t
  finishes : s.FinishesMarked t

/-- The table leads to streams of their sids. -/
theorem Effect.mapped (effect : s.Effect a t)
    (mapped : ∀ sid ref, s.streams.lookup sid = some ref → ∃ o, s.objects[ref]? = some o ∧ o.stream.id = sid)
    (sid ref) (listed : t.streams.lookup sid = some ref) :
    ∃ o, t.objects[ref]? = some o ∧ o.stream.id = sid := by
  rcases effect.table.lookup listed with before | ⟨o, same, objects, rfl⟩
  · obtain ⟨o, stored, rfl⟩ := mapped sid ref before
    obtain ⟨after, present, change⟩ := effect.objects.kept stored
    exact ⟨after, present, change.id⟩
  · exact ⟨o, by simp [objects], same⟩

theorem evolved_same (same : t.objects = s.objects) : s.Evolved a t := by
  refine ⟨by rw [same], fun ref after stored => .inl ⟨after, ?_, .same⟩⟩
  rwa [same] at stored

theorem evolved_modify {ref f} (modified : t.objects = s.objects.modify ref f)
    (change : ∀ object, s.objects[ref]? = some object → Change s a t ref object (f object)) :
    s.Evolved a t := by
  refine ⟨by simp [modified], fun other after stored => .inl ?_⟩
  rw [modified, List.getElem?_modify] at stored
  obtain ⟨before, was, rfl⟩ := Option.map_eq_some_iff.mp stored
  refine ⟨before, was, ?_⟩
  split_ifs with hit
  · subst hit
    exact change before was
  · exact .same

theorem evolved_append {object} (added : t.objects = s.objects ++ [object]) (created : Created s a object) :
    s.Evolved a t := by
  refine ⟨by simp [added], fun ref after stored => ?_⟩
  rw [added] at stored
  rcases Nat.lt_or_ge ref s.objects.length with old | new
  · rw [List.getElem?_append_left old] at stored
    exact .inl ⟨after, stored, .same⟩
  · rw [List.getElem?_append_right new, List.getElem?_singleton] at stored
    split_ifs at stored with first
    cases stored
    exact .inr ⟨Nat.le_antisymm (Nat.sub_eq_zero_iff_le.mp first) new, created⟩

theorem finishes_same (same : (t.recv, t.opens, t.ending) = (s.recv, s.opens, s.ending)) :
    s.FinishesMarked t := by
  simp only [Prod.mk.injEq] at same
  intro ref error finishes
  unfold Finishes at finishes
  rw [same.1, same.2.1, same.2.2] at finishes
  exact .inl finishes

theorem finishes_marked {ref error} (opens : t.opens = s.opens) (ending : t.ending = s.ending)
    (recv : t.recv.finishing = some (ref, error)) (marked : t.Marked ref error) : s.FinishesMarked t := by
  rintro other problem (receiving | ⟨rfl, refs, finishing⟩ | undoing)
  · cases recv.symm.trans receiving
    exact .inr marked
  · exact .inl (.inr (.inl ⟨rfl, refs, ending ▸ finishing⟩))
  · exact .inl (.inr (.inr (opens ▸ undoing)))

theorem finishes_recv (opens : t.opens = s.opens) (ending : t.ending = s.ending ∨ t.ending = .clear)
    (recv : t.recv.finishing = none) : s.FinishesMarked t := by
  rintro ref error (receiving | ⟨rfl, refs, finishing⟩ | undoing)
  · cases recv.symm.trans receiving
  · rcases ending with same | cleared
    · exact .inl (.inr (.inl ⟨rfl, refs, same ▸ finishing⟩))
    · cases cleared.symm.trans finishing
  · exact .inl (.inr (.inr (opens ▸ undoing)))

theorem finishes_end (opens : t.opens = s.opens) (recv : t.recv = s.recv)
    (ending : ∀ ref refs, t.ending = .finish ref refs → t.Marked ref none) : s.FinishesMarked t := by
  rintro ref error (receiving | ⟨rfl, refs, finishing⟩ | undoing)
  · exact .inl (.inl (recv ▸ receiving))
  · exact .inr (ending ref refs finishing)
  · exact .inl (.inr (.inr (opens ▸ undoing)))

theorem marked_modify {ref o cause error} (stored : s.objects[ref]? = some o)
    (objects : t.objects = s.objects.modify ref (·.markClosed cause)) (ends : cause.Ends error) :
    t.Marked ref error := by
  refine ⟨o.markClosed cause, cause, ?_, rfl, rfl, ends⟩
  rw [objects, List.getElem?_modify_eq, stored]
  rfl

theorem finishes_opens {i next} (recv : t.recv = s.recv) (ending : t.ending = s.ending)
    (opens : t.opens = s.opens.set i next)
    (moved : ∀ ref, next = .undoFinish ref → ∀ error, error ≠ none → t.Marked ref error) : s.FinishesMarked t := by
  rintro ref error (receiving | ⟨rfl, refs, finishing⟩ | ⟨problem, undoing⟩)
  · exact .inl (.inl (recv ▸ receiving))
  · exact .inl (.inr (.inl ⟨rfl, refs, ending ▸ finishing⟩))
  · rw [opens] at undoing
    rcases List.mem_or_eq_of_mem_set undoing with before | same
    · exact .inl (.inr (.inr ⟨problem, before⟩))
    · exact .inr (moved ref same.symm error problem)

/-! ### The parts of a move -/

variable {md5 : Bytes → String}

theorem evolved_change {ref o f} (stored : s.objects[ref]? = some o)
    (modified : t.objects = s.objects.modify ref f) (change : Change s a t ref o (f o)) : s.Evolved a t := by
  refine evolved_modify modified fun before was => ?_
  cases stored.symm.trans was
  exact change

theorem Move.evolved (moves : Move md5 s a t) : s.Evolved a t := by
  cases moves with
  | inserts placed unset _ numbered => exact evolved_append rfl (.opened _ _ rfl placed unset numbered)
  | creates receiving absent => exact evolved_append rfl (.incoming _ _ rfl receiving absent)
  | synSent placed stored => exact evolved_change stored rfl (.opened _ placed rfl rfl)
  | undoMarks placed stored unset =>
    exact evolved_change stored rfl (.mark .openFailed unset (.inr (.inr ⟨rfl, List.mem_of_getElem? placed⟩)))
  | undoFinishes placed =>
    have finishes := List.mem_of_getElem? placed
    exact evolved_modify rfl fun _ _ => .finish _ (.inr (.inr ⟨Option.some_ne_none _, finishes⟩))
  | writes buf stored idle => exact evolved_change stored rfl (.startWrite buf rfl idle)
  | closes stored idle => exact evolved_change stored rfl (.startClose idle)
  | pshSent stored sending alive => exact evolved_change stored rfl (.sent _ sending alive rfl)
  | finSent stored finishing alive => exact evolved_change stored rfl (.finSent finishing alive rfl)
  | sendRefused stored sending gone => exact evolved_change stored rfl (.refused sending gone)
  | removes stored removing => exact evolved_change stored rfl (.removed _ removing)
  | announces stored announcing => exact evolved_change stored rfl (.announced _ announcing)
  | spawns stored spawning => exact evolved_change stored rfl (.spawned spawning)
  | pipeCloses stored closing => exact evolved_change stored rfl (.pipeClose closing)
  | reads len stored idle => exact evolved_change stored rfl (.startRead len rfl idle)
  | readSteps stored reading read => exact evolved_change stored rfl (.read _ _ _ _ reading read)
  | readExpires stored reading read => exact evolved_change stored rfl (.deadline _ _ _ _ rfl reading read)
  | readDrops stored reading => exact evolved_change stored rfl (.dropRead _ _ rfl reading)
  | pushed receiving stored written => exact evolved_change stored rfl (.push _ _ _ _ rfl receiving written)
  | closeMarks receiving stored unset =>
    exact evolved_change stored rfl (.mark _ unset (.inl ⟨rfl, _, _, receiving, rfl⟩))
  | closeFinishes receiving =>
    exact evolved_modify rfl fun _ _ => .finish _ (.inl (by rw [receiving]; rfl))
  | endMarks ending stored unset =>
    exact evolved_change stored rfl (.mark .sessionEnd unset (.inr (.inl ⟨rfl, rfl, _, ending⟩)))
  | endFinishes ending => exact evolved_modify rfl fun _ _ => .finish none (.inr (.inl ⟨rfl, _, ending⟩))
  | _ => exact evolved_same rfl

theorem Move.out (moves : Move md5 s a t) : OutChange s a t := by
  cases moves with
  | synSent placed stored alive => exact .send _ false (.syn _ _ _ placed rfl stored rfl) alive rfl rfl rfl
  | pshSent stored sending alive => exact .send _ false (.psh _ _ _ stored sending rfl) alive rfl rfl rfl
  | finSent stored finishing alive => exact .send _ false (.fin _ _ stored finishing rfl) alive rfl rfl rfl
  | acknowledges call stored alive =>
    refine .send _ false (.synAck _ _ _ stored ?_ rfl) alive rfl rfl rfl
    cases call with
    | success => rintro byte ⟨⟩
    | failure message => exact fun _ _ => ⟨message, rfl, rfl⟩
  | answers receiving sending alive =>
    refine .send _ _ (.answer _ _ _ receiving ?_ rfl) alive rfl rfl rfl
    cases sending with
    | sendFrame frame => exact .inl rfl
    | sendFrameSync frame => exact .inr (.inl rfl)
    | alertAndFail message => exact .inr (.inr ⟨message, rfl, rfl⟩)
  | releases => exact .release rfl rfl rfl rfl
  | emits padding queued => exact .emit _ _ padding rfl queued rfl rfl rfl rfl
  | writerFails padding count => exact .fails padding count rfl rfl rfl
  | _ => exact .same rfl rfl rfl

theorem Move.table (moves : Move md5 s a t) : TableChange s a t := by
  cases moves with
  | inserts placed unset _ numbered => exact .insert _ (.opened _ _ rfl placed unset numbered) rfl rfl
  | creates receiving absent => exact .insert _ (.incoming _ _ rfl receiving absent) rfl rfl
  | undoRemoves | ends => exact .erase _ rfl rfl
  | removes => exact .erase _ rfl (List.length_modify ..)
  | clears => exact .clear rfl
  | _ => exact .same rfl

theorem Move.inbound (moves : Move md5 s a t) : InChange s a t := by
  cases moves with
  | receives receiving => exact .receive _ rfl receiving rfl
  | disconnects receiving => exact .disconnect _ rfl receiving rfl
  | turns | alerts | handles | answers | ends | releases | creates | pushed | closeAnnounces | closeMarks
  | closeFinishes | fails => exact .recv rfl
  | _ => exact .same rfl

theorem Waits.move {pc next} (waits : Waits s pc next) (i) :
    OpenMove s { s with opens := s.opens.set i next } pc next := by
  cases waits with
  | checkPasses => exact .insert _ rfl rfl
  | _ => exact .later _ _ nofun rfl rfl rfl

theorem opens_later {i pc next} (placed : s.opens[i]? = some pc) (opens : t.opens = s.opens.set i next)
    (numbers : t.nextStreamId = s.nextStreamId) (objects : t.objects.length = s.objects.length)
    (calls : ∀ ref, next ≠ .syn ref) (late : next.early = false) : OpensChange s a t :=
  .move i pc next placed (.later pc next calls late numbers objects) opens

theorem Move.opens (moves : Move md5 s a t) : OpensChange s a t := by
  have kept (ref : StreamRef) (f : StreamObject → StreamObject) : (s.objects.modify ref f).length = s.objects.length :=
    List.length_modify ..
  cases moves with
  | asks maxStreams => exact .start maxStreams rfl rfl rfl rfl
  | waits placed waiting => exact .move _ _ _ placed (waiting.move _) rfl
  | exhausts placed _ _ exhausted => exact .move _ _ _ placed (.exhausted _ _ exhausted) rfl
  | inserts placed _ _ numbered => exact .move _ _ _ placed (.created _ _ rfl rfl numbered rfl rfl) rfl
  | undoRemoves placed | undoAnnounces placed => exact opens_later placed rfl rfl rfl nofun rfl
  | synSent placed | undoMarks placed | undoFinishes placed =>
    exact opens_later placed rfl rfl (kept _ _) nofun rfl
  | writes | closes | pshSent | finSent | sendRefused | removes | announces | spawns | pipeCloses | reads | readSteps
  | readExpires | readDrops | endMarks | endFinishes => exact .same rfl (.inl (kept _ _))
  | creates | pushed | closeMarks | closeFinishes => exact .same rfl (.inr rfl)
  | _ => exact .same rfl (.inl rfl)

theorem Turns.unfinished {next} (turns : Turns s next) : next.finishing = none := by
  cases turns with
  | _ => rfl

theorem Waits.unfinished {pc next} (waits : Waits s pc next) (ref) : next ≠ .undoFinish ref := by
  cases waits with
  | _ => nofun

theorem Move.finishes (moves : Move md5 s a t) : s.FinishesMarked t := by
  cases moves with
  | asks maxStreams =>
    rintro ref error (receiving | ending | undoing)
    · exact .inl (.inl receiving)
    · exact .inl (.inr (.inl ending))
    · exact .inl (.inr (.inr (by simpa using undoing)))
  | waits _ waiting => exact finishes_opens rfl rfl rfl fun ref same => absurd same (waiting.unfinished ref)
  | exhausts | inserts | synSent | undoRemoves | undoAnnounces | undoFinishes => exact finishes_opens rfl rfl rfl nofun
  | undoMarks placed stored unset =>
    refine finishes_opens rfl rfl rfl fun ref same error problem => ?_
    cases same
    exact marked_modify stored rfl problem
  | turns turning => exact finishes_recv rfl (.inl rfl) turning.unfinished
  | answers _ sending => exact finishes_recv rfl (.inl rfl) sending.unfinished
  | receives | disconnects | alerts | handles | ends | releases | creates | pushed | closeFinishes =>
    exact finishes_recv rfl (.inl rfl) rfl
  | @closeAnnounces ref _ _ _ receiving =>
    cases ref with
    | none => exact finishes_recv rfl (.inl rfl) rfl
    | some ref => exact finishes_recv rfl (.inl rfl) rfl
  | @closeMarks _ error _ _ _ stored =>
    exact finishes_marked rfl rfl rfl (marked_modify stored rfl (CloseCause.ofPeer_ends error))
  | fails =>
    refine finishes_recv rfl ?_ rfl
    cases s.closed with
    | true => exact .inl rfl
    | false => exact .inr rfl
  | terminates =>
    cases closed : s.closed with
    | true => exact finishes_same (by rw [if_pos rfl])
    | false => exact finishes_end rfl rfl nofun
  | clears | endsAll | endSkips | endFinishes => exact finishes_end rfl rfl nofun
  | endMarks ending stored =>
    refine finishes_end rfl rfl fun other refs same => ?_
    cases same
    exact marked_modify stored rfl rfl
  | _ => exact finishes_same rfl

theorem step_effect (stepped : s.step md5 a = some t) : s.Effect a t := by
  have moves := step_move stepped
  exact ⟨moves.evolved, moves.out, moves.table, moves.inbound, moves.opens, moves.finishes⟩

/-! ### The start -/

theorem ensureStarted_eq (iterate : StringMap.Order) (isClient padding) :
    ∃ queue accepted, (new isClient padding).ensureStarted iterate =
      { new isClient padding with frameTx := ⟨queue, false⟩, accepted := accepted } := by
  cases isClient with
  | true => exact ⟨_, _, rfl⟩
  | false => exact ⟨_, _, rfl⟩

/-- A session that has done nothing but `ensure_started`. -/
structure Fresh (s : Session) : Prop where
  objects : s.objects = []
  streams : s.streams = ∅
  recv : s.recv = .reading
  opens : s.opens = []
  ending : s.ending = .none
  handled : s.handled = []
  flags : (s.closed, s.idleState, s.frameTx.isClosed) = (false, true, false)
  newStreams : s.newStreams = []

theorem fresh_started (iterate : StringMap.Order) (isClient padding) :
    ((new isClient padding).ensureStarted iterate).Fresh := by
  obtain ⟨queue, accepted, started⟩ := ensureStarted_eq iterate isClient padding
  rw [started]
  exact ⟨rfl, rfl, rfl, rfl, rfl, rfl, rfl, rfl⟩

namespace Fresh
variable {P : Prop} {ref : StreamRef}

theorem empty (fresh : s.Fresh) {o} (stored : s.objects[ref]? = some o) : P := by
  simp [fresh.objects] at stored

theorem unlisted (fresh : s.Fresh) {sid} (listed : s.streams.lookup sid = some ref) : P := by
  simp [fresh.streams] at listed

theorem unfinished (fresh : s.Fresh) {error} (finishes : s.Finishes ref error) : P := by
  simp [Finishes, fresh.recv, fresh.opens, fresh.ending, RecvPc.finishing] at finishes

end Fresh

end Session

end AnyTls

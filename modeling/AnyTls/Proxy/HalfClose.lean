import AnyTls.Proxy.StreamIds
import AnyTls.Proxy.Tracking

/-! Half-closed streams. A stream has one `closed` flag for its two directions, and one entry in the
table: a FIN of either side sets the flag and takes the entry. So it is only as long as neither side
has ended it that a client can write to a stream, read what the peer sends, and finds it listed. -/
namespace AnyTls

namespace Session
variable {md5 : Bytes → String} {s t : Session} {a : SessionAction} {ref : StreamRef} {o : StreamObject}

/-- The step ends the receive loop of a client whose session and writer go on: the connection ends,
an alert arrives or is to be sent, or a stream that is not closed has a pipe that takes no payload. -/
def endsLoop (s : Session) : SessionAction → Bool
  | .disconnect => true
  | .recvStep =>
    match s.recv with
    | .decoding => (Frame.next s.pending).any fun next => next.1.cmd = .alert
    | .applying (.alertAndFail _ :: _) => true
    | .pushError ref _ _ => (s.objects[ref]?).any fun o => !o.stream.closed
    | _ => false
  | _ => false

/-- The step ends neither direction of the stream: it is not closed or abandoned from this side, no
FIN and no SynAck error is applied to it, the session, its loop and its writer task go on, and no
sid is given a second time. -/
def leavesOpen (ref : StreamRef) (s : Session) (a : SessionAction) : Bool :=
  (match a with
    | .close target | .dropRead target => target != ref
    | .recvStep =>
      match s.recv with
      | .applying (action :: _) => action.closes.all fun ends => s.streams.lookup ends.1 != some ref
      | _ => true
    | other => other.steady) &&
  s.numbersLeft a && !s.endsLoop a

/-- A client that has ended neither direction of its stream. -/
structure StaysOpen (ref : StreamRef) (s : Session) : Prop where
  steady : s.Steady
  traced : s.Traced
  numbered : s.Numbered
  aimed : s.Aimed
  running : s.recv.pending ≠ none
  listed : ∀ o, s.objects[ref]? = some o → s.streams.lookup o.stream.id = some ref
  follows : ∀ o, s.objects[ref]? = some o → ∃ start : Inbox, start.sid = o.stream.id ∧ s.Follows ref o start

theorem leavesOpen_spec (leaves : leavesOpen ref s a = true) :
    (a ≠ .close ref ∧ a ≠ .dropRead ref) ∧ a.steady = true ∧ s.numbersLeft a = true ∧ s.endsLoop a = false ∧
    ∀ action rest sid error, a = .recvStep → s.recv = .applying (action :: rest) → action.Ends sid error →
      s.streams.lookup sid ≠ some ref := by
  simp only [leavesOpen, Bool.and_eq_true, Bool.not_eq_true'] at leaves
  obtain ⟨⟨calls, left⟩, goesOn⟩ := leaves
  refine ⟨⟨?_, ?_⟩, ?_, left, goesOn, ?_⟩
  · rintro rfl
    simp at calls
  · rintro rfl
    simp at calls
  · cases a with
    | close | dropRead | recvStep => rfl
    | _ => exact calls
  · rintro action rest sid error rfl receiving ends
    simp only [receiving] at calls
    cases ends with
    | closeLocal => simpa [ProtocolAction.closes] using calls
    | closeRemote => simpa [ProtocolAction.closes] using calls

/-- Where the loop goes on by itself, it goes on unless one of these events ends it. -/
theorem StaysOpen.turns (stays : s.StaysOpen ref) (goesOn : s.endsLoop .recvStep = false) {next}
    (turns : Turns s next) : next.pending ≠ none := by
  have alive := stays.steady.alive
  have quiet := stays.numbered.quiet
  have running := stays.running
  cases turns with
  | woken _ closed => cases (stays.steady.unset running).1.symm.trans closed
  | refused _ _ gone | ackLost _ _ gone => cases alive.symm.trans gone
  | synZero receiving =>
    rw [receiving] at quiet
    cases quiet
  | alerted receiving =>
    rw [receiving] at running
    exact absurd rfl running
  | pushFails receiving stored unclosed => simp [endsLoop, receiving, stored, unclosed] at goesOn
  | _ => exact Option.some_ne_none _

theorem StaysOpen.goesOn (stays : s.StaysOpen ref) (goesOn : s.endsLoop a = false)
    (stepped : s.step md5 a = some t) : t.recv.pending ≠ none := by
  cases step_move stepped with
  | disconnects => cases goesOn
  | turns turns => exact stays.turns goesOn turns
  | alerts decoding next alert => simp [endsLoop, decoding, next, alert] at goesOn
  | answers receiving sending =>
    cases sending with
    | alertAndFail => simp [endsLoop, receiving] at goesOn
    | sendFrame | sendFrameSync => exact Option.some_ne_none _
  | @closeAnnounces ref => cases ref <;> exact Option.some_ne_none _
  | fails failed => exact absurd (by rw [failed]; rfl) stays.running
  | receives | handles | ends | releases | creates | pushed | closeMarks | closeFinishes =>
    exact Option.some_ne_none _
  | _ => exact stays.running

/-- The step leaves the entry of the stream in the table. -/
theorem StaysOpen.table (stays : s.StaysOpen ref) (leaves : leavesOpen ref s a = true)
    (stored : s.objects[ref]? = some o) (stepped : s.step md5 a = some t) :
    t.streams.lookup o.stream.id = s.streams.lookup o.stream.id := by
  obtain ⟨calm, steady, left, -, spares⟩ := leavesOpen_spec leaves
  obtain ⟨actions, pending⟩ := Option.ne_none_iff_exists'.mp stays.running
  cases step_move stepped with
  | @inserts i maxStreams placed unset room nonzero =>
    have inserts : s.inserts (.openStep i) = true := by simp [Session.inserts, placed, unset, room, nonzero]
    have below := stays.numbered.next left inserts nonzero o (List.mem_of_getElem? stored)
    exact AList.lookup_insert_ne (UInt32.ne_of_lt below)
  | undoRemoves placed => cases stays.steady.undone _ (List.mem_of_getElem? placed)
  | @removes target other found closing =>
    refine AList.lookup_erase_ne ?_
    by_cases same : target = ref
    · subst same
      cases stored.symm.trans found
      obtain ⟨start, -, follows⟩ := stays.follows o stored
      obtain ⟨box, tracked, -⟩ := follows actions pending
      have writer := tracked.writer
      rw [closing] at writer
      cases writer
    · exact stays.numbered.distinct (Ne.symm same) stored found
  | @ends action rest sid error receiving ends =>
    refine AList.lookup_erase_ne ?_
    rintro rfl
    exact spares action rest _ error rfl receiving ends (stays.listed o stored)
  | clears ending => cases (stays.steady.unset stays.running).2.symm.trans ending
  | creates receiving =>
    have quiet := stays.numbered.quiet
    rw [receiving] at quiet
    cases quiet
  | terminates => cases steady
  | _ => rfl

/-- The stream that an `open_stream` call makes. -/
theorem StaysOpen.made (stays : s.StaysOpen s.objects.length) (stored : t.objects[s.objects.length]? = some o)
    (stepped : s.step md5 a = some t) : t.streams.lookup o.stream.id = some s.objects.length ∧
      ∃ start : Inbox, start.sid = o.stream.id ∧ t.Follows s.objects.length o start := by
  have unaimed : s.recv.errand s.objects.length = .none := by
    by_contra works
    exact Nat.lt_irrefl _ (stays.aimed _ works)
  cases step_move stepped with
  | inserts =>
    rw [List.getElem?_concat_length] at stored
    cases stored
    refine ⟨AList.lookup_insert _, _, ?_, Follows.new rfl (AList.lookup_insert _) unaimed⟩
    exact Inbox.foldl_apply_sid
  | creates receiving =>
    have quiet := stays.numbered.quiet
    rw [receiving] at quiet
    cases quiet
  | _ =>
    have within := (List.getElem?_eq_some_iff.mp stored).1
    simp [modifyObject] at within

theorem staysOpen_step (stays : s.StaysOpen ref) (leaves : leavesOpen ref s a = true)
    (stepped : s.step md5 a = some t) : t.StaysOpen ref := by
  obtain ⟨calm, steady, left, goesOn, -⟩ := leavesOpen_spec leaves
  have evolved := (step_effect stepped).objects
  refine ⟨steady_step stays.steady steady stepped, traced_step stays.traced stepped,
    numbered_step stays.numbered left stepped, aimed_step stays.aimed stays.traced stepped,
    stays.goesOn goesOn stepped,
    fun after stored => ?_, fun after stored => ?_⟩
  · rcases evolved.2 ref after stored with ⟨o, was, change⟩ | ⟨rfl, -⟩
    · rw [change.id, stays.table leaves was stepped]
      exact stays.listed o was
    · exact (stays.made stored stepped).1
  · rcases evolved.2 ref after stored with ⟨o, was, change⟩ | ⟨rfl, -⟩
    · obtain ⟨start, sid, follows⟩ := stays.follows o was
      obtain ⟨_, kept, after⟩ := follows.step stays.steady stays.traced was calm
        (fun _ => stays.table leaves was stepped) stepped
      cases stored.symm.trans kept
      exact ⟨start, sid.trans change.id.symm, after⟩
    · exact (stays.made stored stepped).2

theorem Fresh.staysOpen (fresh : s.Fresh) (client : s.isClient = true) (ref) : s.StaysOpen ref where
  steady := fresh.steady
  traced := fresh.traced
  numbered := fresh.numbered client
  aimed := by
    intro ref works
    rw [fresh.recv] at works
    exact absurd rfl works
  running := by
    rw [fresh.recv]
    exact Option.some_ne_none _
  listed _ stored := fresh.empty stored
  follows _ stored := fresh.empty stored

theorem StaysOpen.unclosed (stays : s.StaysOpen ref) (stored : s.objects[ref]? = some o) :
    o.stream.closed = false := by
  obtain ⟨actions, pending⟩ := Option.ne_none_iff_exists'.mp stays.running
  obtain ⟨start, -, follows⟩ := stays.follows o stored
  obtain ⟨box, tracked, -⟩ := follows actions pending
  obtain ⟨stage, -, stands⟩ := tracked.stands
  rw [tracked.listed.mp (stays.listed o stored)] at stands
  exact stands.unended.1

/-- A write is not refused, and its frame is queued when the channel has room. -/
theorem StaysOpen.writes (stays : s.StaysOpen ref) (md5 : Bytes → String)
    (stored : s.objects[ref]? = some o) (idle : o.writer = .idle) (buf) : ∃ t, s.step md5 (.write ref buf) = some t ∧
      (s.frameTx.queue.length < FrameTx.capacity → ∃ u, t.step md5 (.writeStep ref) = some u ∧
        u.accepted = s.accepted ++ [Frame.withData .psh o.stream.id buf]) := by
  have unclosed := stays.unclosed stored
  refine ⟨s.modifyObject ref (·.startWrite buf), by simp [step, stored, idle], fun room => ?_⟩
  have kept : (s.modifyObject ref (·.startWrite buf)).objects[ref]? = some (o.startWrite buf) := by
    simp [modifyObject, stored]
  have sending : (o.startWrite buf).writer = .sending buf := by simp [StreamObject.startWrite, unclosed]
  have taken : (s.modifyObject ref (·.startWrite buf)).send (Frame.withData .psh (o.startWrite buf).stream.id buf) false =
      some (some { s.modifyObject ref (·.startWrite buf) with
        frameTx := ⟨s.frameTx.queue ++ [⟨Frame.withData .psh o.stream.id buf, false⟩], false⟩
        accepted := s.accepted ++ [Frame.withData .psh o.stream.id buf] }) := by
    simp [send, FrameTx.trySend, FrameTx.send, modifyObject, stays.steady.alive, room, StreamObject.startWrite]
  simp only [step, kept, Option.bind_some, writeStep, sending]
  exact ⟨_, Option.map_eq_some_iff.mpr ⟨_, taken, rfl⟩, rfl⟩

/-- The bytes that have arrived are those of the peer's frames. A frame in progress while the stream
was made may have added to them. -/
theorem StaysOpen.readable (stays : s.StaysOpen ref) (stored : s.objects[ref]? = some o)
    (between : s.recv = .reading ∨ s.recv = .decoding) :
    ∃ early, o.history.got ++ o.stream.pipe.unread o.reader.pc = early ++
      (((s.handled.drop o.history.born).filter (·.sid = o.stream.id)).takeWhile (·.ending?.isNone)).flatMap
        Frame.payload := by
  have idle : s.recv.errand ref = .none ∧ s.recv.pending = some [] := by
    rcases between with reading | decoding
    · rw [reading]
      exact ⟨rfl, rfl⟩
    · rw [decoding]
      exact ⟨rfl, rfl⟩
  obtain ⟨start, sid, follows⟩ := stays.follows o stored
  obtain ⟨box, tracked, all⟩ := follows [] idle.2
  obtain ⟨stage, -, stands⟩ := tracked.stands
  rw [idle.1] at stands
  have unended := tracked.listed.mp (stays.listed o stored)
  simp only [List.foldl_nil] at all
  have first : start.ending = none := by
    by_contra ended
    rw [all, Inbox.foldl_take_ended ended] at unended
    exact ended unended
  refine ⟨start.data, ?_⟩
  rw [tracked.ordered.order, ← stands.of_none.1, all, Inbox.foldl_take first, sid]

/-- Half-close, as long as neither side closes. In every run of a client in which no step ends a
direction of the stream: it is in the table, a write to it is taken, and what the peer has sent is
read or can be. -/
theorem half_close {iterate : StringMap.Order} {padding : PaddingFactory}
    {actions : List SessionAction} (apart : Transition.Along (step md5) (fun s a => leavesOpen ref s a = true)
      ((new true padding).ensureStarted iterate) actions)
    (path : Transition.run (step md5) ((new true padding).ensureStarted iterate) actions = some s)
    (stored : s.objects[ref]? = some o) :
    s.streams.lookup o.stream.id = some ref ∧
    (o.writer = .idle → ∀ buf, ∃ t, s.step md5 (.write ref buf) = some t ∧
      (s.frameTx.queue.length < FrameTx.capacity → ∃ u, t.step md5 (.writeStep ref) = some u ∧
        u.accepted = s.accepted ++ [Frame.withData .psh o.stream.id buf])) ∧
    (s.recv = .reading ∨ s.recv = .decoding → ∃ early, o.history.got ++ o.stream.pipe.unread o.reader.pc = early ++
      (((s.handled.drop o.history.born).filter (·.sid = o.stream.id)).takeWhile (·.ending?.isNone)).flatMap
        Frame.payload) := by
  have stays : s.StaysOpen ref := Transition.invariant_along staysOpen_step
    ((fresh_started iterate true padding).staysOpen rfl ref) apart path
  exact ⟨stays.listed o stored, fun idle buf => stays.writes md5 stored idle buf, stays.readable stored⟩

/-- A client opens a stream. -/
def openOne : List SessionAction := [.openStream 8, .openStep 0, .openStep 0, .openStep 0]

theorem openOne_open : ∃ s o, Transition.run (step fun _ => "") started
      (openOne ++ [.receive (Frame.withData .psh 1 [7]).toBytes] ++ List.replicate 7 .recvStep) = some s ∧
    s.objects[0]? = some o ∧ s.recv = .reading ∧ s.streams.lookup o.stream.id = some 0 ∧
    ∃ early, o.history.got ++ o.stream.pipe.unread o.reader.pc = early ++
      (((s.handled.drop o.history.born).filter (·.sid = o.stream.id)).takeWhile (·.ending?.isNone)).flatMap
        Frame.payload := by
  have reached : (Transition.run (step fun _ => "") started
      (openOne ++ [SessionAction.receive (Frame.withData .psh 1 [7]).toBytes] ++
        List.replicate 7 SessionAction.recvStep)).any (fun s : Session => decide (s.recv = .reading) && s.objects[0]?.isSome) = true := by decide +kernel
  obtain ⟨s, path, reached⟩ := (Option.any_eq_true _ _).mp reached
  obtain ⟨reading, present⟩ := Bool.and_eq_true_iff.mp reached
  obtain ⟨o, stored⟩ := Option.isSome_iff_exists.mp present
  have reading := of_decide_eq_true reading
  obtain ⟨listed, -, readable⟩ := half_close (by decide +kernel) path stored
  exact ⟨s, o, path, stored, reading, listed, readable (.inl reading)⟩

def peerEnds : List SessionAction :=
  openOne ++ [SessionAction.receive (Frame.new .fin 1).toBytes] ++ List.replicate 7 SessionAction.recvStep ++
    [SessionAction.write 0 [5]]

def localEnds : List SessionAction :=
  openOne ++ SessionAction.close 0 :: List.replicate 4 (SessionAction.writeStep 0) ++
    [SessionAction.pipeClose 0, .receive (Frame.withData .psh 1 [7]).toBytes] ++ List.replicate 4 SessionAction.recvStep

/-- One flag for both directions. After the peer's FIN a write is refused, and the session is idle
before the client has sent its FIN; after a local close the bytes that the peer sends are lost. -/
theorem one_flag :
    (∃ s o, Transition.run (step fun _ => "") started peerEnds = some s ∧ s.objects[0]? = some o ∧
      o.history.written = [5] ∧ o.writer = .idle ∧ o.history.sent = [] ∧ o.history.cause = some .peerFin ∧
      o.history.finSent = false ∧ s.streams.lookup 1 = none ∧ s.idleState = true) ∧
    ∃ s o, Transition.run (step fun _ => "") started localEnds = some s ∧ s.objects[0]? = some o ∧
      s.handled = [Frame.withData .psh 1 [7]] ∧ s.recv = .reading ∧ o.history.pushed = [] ∧
      o.history.finSent = true ∧ s.streams.lookup 1 = none ∧ s.idleState = true := by
  have first : (Transition.run (step fun _ => "") started peerEnds).any
      (fun s : Session => s.objects[0]?.any fun o : StreamObject =>
      decide (o.history.written = [5] ∧ o.writer = .idle ∧ o.history.sent = [] ∧ o.history.cause = some .peerFin ∧
        o.history.finSent = false ∧ s.streams.lookup 1 = none ∧ s.idleState = true)) = true := by decide +kernel
  have second : (Transition.run (step fun _ => "") started localEnds).any
      (fun s : Session => s.objects[0]?.any fun o : StreamObject =>
      decide (s.handled = [Frame.withData .psh 1 [7]] ∧ s.recv = .reading ∧ o.history.pushed = [] ∧
        o.history.finSent = true ∧ s.streams.lookup 1 = none ∧ s.idleState = true)) = true := by decide +kernel
  obtain ⟨s, path, found⟩ := (Option.any_eq_true _ _).mp first
  obtain ⟨o, stored, refused⟩ := (Option.any_eq_true _ _).mp found
  obtain ⟨t, later, reached⟩ := (Option.any_eq_true _ _).mp second
  obtain ⟨p, placed, lost⟩ := (Option.any_eq_true _ _).mp reached
  exact ⟨⟨s, o, path, stored, of_decide_eq_true refused⟩, t, p, later, placed, of_decide_eq_true lost⟩

end Session

end AnyTls

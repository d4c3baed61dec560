import AnyTls.Proxy.Listening

/-! What the receive loop does is due to a frame it has handled: a payload is that of a
PSH, and a stream that its peer has closed was closed by a FIN or by the error of a SynAck
for its sid. -/
namespace AnyTls

/-- The end a closing action brings to a sid. -/
def ProtocolAction.closes : ProtocolAction → Option (UInt32 × Option IoError)
  | .closeLocalStream sid => some (sid, none)
  | .closeRemoteStream sid message => some (sid, some (IoError.otherError ("remote: " ++ message)))
  | _ => none

/-- The end the receive loop is bringing to a stream. -/
def RecvPc.closes : RecvPc → Option (StreamRef × Option IoError)
  | .closeAnnounce (some ref) _ error _ | .closeMark ref error _ | .closeFinish ref error _ => some (ref, error)
  | _ => none

/-- The error that a stream gets from a SynAck. -/
def Frame.remoteError (frame : Frame) : IoError :=
  IoError.otherError ("remote: " ++ String.ofList (fromUtf8Lossy frame.data))

/-- The frame that ends a stream of the sid in this way: a FIN, or a SynAck with an error. -/
def Frame.Ends (frame : Frame) (sid : UInt32) : Option IoError → Prop
  | none => frame.cmd = .fin ∧ frame.sid = sid
  | some error => frame.cmd = .synAck ∧ frame.sid = sid ∧ frame.data ≠ [] ∧ error = frame.remoteError

/-- The frame an action is due to. -/
structure ProtocolAction.From (action : ProtocolAction) (frame : Frame) : Prop where
  payload : ∀ sid data, action = .pushStreamData sid data →
    frame.cmd = .psh ∧ frame.sid = sid ∧ frame.data = data ∧ data ≠ []
  ends : ∀ sid error, action.closes = some (sid, error) → frame.Ends sid error

theorem onFrame_from {md5 state isClient frame} :
    ∀ action ∈ (Engine.onFrame md5 state isClient frame).2, action.From frame := by
  intro action member
  cases onFrame_raises action member with
  | payload filled =>
    refine ⟨fun other bytes same => ?_, (fun _ _ => by rintro ⟨⟩)⟩
    cases same
    exact ⟨rfl, rfl, rfl, filled⟩
  | ends =>
    refine ⟨(by simp), fun other error same => ?_⟩
    cases same
    exact ⟨rfl, rfl⟩
  | fails filled =>
    refine ⟨(by simp), fun other error same => ?_⟩
    cases same
    exact ⟨rfl, rfl, filled, rfl⟩
  | makes | refuses | updates | settings | beats => exact ⟨(by simp), (fun _ _ => by rintro ⟨⟩)⟩

namespace Session
variable {s t : Session} {a : SessionAction}

/-- A push or an end that the receive loop has begun goes to the stream of its sid. -/
structure Routes (s t : Session) : Prop where
  payload : ∀ ref data, t.recv.payload = some (ref, data) → s.recv.payload = some (ref, data) ∨
    ∃ sid rest, s.recv = .applying (.pushStreamData sid data :: rest) ∧ s.streams.lookup sid = some ref
  closes : ∀ ref error, t.recv.closes = some (ref, error) → s.recv.closes = some (ref, error) ∨
    ∃ action rest sid, s.recv = .applying (action :: rest) ∧ action.closes = some (sid, error) ∧
      s.streams.lookup sid = some ref

theorem Routes.same (payload : t.recv.payload = s.recv.payload ∨ t.recv.payload = none)
    (closes : t.recv.closes = s.recv.closes ∨ t.recv.closes = none) : Routes s t := by
  constructor
  · intro ref data pushing
    rcases payload with same | absent
    · exact .inl (same ▸ pushing)
    · cases absent.symm.trans pushing
  · intro ref error closing
    rcases closes with same | absent
    · exact .inl (same ▸ closing)
    · cases absent.symm.trans closing

theorem Turns.routes {next} (turns : Turns s next) : Routes s { s with recv := next } := by
  cases turns with
  | pushes receiving listed =>
    refine ⟨?_, (fun _ _ => by rintro ⟨⟩)⟩
    rintro _ _ ⟨⟩
    exact .inr ⟨_, _, receiving, listed⟩
  | pushChecked receiving | pushOpen receiving => exact .same (.inl (by rw [receiving]; rfl)) (.inr rfl)
  | _ => exact .same (.inr rfl) (.inr rfl)

theorem ends_closes {action : ProtocolAction} {sid error} (ends : action.Ends sid error) :
    action.closes = some (sid, error) := by
  cases ends with
  | _ => rfl

theorem recvStep_routes {md5} (stepped : s.recvStep md5 = some t) : Routes s t := by
  cases recvStep_move stepped with
  | turns turning => exact turning.routes
  | answers _ sending =>
    cases sending with
    | _ => exact .same (.inr rfl) (.inr rfl)
  | @ends action rest sid error receiving ending =>
    refine ⟨(fun _ _ => by rintro ⟨⟩), fun ref problem closing => .inr ⟨action, rest, sid, receiving, ?_⟩⟩
    cases listed : s.streams.lookup sid with
    | none =>
      simp only [listed] at closing
      cases closing
    | some found =>
      simp only [listed] at closing
      cases closing
      exact ⟨ends_closes ending, rfl⟩
  | @closeAnnounces ref _ _ _ receiving =>
    cases ref with
    | none => exact .same (.inr rfl) (.inr rfl)
    | some ref => exact .same (.inr rfl) (.inl (by rw [receiving]; rfl))
  | closeMarks receiving => exact .same (.inr rfl) (.inl (by rw [receiving]; rfl))
  | alerts | handles | releases | creates | pushed | closeFinishes | fails => exact .same (.inr rfl) (.inr rfl)
  | acknowledges call | acknowledged call => cases call

structure Traced (s : Session) : Prop where
  mapped : ∀ sid ref, s.streams.lookup sid = some ref → ∃ o, s.objects[ref]? = some o ∧ o.stream.id = sid
  due : ∀ actions, s.recv.pending = some actions → ∀ action ∈ actions, ∃ frame ∈ s.handled, action.From frame
  payload : ∀ ref data, s.recv.payload = some (ref, data) → data ≠ []
  closes : ∀ ref error, s.recv.closes = some (ref, error) →
    ∃ o, s.objects[ref]? = some o ∧ ∃ frame ∈ s.handled, frame.Ends o.stream.id error
  fin : ∀ (ref : StreamRef) o, s.objects[ref]? = some o → o.history.cause = some .peerFin →
    ∃ frame ∈ s.handled, frame.Ends o.stream.id none
  synAck : ∀ (ref : StreamRef) o, s.objects[ref]? = some o → o.history.cause = some .synAckError →
    ∃ error, ∃ frame ∈ s.handled, frame.Ends o.stream.id (some error)

theorem Fresh.traced (fresh : s.Fresh) : s.Traced := by
  refine ⟨fun _ _ => fresh.unlisted, ?_, ?_, ?_, fun _ _ => fresh.empty, fun _ _ => fresh.empty⟩
  · simp [fresh.recv, RecvPc.pending]
  · simp [fresh.recv, RecvPc.payload]
  · simp [fresh.recv, RecvPc.closes]

/-- A stream closed by its peer was so before, or the receive loop has just marked it. -/
theorem cause_ofPeer {ref before after} (change : Change s a t ref before after) {error}
    (closed : after.history.cause = some (.ofPeer error)) :
    before.history.cause = some (.ofPeer error) ∨
    ∃ problem, s.recv.closes = some (ref, problem) ∧ CloseCause.ofPeer problem = .ofPeer error := by
  cases change with
  | startClose =>
    unfold StreamObject.startClose at closed
    split_ifs at closed
    · exact .inl closed
    · cases error with
      | none => cases closed
      | some problem => cases closed
  | mark cause _ marks =>
    cases closed
    rcases marks with ⟨-, problem, rest, receiving, same⟩ | ⟨-, same, -⟩ | ⟨same, -⟩
    · exact .inr ⟨problem, by rw [receiving]; rfl, same.symm⟩
    · cases error with
      | none => cases same
      | some problem => cases same
    · cases error with
      | none => cases same
      | some problem => cases same
  | read len pc pipe state | deadline len pc pipe state =>
    obtain ⟨reader, got, eof, firstEnd, same⟩ := before.afterRead_eq len pipe state
    rw [same] at closed
    exact .inl closed
  | _ => exact .inl closed

/-- The frames a step leaves handled are at least those it found. -/
theorem handled_grows {md5} (stepped : s.step md5 a = some t) : s.handled <+: t.handled := by
  cases step_move stepped with
  | alerts | handles => exact List.prefix_append ..
  | _ => exact List.prefix_rfl

theorem Traced.peer (traced : s.Traced) {ref : StreamRef} {o : StreamObject} (stored : s.objects[ref]? = some o)
    {error : Option IoError} (closed : o.history.cause = some (.ofPeer error)) :
    ∃ problem, CloseCause.ofPeer problem = .ofPeer error ∧ ∃ frame ∈ s.handled, frame.Ends o.stream.id problem := by
  cases error with
  | none => exact ⟨none, rfl, traced.fin ref o stored closed⟩
  | some error =>
    obtain ⟨problem, found⟩ := traced.synAck ref o stored closed
    exact ⟨some problem, rfl, found⟩

/-- An end by the peer has its frame. -/
theorem Traced.peer_step {md5 : Bytes → String} (traced : s.Traced) (stepped : s.step md5 a = some t)
    {ref : StreamRef} {after : StreamObject} (stored : t.objects[ref]? = some after) (error)
    (closed : after.history.cause = some (.ofPeer error)) :
    ∃ problem, CloseCause.ofPeer problem = .ofPeer error ∧
      ∃ frame ∈ t.handled, frame.Ends after.stream.id problem := by
  have more := (handled_grows stepped).subset
  rcases (step_effect stepped).objects.2 ref after stored with ⟨before, was, change⟩ | ⟨-, created⟩
  · rw [change.id]
    rcases cause_ofPeer change closed with known | ⟨problem, closing, same⟩
    · obtain ⟨problem, same, frame, member, ends⟩ := traced.peer was known
      exact ⟨problem, same, frame, more member, ends⟩
    · obtain ⟨o, found, frame, member, ends⟩ := traced.closes ref problem closing
      cases was.symm.trans found
      exact ⟨problem, same, frame, more member, ends⟩
  · cases created with
    | incoming => cases error <;> cases closed
    | opened => cases error <;> cases closed

/-- So has all that the loop has in hand after one of its own steps. -/
theorem Traced.recv_step {md5} (traced : s.Traced) (stepped : s.step md5 .recvStep = some t) :
    (∀ actions, t.recv.pending = some actions → ∀ action ∈ actions, ∃ frame ∈ t.handled, action.From frame) ∧
    (∀ ref data, t.recv.payload = some (ref, data) → data ≠ []) ∧
    ∀ ref error, t.recv.closes = some (ref, error) →
      ∃ o, s.objects[ref]? = some o ∧ ∃ frame ∈ t.handled, frame.Ends o.stream.id error := by
  have more := (handled_grows stepped).subset
  have routes := recvStep_routes stepped
  refine ⟨?_, fun ref data pushing => ?_, fun ref error closing => ?_⟩
  · rcases recvStep_cases stepped with ⟨frame, rest, -, -, rfl⟩ | onward
    · unfold handleFrame
      split_ifs
      · exact nofun
      · rintro _ ⟨⟩ action member
        exact ⟨frame, by simp, onFrame_from action member⟩
    · intro actions left action member
      obtain ⟨done, before⟩ := onward.actions actions left
      obtain ⟨frame, known, source⟩ := traced.due _ before action (List.mem_append_right _ member)
      exact ⟨frame, more known, source⟩
  · rcases routes.payload ref data pushing with before | ⟨sid, rest, receiving, -⟩
    · exact traced.payload ref data before
    · obtain ⟨frame, -, source⟩ := traced.due _ (by rw [receiving]; rfl) _ List.mem_cons_self
      exact (source.payload sid data rfl).2.2.2
  · rcases routes.closes ref error closing with before | ⟨action, rest, sid, receiving, ends, listed⟩
    · obtain ⟨o, stored, frame, member, found⟩ := traced.closes ref error before
      exact ⟨o, stored, frame, more member, found⟩
    · obtain ⟨frame, member, source⟩ := traced.due _ (by rw [receiving]; rfl) action List.mem_cons_self
      obtain ⟨o, stored, rfl⟩ := traced.mapped sid ref listed
      exact ⟨o, stored, frame, more member, source.ends _ error ends⟩

theorem traced_step {md5 : Bytes → String} (traced : s.Traced) (stepped : s.step md5 a = some t) : t.Traced := by
  have effect := step_effect stepped
  have fin : ∀ (ref : StreamRef) o, t.objects[ref]? = some o → o.history.cause = some .peerFin →
      ∃ frame ∈ t.handled, frame.Ends o.stream.id none := by
    intro ref o stored closed
    obtain ⟨problem, same, found⟩ := traced.peer_step stepped stored none closed
    cases problem with
    | none => exact found
    | some problem => cases same
  have synAck : ∀ (ref : StreamRef) o, t.objects[ref]? = some o → o.history.cause = some .synAckError →
      ∃ error, ∃ frame ∈ t.handled, frame.Ends o.stream.id (some error) := by
    intro ref o stored closed
    obtain ⟨problem, same, found⟩ := traced.peer_step stepped stored (some sessionClosed) closed
    cases problem with
    | none => cases same
    | some problem => exact ⟨problem, found⟩
  suffices loop : (∀ actions, t.recv.pending = some actions →
        ∀ action ∈ actions, ∃ frame ∈ t.handled, action.From frame) ∧
      (∀ ref data, t.recv.payload = some (ref, data) → data ≠ []) ∧
      ∀ ref error, t.recv.closes = some (ref, error) →
        ∃ o, s.objects[ref]? = some o ∧ ∃ frame ∈ t.handled, frame.Ends o.stream.id error by
    refine ⟨effect.mapped traced.mapped, loop.1, loop.2.1, fun ref error closing => ?_, fin, synAck⟩
    obtain ⟨o, stored, found⟩ := loop.2.2 ref error closing
    obtain ⟨after, kept, change⟩ := effect.objects.kept stored
    exact ⟨after, kept, change.id ▸ found⟩
  cases effect.inbound with
  | same unchanged =>
    simp only [Prod.mk.injEq] at unchanged
    obtain ⟨recv, -, -, handled, -, -⟩ := unchanged
    rw [recv, handled]
    exact ⟨traced.due, traced.payload, traced.closes⟩
  | receive chunk _ _ same =>
    subst same
    exact ⟨by rintro _ ⟨⟩ _ ⟨⟩, nofun, nofun⟩
  | disconnect error _ _ same =>
    subst same
    exact ⟨nofun, nofun, nofun⟩
  | recv called =>
    subst called
    exact traced.recv_step stepped

end Session

end AnyTls

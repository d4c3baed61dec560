import AnyTls.Core.Handshake
import AnyTls.Proxy.SettingsGate
import AnyTls.Runtime.WriterRuns

/-! What a client session says first. Its Settings frame is queued before any other and is the
only one, so it starts whatever the writer task puts on the connection, however the records are
padded and whenever a write fails. A server that reads from that connection has the settings
before any SYN. -/
namespace AnyTls

/-- The first frame of what was decoded from bytes that agree with an encoded frame. -/
theorem Frame.first_decoded {first frame : Frame} {rest more} (encodable : first.Encodable)
    (known : frame.Encodable) (split : first.toBytes ++ rest = frame.toBytes ++ more) : first = frame := by
  have decoded := Frame.encodes encodable rest
  rw [split, Frame.encodes known more, Option.some.injEq, Prod.mk.injEq] at decoded
  exact decoded.1.symm

/-- An action that sends no Settings frame. -/
def ProtocolAction.Unsettled : ProtocolAction → Prop
  | .sendFrame answer | .sendFrameSync answer => answer.cmd ≠ .settings
  | _ => True

theorem ProtocolAction.Answers.unsettled {state frame} {action : ProtocolAction}
    (answers : action.Answers state frame) : action.Unsettled := by
  cases action with
  | sendFrame answer | sendFrameSync answer => exact answers.1
  | _ => trivial

namespace Session
variable {s t : Session} {a : SessionAction} {md5 : Bytes → String} {frame : Frame}

/-- What the actions of every frame satisfy, the actions still to be applied satisfy. -/
theorem pending_step {P : ProtocolAction → Prop}
    (frames : ∀ frame, ∀ action ∈ (Engine.onFrame md5 s.protocolState s.isClient frame).2, P action)
    (before : ∀ actions, s.recv.pending = some actions → ∀ action ∈ actions, P action)
    (stepped : s.step md5 a = some t) :
    ∀ actions, t.recv.pending = some actions → ∀ action ∈ actions, P action := by
  cases (step_effect stepped).inbound with
  | same unchanged =>
    have recv : t.recv = s.recv := congrArg (·.1) unchanged
    exact recv ▸ before
  | receive chunk _ _ same => simp [same, RecvPc.pending]
  | disconnect error _ _ same => simp [same, RecvPc.pending]
  | recv called =>
    subst called
    rcases recvStep_cases stepped with ⟨frame, rest, -, -, rfl⟩ | onward
    · unfold handleFrame
      split_ifs
      · simp [RecvPc.pending]
      · intro actions left
        cases left
        exact frames frame
    · intro actions left action member
      obtain ⟨done, known⟩ := onward.actions actions left
      exact before _ known action (List.mem_append_right _ member)

/-! ### The frames queued -/

/-- `frame` was queued first, and no Settings frame after it. -/
structure Introduced (frame : Frame) (s : Session) : Prop where
  queued : ∃ rest, s.accepted = frame :: rest ∧ ∀ other ∈ rest, other.cmd ≠ .settings
  pending : ∀ actions, s.recv.pending = some actions → ∀ action ∈ actions, action.Unsettled

theorem introduced_step (introduced : s.Introduced frame) (stepped : s.step md5 a = some t) :
    t.Introduced frame := by
  obtain ⟨rest, accepted, only⟩ := introduced.queued
  refine ⟨?_, pending_step (fun frame action member => (onFrame_answers action member).unsettled)
    introduced.pending stepped⟩
  cases (step_effect stepped).out with
  | same same | release same | fails _ _ _ same => exact ⟨rest, same.trans accepted, only⟩
  | emit next left padding _ _ _ same => exact ⟨rest, same.trans accepted, only⟩
  | send answer ack sends _ more =>
    have other : answer.cmd ≠ .settings := by
      cases sends with
      | syn | psh | fin | synAck => simp [Frame.new, Frame.withData]
      | answer action left answer receiving answers =>
        have unsettled := introduced.pending (action :: left) (by rw [receiving]; rfl) action List.mem_cons_self
        rcases answers with rfl | rfl | ⟨message, -, rfl⟩
        · exact unsettled
        · exact unsettled
        · simp [Frame.withData]
    refine ⟨rest ++ [answer], by rw [more, accepted, List.cons_append], fun later member => ?_⟩
    rcases List.mem_append.mp member with old | new
    · exact only later old
    · exact List.mem_singleton.mp new ▸ other

/-! ### The bytes on the connection -/

/-- The connection carries the bytes first, or the writer broke off while it wrote them, or
the frame they encode is the next it will write. -/
inductive Heads (frame : Frame) (s : Session) : Prop where
  | written : frame.toBytes <+: s.transcript.wire → Heads frame s
  | broken : s.transcript.wire <+: frame.toBytes → s.frameTx.isClosed = true → Heads frame s
  | next (ack rest) : s.frameTx = ⟨⟨frame, ack⟩ :: rest, false⟩ →
      s.transcript.wire = [] → s.transcript.writer.buffering = false → s.transcript.writer.buffer = [] →
      Heads frame s

theorem Heads.agrees (heads : s.Heads frame) :
    frame.toBytes <+: s.transcript.wire ∨ s.transcript.wire <+: frame.toBytes := by
  cases heads with
  | written starts => exact .inl starts
  | broken starts => exact .inr starts
  | next ack rest queue wire => exact .inr (wire ▸ List.nil_prefix)

theorem heads_step (heads : s.Heads frame) (stepped : s.step md5 a = some t) : t.Heads frame := by
  cases (step_effect stepped).out with
  | same _ queue written =>
    cases heads with
    | written starts => exact .written (written ▸ starts)
    | broken starts closed => exact .broken (written ▸ starts) (queue ▸ closed)
    | next ack rest first wire flowing buffer =>
      exact .next ack rest (queue.trans first) (written ▸ wire) (written ▸ flowing) (written ▸ buffer)
  | send answer sync _ alive _ queue written =>
    cases heads with
    | written starts => exact .written (written ▸ starts)
    | broken starts closed => cases alive.symm.trans closed
    | next ack rest first wire flowing buffer =>
      refine .next ack (rest ++ [⟨answer, sync⟩]) ?_ (written ▸ wire) (written ▸ flowing) (written ▸ buffer)
      rw [queue, first, List.cons_append]
  | release _ queue written =>
    have wire : t.transcript.wire = s.transcript.wire := by rw [written]; rfl
    cases heads with
    | written starts => exact .written (wire ▸ starts)
    | broken starts closed => exact .broken (wire ▸ starts) (queue ▸ closed)
    | next ack rest first empty flowing buffer =>
      refine .next ack rest (queue.trans first) (wire.trans empty) (by rw [written]; rfl) ?_
      rw [written]
      exact buffer
  | emit next rest padding _ before _ _ written =>
    have wire : t.transcript.wire = s.transcript.wire ++
        (writeConn s.transcript.writer next.frame.toBytes padding).records.flatten := by rw [written]; rfl
    cases heads with
    | written starts => exact .written (wire ▸ starts.trans (List.prefix_append _ _))
    | broken starts closed =>
      rw [before] at closed
      cases closed
    | next ack later first empty flowing buffer =>
      cases before.symm.trans first
      obtain ⟨-, blocks, -, records⟩ := writeConn_spec s.transcript.writer frame.toBytes padding flowing
      refine .written ?_
      rw [wire, empty, records, buffer, List.nil_append, List.nil_append]
      exact List.prefix_append _ _
  | fails padding count called =>
    subst called
    simp only [step] at stepped
    split at stepped
    · rename_i next rest queue
      cases stepped
      cases heads with
      | written starts => exact .written (starts.trans (List.prefix_append _ _))
      | broken starts closed =>
        rw [queue] at closed
        cases closed
      | next ack later first empty flowing buffer =>
        cases queue.symm.trans first
        obtain ⟨-, blocks, -, records⟩ := writeConn_spec s.transcript.writer frame.toBytes padding flowing
        rw [empty, records, buffer, List.nil_append, List.nil_append]
        -- the cut falls inside the frame or after it
        rcases List.prefix_or_prefix_of_prefix (List.prefix_append frame.toBytes _)
            (List.take_prefix count (frame.toBytes ++ blocks.flatMap paddingFrame)) with whole | cut
        · exact .written whole
        · exact .broken cut rfl
    · cases stepped

/-! ### The bytes received -/

/-- What was received are the frames handled and the bytes not yet decoded. -/
structure Decoded (s : Session) : Prop where
  bytes : s.received = s.handled.flatMap Frame.toBytes ++ s.pending
  encodable : ∀ frame ∈ s.handled, frame.Encodable

theorem Decoded.same (decoded : s.Decoded)
    (inbound : (t.pending, t.received, t.handled) = (s.pending, s.received, s.handled)) : t.Decoded := by
  simp only [Prod.mk.injEq] at inbound
  obtain ⟨pending, received, handled⟩ := inbound
  constructor
  · rw [received, handled, pending]
    exact decoded.bytes
  · rw [handled]
    exact decoded.encodable

theorem decoded_step (decoded : s.Decoded) (stepped : s.step md5 a = some t) : t.Decoded := by
  cases (step_effect stepped).inbound with
  | same unchanged =>
    simp only [Prod.mk.injEq] at unchanged
    obtain ⟨-, pending, received, handled, -⟩ := unchanged
    exact decoded.same (by rw [pending, received, handled])
  | receive chunk _ _ same =>
    rw [same]
    exact ⟨by rw [decoded.bytes, List.append_assoc], decoded.encodable⟩
  | disconnect error _ _ same =>
    rw [same]
    exact decoded.same rfl
  | recv called =>
    subst called
    rcases recvStep_cases stepped with ⟨frame, rest, -, found, rfl⟩ | onward
    · obtain ⟨encodable, split⟩ := (Frame.next_iff _ _ _).mp found
      have now : Decoded { s with pending := rest, handled := s.handled ++ [frame] } := by
        constructor
        · simp only [decoded.bytes, split, List.flatMap_append, List.flatMap_singleton, List.append_assoc]
        · intro other member
          rcases List.mem_append.mp member with old | new
          · exact decoded.encodable other old
          · exact List.mem_singleton.mp new ▸ encodable
      unfold handleFrame
      split_ifs
      · exact now.same rfl
      · exact now.same rfl
    · have inbound := onward.inbound
      simp only [Prod.mk.injEq] at inbound
      obtain ⟨pending, received, handled, -⟩ := inbound
      exact decoded.same (by rw [pending, received, handled])

/-- A session that reads what another has written has that one's first frame first. -/
theorem Decoded.first {peer : Session} (decoded : s.Decoded) (heads : peer.Heads frame)
    (encodable : frame.Encodable) (fed : s.received <+: peer.transcript.wire) :
    s.handled = [] ∨ ∃ rest, s.handled = frame :: rest := by
  cases handled : s.handled with
  | nil => exact .inl rfl
  | cons first rest =>
    refine .inr ⟨rest, ?_⟩
    have known := decoded.encodable first (by simp [handled])
    have starts : first.toBytes <+: peer.transcript.wire := by
      refine List.IsPrefix.trans ?_ fed
      rw [decoded.bytes, handled, List.flatMap_cons, List.append_assoc]
      exact List.prefix_append _ _
    obtain ⟨after, split⟩ := starts
    rcases heads.agrees with ⟨more, whole⟩ | ⟨more, cut⟩
    · rw [Frame.first_decoded known encodable (split.trans whole.symm)]
    · have split : first.toBytes ++ (after ++ more) = frame.toBytes ++ [] := by
        rw [← List.append_assoc, split, cut, List.append_nil]
      rw [Frame.first_decoded known encodable split]

end Session

end AnyTls

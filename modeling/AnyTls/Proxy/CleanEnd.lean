import AnyTls.Proxy.Draining
import AnyTls.Proxy.Tracing

/-! The end of a stream as its reader sees it. `Ok(0)` says that the peer has finished, and
so it does unless the session ends while the stream is open: `terminate` ends a stream in
the same way as a FIN. A read dropped with the receiver loses the error of a SynAck. -/
namespace AnyTls

namespace Session
variable {s t : Session} {a : SessionAction}

/-- The session ends no open stream, and no read is dropped that holds the receiver. -/
def orderly (s : Session) : SessionAction → Bool
  | .endStep =>
    match s.ending with
    | .mark (ref :: _) => s.objects[ref]?.all (·.stream.closed)
    | _ => true
  | .dropRead ref => s.objects[ref]?.all (!·.reader.holdsReceiver)
  | _ => true

theorem orderly_frees (orderly : s.orderly a = true) {ref o} (stored : s.objects[ref]? = some o) : Frees a ref o := by
  rintro rfl
  simpa [Session.orderly, stored] using orderly

/-- What the session ends was closed before. -/
structure Outlived (s : Session) : Prop where
  draining : s.Draining
  traced : s.Traced
  unended : ∀ (ref : StreamRef) o, s.objects[ref]? = some o → o.history.cause ≠ some .sessionEnd

theorem cause_sessionEnd {ref before after} (change : Change s a t ref before after)
    (orderly : s.orderly a = true) (stored : s.objects[ref]? = some before)
    (known : before.history.cause ≠ some .sessionEnd) : after.history.cause ≠ some .sessionEnd := by
  cases change with
  | startClose =>
    unfold StreamObject.startClose
    split_ifs
    · exact known
    · exact nofun
  | mark cause still marks =>
    rintro ⟨⟩
    rcases marks with ⟨-, problem, -, -, same⟩ | ⟨rfl, -, refs, ending⟩ | ⟨same, -⟩
    · cases problem with
      | none => cases same
      | some problem => cases same
    · simp [Session.orderly, ending, stored, still] at orderly
    · cases same
  | read len pc pipe state | deadline len pc pipe state =>
    have kept : (before.afterRead len pipe state).history.cause = before.history.cause :=
      congrArg (·.2.2.2) (afterRead_kept before len pipe state)
    rwa [kept]
  | _ => exact known

theorem outlived_step {md5} (outlived : s.Outlived) (orderly : s.orderly a = true)
    (stepped : s.step md5 a = some t) : t.Outlived := by
  refine ⟨?_, traced_step outlived.traced stepped, fun ref after stored => ?_⟩
  · refine draining_step outlived.draining (fun ref o stored => orderly_frees orderly stored) ?_ stepped
    intro ref data rest receiving
    exact outlived.traced.payload ref data (by rw [receiving]; rfl)
  · rcases (step_effect stepped).objects.2 ref after stored with ⟨before, was, change⟩ | ⟨-, created⟩
    · exact cause_sessionEnd change orderly was (outlived.unended ref before was)
    · cases created with
      | incoming => exact nofun
      | opened => exact nofun

theorem Fresh.outlived (fresh : s.Fresh) : s.Outlived :=
  ⟨fresh.draining, fresh.traced, fun _ _ => fresh.empty⟩

/-- The first end that reads of a stream report. In every run in which the session ends no
open stream and no read is dropped with the receiver, it is `Ok(0)` only if the stream was
closed locally or the peer's FIN for it was handled, and then all that was pushed has been
read before. -/
theorem clean_eof (md5 : Bytes → String) (iterate : StringMap.Order)
    (isClient : Bool) (padding : PaddingFactory) {actions : List SessionAction} {s : Session}
    (allowed : Transition.Along (step md5) (fun s a => s.orderly a = true)
      ((new isClient padding).ensureStarted iterate) actions)
    (path : Transition.run (step md5) ((new isClient padding).ensureStarted iterate) actions = some s)
    {ref : StreamRef} {o : StreamObject} (stored : s.objects[ref]? = some o)
    (first : o.history.firstEnd = some (.ok ())) :
    o.history.cause = some .localClose ∨
    (o.history.got = o.history.pushed ∧ ∃ frame ∈ s.handled, frame.cmd = .fin ∧ frame.sid = o.stream.id) := by
  have outlived : s.Outlived := Transition.invariant_along outlived_step
    (fresh_started iterate isClient padding).outlived allowed path
  by_cases locally : o.history.cause = some .localClose
  · exact .inl locally
  · obtain ⟨stage, drains, arrived⟩ := (outlived.draining.ending ref o stored).draining locally
    cases arrived.first first
    obtain ⟨cause, known, ends⟩ := arrived.error none (.inr rfl)
    have finished : cause = .peerFin := by
      cases cause with
      | localClose => exact absurd known locally
      | peerFin => rfl
      | sessionEnd => exact absurd known (outlived.unended ref o stored)
      | synAckError => exact absurd rfl ends
      | openFailed => exact absurd rfl ends
    subst finished
    exact .inr ⟨(outlived.draining.ordered ref o stored).complete drains, outlived.traced.fin ref o stored known⟩

/-- A client that opens a stream, on which a payload arrives. -/
def onePayload : List SessionAction :=
  [SessionAction.openStream 8, .openStep 0, .openStep 0, .openStep 0, .receive (Frame.withData .psh 1 [7]).toBytes] ++
    List.replicate 7 SessionAction.recvStep

def readOnce : List SessionAction := [.read 0 4, .readStep 0, .readStep 0, .readStep 0, .readStep 0]

def payloadAndFin : List SessionAction :=
  onePayload ++ .receive (Frame.new .fin 1).toBytes :: List.replicate 5 .recvStep ++ readOnce ++ readOnce

theorem payloadAndFin_eof : ∃ s o, Transition.run (step fun _ => "") started payloadAndFin = some s ∧
    s.objects[0]? = some o ∧ o.history.firstEnd = some (.ok ()) ∧
    (o.history.cause = some .localClose ∨ (o.history.got = o.history.pushed ∧
      ∃ frame ∈ s.handled, frame.cmd = .fin ∧ frame.sid = o.stream.id)) := by
  have reached : (Transition.run (step fun _ => "") started payloadAndFin).any (fun s => s.objects[0]?.any fun o =>
      decide (o.history.firstEnd = some (.ok ()))) = true := by decide +kernel
  obtain ⟨s, path, reached⟩ := (Option.any_eq_true _ _).mp reached
  obtain ⟨o, stored, first⟩ := (Option.any_eq_true _ _).mp reached
  have first := of_decide_eq_true first
  exact ⟨s, o, path, stored, first, clean_eof (fun _ => "") AList.entries true plainPadding (by decide +kernel)
    path stored first⟩

/-- The connection is lost in the middle of a transfer, and the reader sees its end. -/
def lostConnection : List SessionAction :=
  onePayload ++ [SessionAction.disconnect, .recvStep, .endStep, .endStep, .endStep] ++ readOnce ++ readOnce

/-- The error of a SynAck finds the receiver gone, and the reader sees the end of the stream. -/
def lostError : List SessionAction :=
  [SessionAction.openStream 8, .openStep 0, .openStep 0, .openStep 0, .read 0 4, .readStep 0, .readStep 0, .dropRead 0,
    .receive (Frame.withData .synAck 1 [33]).toBytes] ++ List.replicate 5 SessionAction.recvStep ++
    [SessionAction.read 0 4, .readStep 0]

theorem end_invented :
    (∃ s o, Transition.run (step fun _ => "") started lostConnection = some s ∧ s.objects[0]? = some o ∧
      o.history.firstEnd = some (.ok ()) ∧ o.history.cause = some .sessionEnd ∧
      s.handled = [Frame.withData .psh 1 [7]]) ∧
    ∃ s o, Transition.run (step fun _ => "") started lostError = some s ∧ s.objects[0]? = some o ∧
      o.history.firstEnd = some (.ok ()) ∧ o.history.cause = some .synAckError ∧
      s.handled = [Frame.withData .synAck 1 [33]] := by
  have lost : (Transition.run (step fun _ => "") started lostConnection).any (fun s : Session =>
      decide (s.handled = [Frame.withData .psh 1 [7]]) && s.objects[0]?.any fun o : StreamObject =>
        decide (o.history.firstEnd = some (.ok ()) ∧ o.history.cause = some .sessionEnd)) = true := by
    decide +kernel
  have refused : (Transition.run (step fun _ => "") started lostError).any (fun s : Session =>
      decide (s.handled = [Frame.withData .synAck 1 [33]]) && s.objects[0]?.any fun o : StreamObject =>
        decide (o.history.firstEnd = some (.ok ()) ∧ o.history.cause = some .synAckError)) = true := by
    decide +kernel
  obtain ⟨s, path, lost⟩ := (Option.any_eq_true _ _).mp lost
  obtain ⟨handled, lost⟩ := Bool.and_eq_true_iff.mp lost
  obtain ⟨o, stored, first⟩ := (Option.any_eq_true _ _).mp lost
  obtain ⟨t, path', refused⟩ := (Option.any_eq_true _ _).mp refused
  obtain ⟨handled', refused⟩ := Bool.and_eq_true_iff.mp refused
  obtain ⟨p, stored', first'⟩ := (Option.any_eq_true _ _).mp refused
  have first := of_decide_eq_true first
  have first' := of_decide_eq_true first'
  exact ⟨⟨s, o, path, stored, first.1, first.2, of_decide_eq_true handled⟩,
    t, p, path', stored', first'.1, first'.2, of_decide_eq_true handled'⟩

end Session

end AnyTls

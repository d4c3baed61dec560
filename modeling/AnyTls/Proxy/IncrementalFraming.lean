import AnyTls.Proxy.Introduction
import AnyTls.Proxy.PushSafety
import AnyTls.Proxy.SessionMoves

/-! The frames of `recv_loop` are those of the bytes received, however the reads cut them. The
loop appends each read to its pending bytes and takes frames off their front until there is no
complete one; what stays is shorter than the longest frame. -/
namespace AnyTls

namespace Frame

/-- Bytes with no complete frame at the front are shorter than the longest frame. -/
theorem next_none_length {pending} (incomplete : next pending = none) :
    pending.length < HEADER_OVERHEAD_SIZE + 65535 := by
  by_contra long
  have header : HEADER_OVERHEAD_SIZE ≤ pending.length := by omega
  obtain ⟨cmd, sid, length, body, bound, rfl⟩ := split_header pending header
  have size : (cmd :: BigEndian.bytes 4 sid.toNat ++ BigEndian.bytes 2 length ++ body).length =
      HEADER_OVERHEAD_SIZE + body.length := by
    simp [HEADER_OVERHEAD_SIZE]
    omega
  have complete : ¬ body.length < length % 2 ^ 16 := by
    rw [size] at long
    omega
  have read := fromBytes_header (Command.ofU8 cmd) sid length body
  rw [Command.toU8_ofU8, if_neg complete] at read
  rw [next, read] at incomplete
  cases incomplete

end Frame

/-- The bytes a step reads from the connection. -/
def SessionAction.chunk : SessionAction → Bytes
  | .receive chunk => chunk
  | _ => []

namespace Session
variable {md5 : Bytes → String} {s t : Session} {a : SessionAction}

theorem Move.received (moves : Move md5 s a t) : t.received = s.received ++ a.chunk := by
  cases moves with
  | receives => rfl
  | acknowledges acknowledges | acknowledged acknowledges =>
    cases acknowledges <;> exact (List.append_nil _).symm
  | _ => exact (List.append_nil _).symm

theorem received_run {actions} (path : Transition.run (step md5) s actions = some t) :
    t.received = s.received ++ actions.flatMap SessionAction.chunk := by
  induction actions generalizing s with
  | nil =>
    cases path
    exact (List.append_nil _).symm
  | cons a rest ih =>
    obtain ⟨u, stepped, path⟩ := Transition.run_cons_some.mp path
    rw [ih path, (step_move stepped).received, List.flatMap_cons, List.append_assoc]

/-- The loop reads on only when no frame is left. -/
def Rests (s : Session) : Prop := s.recv = .reading → Frame.next s.pending = none

theorem rests_step (rests : s.Rests) (stepped : s.step md5 a = some t) : t.Rests := by
  intro reading
  cases step_move stepped with
  | turns turns =>
    cases turns with
    | drained _ none => exact none
    | _ => cases reading
  | answers _ sending =>
    cases sending <;> cases reading
  | @closeAnnounces ref => cases ref <;> cases reading
  | receives | disconnects | alerts | handles | ends | releases | creates | pushed | closeMarks
  | closeFinishes | fails => cases reading
  | _ => exact rests reading

theorem framing_started (iterate : StringMap.Order) (isClient padding) :
    ((new isClient padding).ensureStarted iterate).Decoded ∧
      ((new isClient padding).ensureStarted iterate).Rests ∧
      ((new isClient padding).ensureStarted iterate).received = [] := by
  obtain ⟨queue, accepted, started⟩ := ensureStarted_eq iterate isClient padding
  rw [started]
  refine ⟨⟨rfl, ?_⟩, fun _ => rfl, rfl⟩
  intro frame member
  cases member

/-- In every run, however the bytes are cut into chunks: the frames handled and the bytes kept are
those that all the bytes received decode to, no whole frame is left where the loop waits for more,
and the frames of a peer that can be encoded are decoded as they were sent. -/
theorem incremental_framing {iterate : StringMap.Order} {isClient : Bool}
    {padding : PaddingFactory} {actions : List SessionAction}
    (path : Transition.run (step md5) ((new isClient padding).ensureStarted iterate) actions = some s) :
    s.received = actions.flatMap SessionAction.chunk ∧
    s.received = s.handled.flatMap Frame.toBytes ++ s.pending ∧
    Framing.decodeAll Frame.next s.received =
      (s.handled ++ (Framing.decodeAll Frame.next s.pending).1, (Framing.decodeAll Frame.next s.pending).2) ∧
    (s.recv = .reading → Framing.decodeAll Frame.next s.received = (s.handled, s.pending) ∧
      Frame.next s.pending = none ∧ s.pending.length < 7 + 65535) ∧
    ∀ frames : List Frame,
      (∀ frame ∈ frames, frame.data.length ≤ 65535 ∧ ∀ value, frame.cmd = .unknown value → 10 < value) →
      Framing.decodeAll Frame.next (frames.flatMap Frame.toBytes) = (frames, []) := by
  obtain ⟨decoded, rests, empty⟩ := framing_started iterate isClient padding
  have decoded : s.Decoded := Transition.invariant decoded_step decoded path
  have rests : s.Rests := Transition.invariant rests_step rests path
  have parsed : Framing.decodeAll Frame.next s.received =
      (s.handled ++ (Framing.decodeAll Frame.next s.pending).1, (Framing.decodeAll Frame.next s.pending).2) := by
    rw [decoded.bytes]
    exact Framing.decodeAll_encoded Frame.next_lawful
      (fun frame member => Frame.encodes (decoded.encodable frame member)) s.pending
  refine ⟨?_, decoded.bytes, parsed, fun reading => ⟨?_, rests reading, Frame.next_none_length (rests reading)⟩, ?_⟩
  · rw [received_run path, empty, List.nil_append]
  · rw [parsed, Framing.decodeAll_none (rests reading), List.append_nil]
  · intro frames fit
    have encodes : ∀ frame ∈ frames, Framing.Encodes Frame.next Frame.toBytes frame := by
      intro frame member
      obtain ⟨small, known⟩ := fit frame member
      refine Frame.encodes ⟨Nat.lt_succ_of_le small, ?_⟩
      cases command : frame.cmd with
      | unknown value => exact known value command
      | _ => trivial
    have whole := Framing.decodeAll_encoded Frame.next_lawful encodes []
    rw [List.append_nil] at whole
    rw [whole, Framing.decodeAll_nil, List.append_nil]

/-- Two frames in reads of four and twelve bytes, with two bytes of a third. -/
def cutReads : List SessionAction :=
  [SessionAction.receive ((Frame.new .waste 5).toBytes.take 4), .recvStep,
    .receive ((Frame.new .waste 5).toBytes.drop 4 ++ (Frame.withData .waste 6 []).toBytes ++ [0, 0])] ++
    List.replicate 5 SessionAction.recvStep

theorem cutReads_handled : ∃ s, Transition.run (step fun _ => "")
      ((new false plainPadding).ensureStarted AList.entries) cutReads = some s ∧
    s.handled = [Frame.new .waste 5, Frame.new .waste 6] ∧ s.pending = [0, 0] ∧
    Framing.decodeAll Frame.next (cutReads.flatMap SessionAction.chunk) =
      ([Frame.new .waste 5, Frame.new .waste 6], [0, 0]) := by
  have reached : (Transition.run (step fun _ => "") ((new false plainPadding).ensureStarted AList.entries)
      cutReads).any (fun s => decide (s.handled = [Frame.new .waste 5, Frame.new .waste 6] ∧
        s.pending = [0, 0] ∧ s.recv = .reading)) = true := by decide +kernel
  obtain ⟨s, path, reached⟩ := (Option.any_eq_true _ _).mp reached
  obtain ⟨handled, pending, reading⟩ := of_decide_eq_true reached
  obtain ⟨bytes, -, -, rested, -⟩ := incremental_framing path
  rw [← bytes, (rested reading).1, handled, pending]
  exact ⟨s, path, handled, pending, rfl⟩

end Session

end AnyTls

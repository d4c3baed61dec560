import AnyTls.Proxy.Listening
import AnyTls.Proxy.Opening
import AnyTls.Proxy.PushSafety

/-! The sending half of a session. What a stream hands to the frame channel is what was
written to it, in order; what the channel has accepted for a sid is exactly that; and the
connection carries the accepted frames in order, with padding between them. -/
namespace AnyTls

/-- Calls with buffers, messages and padding that fit a frame, by tasks that neither fail
nor drop a read. -/
def SessionAction.modest : SessionAction → Bool
  | .write _ buf => decide (buf.length ≤ 65535)
  | .read _ len => decide (0 < len)
  | .handshakeFailure _ error => decide ((asBytes error).length ≤ 65535)
  | .emit padding => padding.sizes.all fun size => decide (size = CHECK_MARK ∨ 1 ≤ size ∧ size ≤ 65535)
  | .dropRead _ | .disconnect | .writerFails _ _ => false
  | _ => true

/-- The buffer of a write past its check of the closed flag. -/
def WriterPc.inFlight : WriterPc → Bytes
  | .sending buf => buf
  | .opening | .idle | .removing | .announcing _ | .spawning | .finishing => []

/-! ### One stream -/

/-- What a stream has sent, against what was written to it. -/
structure Writes (o : StreamObject) : Prop where
  small : ∀ buf, o.writer = .sending buf → buf.length ≤ 65535
  unopened : o.writer = .opening → o.history.sent = [] ∧ o.history.finSent = false
  current : o.stream.closed = false → o.history.written = o.history.sent ++ o.writer.inFlight
  order : o.history.sent ++ o.writer.inFlight <+: o.history.written
  closing : o.writer.closing = true ∨ o.history.finSent = true →
    o.history.writtenAtClose = some o.history.sent ∧ o.stream.closed = true
  settled : o.history.finSent = true → o.writer = .idle

namespace Writes
variable {s t : Session} {a : SessionAction} {ref : StreamRef} {o before after : StreamObject}

theorem new (sid) {writer} (quiet : writer = .opening ∨ writer = .idle) (born) :
    Writes (StreamObject.new sid writer born) := by
  rcases quiet with rfl | rfl
  · exact ⟨(fun _ => by rintro ⟨⟩), fun _ => ⟨rfl, rfl⟩, fun _ => rfl, List.prefix_refl _, by simp [StreamObject.new, WriterPc.closing],
      (by rintro ⟨⟩)⟩
  · exact ⟨(fun _ => by rintro ⟨⟩), (by rintro ⟨⟩), fun _ => rfl, List.prefix_refl _, by simp [StreamObject.new, WriterPc.closing], (by rintro ⟨⟩)⟩

theorem same (writes : Writes o) (writer : after.writer = o.writer)
    (closed : o.stream.closed = true → after.stream.closed = true)
    (history : (after.history.written, after.history.sent, after.history.writtenAtClose, after.history.finSent) =
      (o.history.written, o.history.sent, o.history.writtenAtClose, o.history.finSent)) : Writes after := by
  simp only [Prod.mk.injEq] at history
  obtain ⟨written, sent, atClose, finSent⟩ := history
  refine ⟨?_, ?_, fun still => ?_, ?_, fun ends => ?_, ?_⟩
  · rw [writer]
    exact writes.small
  · rw [writer, sent, finSent]
    exact writes.unopened
  · rw [writer, sent, written]
    refine writes.current ?_
    cases was : o.stream.closed with
    | false => rfl
    | true => exact absurd still (by simp [closed was])
  · rw [writer, sent, written]
    exact writes.order
  · rw [writer, finSent] at ends
    rw [sent, atClose]
    obtain ⟨all, marked⟩ := writes.closing ends
    exact ⟨all, closed marked⟩
  · rw [writer, finSent]
    exact writes.settled

theorem startWrite (writes : Writes o) (idle : o.writer = .idle) {buf} (small : buf.length ≤ 65535) :
    Writes (o.startWrite buf) := by
  have order := writes.order
  have current := writes.current
  rw [idle, WriterPc.inFlight, List.append_nil] at order current
  cases closed : o.stream.closed with
  | true =>
    have ended := writes.closing
    rw [idle] at ended
    simp only [StreamObject.startWrite, closed, if_true]
    refine ⟨(by simp), (by simp), fun still => ?_, ?_, ended, fun _ => rfl⟩
    · exact absurd (closed.symm.trans still) (by decide)
    · simp only [WriterPc.inFlight, List.append_nil]
      exact order.trans (List.prefix_append ..)
  | false =>
    have unfinished : o.history.finSent ≠ true := fun fin =>
      absurd (closed.symm.trans (writes.closing (.inr fin)).2) Bool.false_ne_true
    simp only [StreamObject.startWrite, closed]
    refine ⟨?_, (by simp), fun _ => ?_, ?_, ?_, fun fin => absurd fin unfinished⟩
    · rintro _ ⟨⟩
      exact small
    · exact congrArg (· ++ buf) (current closed)
    · exact current closed ▸ List.prefix_refl _
    · rintro (closing | fin)
      · cases closing
      · exact absurd fin unfinished

theorem startClose (writes : Writes o) (idle : o.writer = .idle) : Writes o.startClose := by
  unfold StreamObject.startClose
  split_ifs with closed
  · exact writes
  · have current := writes.current (by simpa using closed)
    rw [idle, WriterPc.inFlight, List.append_nil] at current
    refine ⟨nofun, nofun, nofun, ?_, fun _ => ⟨congrArg some current, rfl⟩, fun fin => ?_⟩
    · simp only [WriterPc.inFlight, List.append_nil, current]
      exact List.prefix_refl _
    · exact absurd (writes.closing (.inr fin)).2 closed

/-- A call of `close` goes on. -/
theorem goOn (writes : Writes o) (closing : o.writer.closing = true) (still : after.writer.closing = true)
    (closed : after.stream.closed = o.stream.closed) (history : after.history = o.history) : Writes after := by
  have noBuffer {writer : WriterPc} (closes : writer.closing = true) : writer.inFlight = [] := by
    cases writer with
    | opening | idle | sending buf => cases closes
    | _ => rfl
  obtain ⟨all, marked⟩ := writes.closing (.inl closing)
  refine ⟨fun buf sending => ?_, fun opening => ?_, fun isOpen => ?_, ?_, fun _ => ?_, fun fin => ?_⟩
  · rw [sending] at still
    cases still
  · rw [opening] at still
    cases still
  · exact absurd (marked.symm.trans (closed ▸ isOpen)) (by decide)
  · rw [noBuffer still, history]
    exact noBuffer closing ▸ writes.order
  · rw [history, closed]
    exact ⟨all, marked⟩
  · rw [history] at fin
    rw [writes.settled fin] at closing
    cases closing

theorem change (writes : Writes before) (changed : Change s a t ref before after)
    (alive : s.frameTx.isClosed = false)
    (opening : ∀ i : Nat, s.opens[i]? = some (.syn ref) → before.writer = .opening)
    (modest : a.modest = true) : Writes after := by
  cases changed with
  | same => exact writes
  | opened i placed =>
    have unopened := opening i placed
    have current := writes.current
    have order := writes.order
    have closing := writes.closing
    rw [unopened] at current order closing
    exact ⟨(by simp), (by simp), current, order, closing, fun _ => rfl⟩
  | startWrite buf called idle =>
    subst called
    exact writes.startWrite idle (of_decide_eq_true modest)
  | startClose idle => exact writes.startClose idle
  | sent buf sending =>
    have order := writes.order
    have current := writes.current
    rw [sending] at order current
    have unfinished : before.history.finSent ≠ true := fun fin => nomatch sending.symm.trans (writes.settled fin)
    refine ⟨(by simp), (by simp), fun still => ?_, ?_, ?_, fun _ => rfl⟩
    · simpa [WriterPc.inFlight] using current still
    · simpa [WriterPc.inFlight] using order
    · rintro (closing | fin)
      · cases closing
      · exact absurd fin unfinished
  | refused _ closed => exact absurd (alive.symm.trans closed) Bool.false_ne_true
  | removed isIdle closing => exact writes.goOn (by rw [closing]; rfl) rfl rfl rfl
  | announced isIdle closing => exact writes.goOn (by rw [closing]; rfl) rfl rfl rfl
  | spawned closing => exact writes.goOn (by rw [closing]; rfl) rfl rfl rfl
  | finSent closing =>
    have order := writes.order
    have ended := writes.closing (.inl (by rw [closing]; rfl))
    rw [closing] at order
    refine ⟨(by simp), (by simp), fun still => ?_, order, fun _ => ended, fun _ => rfl⟩
    exact absurd (ended.2.symm.trans still) (by decide)
  | mark cause => exact writes.same rfl (fun _ => rfl) rfl
  | read len pc pipe state | deadline len pc pipe state =>
    obtain ⟨reader, got, eof, firstEnd, same⟩ := before.afterRead_eq len pipe state
    rw [same]
    exact writes.same rfl id rfl
  | _ => exact writes.same rfl id rfl

end Writes

/-- The channel has accepted for the stream's sid what the stream has sent, and nothing
before its SYN. -/
structure Voiced (accepted : List Frame) (o : StreamObject) : Prop where
  payload : ((said o.stream.id accepted).bytes, (said o.stream.id accepted).fin) =
    (o.history.sent, o.history.finSent)
  unopened : o.writer = .opening → said o.stream.id accepted = .nothing

namespace Voiced
variable {s t : Session} {a : SessionAction} {ref : StreamRef} {o before after : StreamObject}
variable {accepted : List Frame}

theorem new {sid} (silent : said sid accepted = .nothing) (writer : WriterPc) (born) :
    Voiced accepted (StreamObject.new sid writer born) := by
  refine ⟨?_, fun _ => silent⟩
  simp [StreamObject.new, Stream.new, silent, Said.nothing]

/-- Another stream's frame, or one that belongs to no stream. -/
theorem other (voiced : Voiced accepted o) {frame}
    (apart : frame.cmd.control = true ∨ frame.sid ≠ o.stream.id) : Voiced (accepted ++ [frame]) o := by
  have unheard : said o.stream.id (accepted ++ [frame]) = said o.stream.id accepted := by
    rw [said_snoc]
    rcases apart with control | different
    · exact Said.hear_control control _
    · exact Said.hear_ne _ different
  exact ⟨unheard ▸ voiced.payload, unheard ▸ voiced.unopened⟩

theorem change (voiced : Voiced s.accepted before) (changed : Change s a t ref before after)
    (same : t.accepted = s.accepted) : Voiced s.accepted after := by
  have grown {P : Prop} {frame : Frame} (more : t.accepted = s.accepted ++ [frame]) : P := by
    simp [same] at more
  cases changed with
  | opened i placed moved more => exact grown more
  | sent buf sending alive more => exact grown more
  | finSent finishing alive more => exact grown more
  | startWrite buf called idle =>
    refine ⟨voiced.payload, fun opening => ?_⟩
    simp only [StreamObject.startWrite] at opening
    split_ifs at opening
  | startClose idle =>
    unfold StreamObject.startClose
    split_ifs
    · exact voiced
    · exact ⟨voiced.payload, (by simp)⟩
  | read len pc pipe state | deadline len pc pipe state =>
    obtain ⟨reader, got, eof, firstEnd, same⟩ := before.afterRead_eq len pipe state
    rw [same]
    exact ⟨voiced.payload, voiced.unopened⟩
  | refused | removed | announced | spawned => exact ⟨voiced.payload, (by simp)⟩
  | _ => exact ⟨voiced.payload, voiced.unopened⟩

end Voiced

/-! ### The connection -/

namespace Session
variable {s t : Session} {a : SessionAction}

/-- The writer task has written the accepted frames but for those it holds back and
those still queued. -/
def Wired (s : Session) : Prop :=
  ∃ ops sent held all, Sent ops s.transcript sent held all ∧
    submitted ops ++ s.frameTx.queue.map (·.frame) = s.accepted ∧
    ∀ op ∈ ops, ∀ size ∈ op.sizes, size ≤ 65535

theorem Wired.apply (wired : s.Wired) {op left} (sizes : ∀ size ∈ op.sizes, size ≤ 65535)
    (written : t.transcript = s.transcript.apply op) (accepted : t.accepted = s.accepted)
    (queue : t.frameTx.queue = left)
    (next : s.frameTx.queue.map (·.frame) = op.frame?.toList ++ left.map (·.frame)) : t.Wired := by
  obtain ⟨ops, sent, held, all, done, frames, small⟩ := wired
  obtain ⟨sent, held, all, now⟩ := sent_apply done op
  refine ⟨ops ++ [op], sent, held, all, written ▸ now, ?_, fun other member => ?_⟩
  · rw [accepted, ← frames, next, queue, submitted, submitted, List.filterMap_append, List.append_assoc]
    cases op <;> rfl
  · rcases List.mem_append.mp member with old | new
    · exact small other old
    · exact List.mem_singleton.mp new ▸ sizes

theorem Wired.step (wired : s.Wired) (out : OutChange s a t) (modest : a.modest = true) : t.Wired := by
  cases out with
  | same accepted queue written =>
    unfold Wired
    rw [accepted, queue, written]
    exact wired
  | send frame ack _ _ accepted queue written =>
    obtain ⟨ops, sent, held, all, done, frames, small⟩ := wired
    refine ⟨ops, sent, held, all, written ▸ done, ?_, small⟩
    rw [accepted, queue, ← frames]
    simp
  | emit next rest padding called queue left accepted written =>
    subst called
    refine wired.apply (fun size drawn => ?_) written accepted (congrArg (·.queue) left)
      (by rw [queue]; rfl)
    have drawn := of_decide_eq_true (List.all_eq_true.mp modest size drawn)
    unfold CHECK_MARK at drawn
    omega
  | fails padding count called =>
    subst called
    cases modest
  | release accepted queue written =>
    exact wired.apply (by simp [WriterOp.sizes]) written accepted (congrArg (·.queue) queue) rfl

/-- What is on the connection are the first of the accepted frames, padded. -/
theorem Wired.carried (wired : s.Wired) (encodable : ∀ frame ∈ s.accepted, frame.Encodable) :
    ∃ sent all, sent <+: s.accepted ∧ Padded sent all ∧
      s.transcript.wire = all.flatMap Frame.toBytes ∧ ∀ frame ∈ all, frame.Encodable := by
  obtain ⟨ops, sent, held, all, done, frames, small⟩ := wired
  have known : ∀ frame ∈ submitted ops, frame.Encodable := fun frame member =>
    encodable frame (frames ▸ List.mem_append_left _ member)
  have early : sent <+: s.accepted := by
    rw [← frames, done.frames, List.append_assoc]
    exact List.prefix_append ..
  refine ⟨sent, all, early, done.padded, done.wire, done.padded.encodable (fun frame member => ?_)
    (done.blocks small fun frame member => (known frame member).fits)⟩
  exact encodable frame (early.subset member)

/-! ### Every run -/

structure Speaking (s : Session) : Prop where
  alive : s.frameTx.isClosed = false
  writes : ∀ (ref : StreamRef) o, s.objects[ref]? = some o → Writes o
  voiced : ∀ (ref : StreamRef) o, s.objects[ref]? = some o → Voiced s.accepted o
  silent : ∀ sid, sid ∉ s.objects.map (·.stream.id) → said sid s.accepted = .nothing
  /-- only a client opens streams, each once -/
  syns : ∀ sid, (said sid s.accepted).syns ≤ s.isClient.toNat
  encodable : ∀ frame ∈ s.accepted, frame.Encodable
  wired : s.Wired

/-- A frame sent: one of no stream, or the next of one stream. -/
inductive Spoken (s t : Session) (frame : Frame) : Prop where
  | control : frame.cmd.control = true → t.objects = s.objects → Spoken s t frame
  | voice (ref o f) : s.objects[ref]? = some o → frame.sid = o.stream.id → t.objects = s.objects.modify ref f →
      Voiced (s.accepted ++ [frame]) (f o) →
      (said frame.sid (s.accepted ++ [frame])).syns ≤ s.isClient.toNat → Spoken s t frame

theorem Speaking.sends (speaking : s.Speaking) (listening : s.Listening)
    (opening : ∀ (i : Nat) ref o, s.opens[i]? = some (.syn ref) → s.objects[ref]? = some o → o.writer = .opening)
    (passive : s.isClient = false → s.opens = []) (modest : a.modest = true) {frame}
    (sends : Sends s a t frame) : frame.Encodable ∧ Spoken s t frame := by
  cases sends with
  | syn i ref o placed _ stored changed =>
    have unopened := opening i ref o placed stored
    have nothing := (speaking.voiced ref o stored).unopened unopened
    obtain ⟨sent, fin⟩ := (speaking.writes ref o stored).unopened unopened
    have heard : said o.stream.id (s.accepted ++ [Frame.new .syn o.stream.id]) = ⟨1, [], false⟩ := by
      rw [said_snoc, nothing, Frame.new, Said.hear_self]
      rfl
    refine ⟨⟨Nat.two_pow_pos 16, trivial⟩, .voice ref o _ stored rfl changed ⟨?_, (by simp)⟩ ?_⟩
    · simp only [heard, sent, fin]
    · have client : s.isClient = true := by
        by_contra server
        rw [passive (by simpa using server)] at placed
        cases placed
      rw [show (Frame.new .syn o.stream.id).sid = o.stream.id from rfl, heard, client]
      exact Nat.le_refl 1
  | psh ref o buf stored sending changed =>
    have writes := speaking.writes ref o stored
    have payload := (speaking.voiced ref o stored).payload
    simp only [Prod.mk.injEq] at payload
    have unfinished : (said o.stream.id s.accepted).fin = false := by
      rw [payload.2]
      by_contra fin
      exact nomatch sending.symm.trans (writes.settled (by simpa using fin))
    have heard : said o.stream.id (s.accepted ++ [Frame.withData .psh o.stream.id buf]) =
        { said o.stream.id s.accepted with bytes := o.history.sent ++ buf } := by
      rw [said_snoc, Frame.withData, Said.hear_self]
      simp [Said.add, unfinished, payload.1]
    refine ⟨⟨Nat.lt_succ_of_le (writes.small buf sending), trivial⟩,
      .voice ref o _ stored rfl changed ⟨?_, (by simp)⟩ ?_⟩
    · simp only [heard, payload.2]
    · rw [show (Frame.withData .psh o.stream.id buf).sid = o.stream.id from rfl, heard]
      exact speaking.syns o.stream.id
  | fin ref o stored finishing changed =>
    have payload := (speaking.voiced ref o stored).payload
    simp only [Prod.mk.injEq] at payload
    have heard : said o.stream.id (s.accepted ++ [Frame.new .fin o.stream.id]) =
        { said o.stream.id s.accepted with fin := true } := by
      rw [said_snoc, Frame.new, Said.hear_self]
      rfl
    refine ⟨⟨Nat.two_pow_pos 16, trivial⟩, .voice ref o _ stored rfl changed ⟨?_, (by simp)⟩ ?_⟩
    · simp only [heard, payload.1]
    · rw [show (Frame.new .fin o.stream.id).sid = o.stream.id from rfl, heard]
      exact speaking.syns o.stream.id
  | synAck ref o error stored source same =>
    refine ⟨⟨?_, trivial⟩, .control rfl same⟩
    cases error with
    | nil => exact Nat.two_pow_pos 16
    | cons byte error =>
      obtain ⟨message, called, text⟩ := source byte List.mem_cons_self
      subst called
      rw [Frame.withData, text]
      exact Nat.lt_succ_of_le (of_decide_eq_true modest)
  | answer action rest frame receiving sent same =>
    have due : Due s.handled action := listening.due _ (by rw [receiving]; rfl) _ List.mem_cons_self
    rcases sent with rfl | rfl | ⟨message, rfl, rfl⟩
    · exact ⟨due.1, .control due.2 same⟩
    · exact ⟨due.1, .control due.2 same⟩
    · exact ⟨⟨due, trivial⟩, .control rfl same⟩

/-- A stream just added has a sid of its own. -/
theorem Evolved.fresh (evolved : s.Evolved a t) (distinct : (t.objects.map (·.stream.id)).Nodup) {o}
    (stored : t.objects[s.objects.length]? = some o) :
    o.stream.id ∉ s.objects.map (·.stream.id) := by
  have placed : (t.objects.map (·.stream.id))[s.objects.length]? = some o.stream.id := by
    rw [List.getElem?_map, stored, Option.map_some]
  rcases evolved.ids with same | ⟨added, -, more⟩
  · rw [same, List.getElem?_eq_none (by simp)] at placed
    cases placed
  · rw [more] at placed distinct
    rw [List.getElem?_append_right (by simp)] at placed
    simp only [List.length_map, Nat.sub_self, List.getElem?_cons_zero, Option.some.injEq] at placed
    intro member
    exact (List.nodup_append.mp distinct).2.2 _ member _ (List.mem_singleton_self _) placed.symm

theorem Evolved.ids_subset (evolved : s.Evolved a t) {sid} (member : sid ∈ s.objects.map (·.stream.id)) :
    sid ∈ t.objects.map (·.stream.id) := by
  rcases evolved.ids with same | ⟨added, -, more⟩
  · rwa [same]
  · rw [more]
    exact List.mem_append_left _ member

theorem Evolved.distinct (evolved : s.Evolved a t) (distinct : (t.objects.map (·.stream.id)).Nodup) :
    (s.objects.map (·.stream.id)).Nodup := by
  rcases evolved.ids with same | ⟨added, -, more⟩
  · rwa [same] at distinct
  · rw [more] at distinct
    exact (List.nodup_append.mp distinct).1

/-- Streams at different places have different sids. -/
theorem sid_ne (distinct : (s.objects.map (·.stream.id)).Nodup) {ref other : StreamRef}
    {o p : StreamObject} (stored : s.objects[ref]? = some o) (found : s.objects[other]? = some p)
    (apart : ref ≠ other) : o.stream.id ≠ p.stream.id := by
  intro same
  have bound : ref < (s.objects.map (·.stream.id)).length := by
    simpa using (List.getElem?_eq_some_iff.mp stored).1
  refine apart ((List.getElem?_inj bound distinct).mp ?_)
  rw [List.getElem?_map, List.getElem?_map, stored, found, Option.map_some, Option.map_some, same]

theorem speaking_step {md5 : Bytes → String} (speaking : s.Speaking) (listening : s.Listening)
    (opening : ∀ (i : Nat) ref o, s.opens[i]? = some (.syn ref) → s.objects[ref]? = some o → o.writer = .opening)
    (passive : s.isClient = false → s.opens = []) (distinct : (t.objects.map (·.stream.id)).Nodup)
    (modest : a.modest = true) (stepped : s.step md5 a = some t) : t.Speaking := by
  have effect := step_effect stepped
  have apart := effect.objects.distinct distinct
  have wired := speaking.wired.step effect.out modest
  have writes : ∀ (ref : StreamRef) o, t.objects[ref]? = some o → Writes o := by
    intro ref after stored
    rcases effect.objects.2 ref after stored with ⟨before, was, change⟩ | ⟨-, created⟩
    · exact (speaking.writes ref before was).change change speaking.alive
        (fun i placed => opening i ref before placed was) modest
    · cases created with
      | incoming sid rest => exact .new sid (.inr rfl) _
      | opened i maxStreams => exact .new _ (.inl rfl) _
  -- a step that sends nothing
  have quiet (alive : t.frameTx.isClosed = false) (accepted : t.accepted = s.accepted) : t.Speaking := by
    refine ⟨alive, writes, fun ref after stored => ?_, fun sid absent => ?_, fun sid => ?_, ?_, wired⟩
    · rw [accepted]
      rcases effect.objects.2 ref after stored with ⟨before, was, change⟩ | ⟨new, created⟩
      · exact (speaking.voiced ref before was).change change accepted
      · subst new
        have silent := speaking.silent _ (effect.objects.fresh distinct stored)
        cases created with
        | incoming sid rest => exact .new silent _ _
        | opened i maxStreams => exact .new silent _ _
    · rw [accepted]
      exact speaking.silent sid fun member => absent (effect.objects.ids_subset member)
    · rw [accepted, role_step stepped]
      exact speaking.syns sid
    · rw [accepted]
      exact speaking.encodable
  cases effect.out with
  | same accepted queue => exact quiet (queue ▸ speaking.alive) accepted
  | emit next rest padding _ _ left accepted => exact quiet (congrArg (·.isClosed) left) accepted
  | release accepted queue => exact quiet (queue ▸ speaking.alive) accepted
  | fails padding count called =>
    subst called
    cases modest
  | send frame ack sends alive accepted queue =>
    obtain ⟨encodable, spoken⟩ := speaking.sends listening opening passive modest sends
    have known : ∀ f ∈ t.accepted, f.Encodable := by
      intro f member
      rw [accepted] at member
      rcases List.mem_append.mp member with old | new
      · exact speaking.encodable f old
      · exact List.mem_singleton.mp new ▸ encodable
    refine ⟨congrArg (·.isClosed) queue, writes, fun ref after stored => ?_, fun sid absent => ?_,
      fun sid => ?_, known, wired⟩
    · rw [accepted]
      cases spoken with
      | control control same =>
        rw [same] at stored
        exact (speaking.voiced ref after stored).other (.inl control)
      | voice target o f found mine changed voiced =>
        rw [changed, List.getElem?_modify] at stored
        obtain ⟨before, was, rfl⟩ := Option.map_eq_some_iff.mp stored
        split_ifs with hit
        · subst hit
          cases found.symm.trans was
          exact voiced
        · exact (speaking.voiced ref before was).other (.inr (mine ▸ sid_ne apart found was hit))
    · have silent := speaking.silent sid fun member => absent (effect.objects.ids_subset member)
      rw [accepted, said_snoc, silent]
      cases spoken with
      | control control => exact Said.hear_control control _
      | voice target o f found mine =>
        refine Said.hear_ne _ fun same => absent (effect.objects.ids_subset ?_)
        rw [← same, mine]
        exact List.mem_map_of_mem (List.mem_of_getElem? found)
    · rw [accepted, role_step stepped]
      cases spoken with
      | control control =>
        rw [said_snoc, Said.hear_control control]
        exact speaking.syns sid
      | voice target o f found mine _ _ syns =>
        by_cases same : frame.sid = sid
        · exact same ▸ syns
        · rw [said_snoc, Said.hear_ne _ same]
          exact speaking.syns sid

/-! ### The numbers of a client's streams -/

/-- A client numbers its streams from 1, and every call that has still to take a number
finds one. -/
structure Numbering (s : Session) : Prop where
  ids : ∀ (ref : StreamRef) o, s.objects[ref]? = some o → o.stream.id.toNat = ref + 1
  counter : s.nextStreamId.toNat = s.objects.length
  calls : s.objects.length + s.opens.countP OpenPc.early ≤ s.opens.length
  bound : s.opens.length < 2 ^ 32
  opening : ∀ (i : Nat) ref o, s.opens[i]? = some (.syn ref) → s.objects[ref]? = some o → o.writer = .opening
  made : ∀ (i : Nat) ref, s.opens[i]? = some (.syn ref) → ref < s.objects.length
  single : ∀ (i j : Nat) ref, s.opens[i]? = some (.syn ref) → s.opens[j]? = some (.syn ref) → i = j

theorem Numbering.distinct (numbering : s.Numbering) : (s.objects.map (·.stream.id)).Nodup := by
  rw [List.nodup_iff_injective_getElem]
  intro i j same
  have first := numbering.ids i _ (List.getElem?_eq_getElem (by simpa using i.isLt))
  have second := numbering.ids j _ (List.getElem?_eq_getElem (by simpa using j.isLt))
  simp only [List.getElem_map] at same
  rw [same] at first
  exact Fin.ext (by omega)

/-- A client makes no stream for a frame of its peer. -/
theorem Listening.created (listening : s.Listening) (client : s.isClient = true) {o}
    (created : Created s a o) : ∃ i, a = .openStep i ∧ o.stream.id = s.nextStreamId + 1 ∧
      s.nextStreamId + 1 ≠ 0 := by
  cases created with
  | incoming sid rest _ receiving =>
    have none := listening.client client
    rw [receiving] at none
    cases none
  | opened i maxStreams called _ _ exhausted => exact ⟨i, called, rfl, exhausted⟩

theorem numbering_step {md5} (numbering : s.Numbering) (listening : s.Listening)
    (client : s.isClient = true) (room : t.opens.length < 2 ^ 32) (stepped : s.step md5 a = some t) :
    t.Numbering := by
  have effect := step_effect stepped
  have succ (left : s.nextStreamId + 1 ≠ 0) : (s.nextStreamId + 1).toNat = s.objects.length + 1 := by
    have small := s.nextStreamId.toNat_lt
    have nonzero : (s.nextStreamId + 1).toNat ≠ 0 := fun zero => left (UInt32.toNat_inj.mp zero)
    rw [← numbering.counter]
    rw [UInt32.toNat_add] at nonzero ⊢
    simp only [UInt32.reduceToNat] at nonzero ⊢
    omega
  have ids : ∀ (ref : StreamRef) o, t.objects[ref]? = some o → o.stream.id.toNat = ref + 1 := by
    intro ref after stored
    rcases effect.objects.2 ref after stored with ⟨before, was, change⟩ | ⟨rfl, created⟩
    · rw [change.id]
      exact numbering.ids ref before was
    · obtain ⟨i, -, id, left⟩ := listening.created client created
      rw [id]
      exact succ left
  have ⟨opening, made, single⟩ := opening_step ⟨numbering.opening, numbering.made, numbering.single⟩ stepped
  suffices count : t.nextStreamId.toNat = t.objects.length ∧
      t.objects.length + t.opens.countP OpenPc.early ≤ t.opens.length from
    ⟨ids, count.1, count.2, room, opening, made, single⟩
  have counter := numbering.counter
  have calls := numbering.calls
  cases effect.opens with
  | same unchanged grown =>
    simp only [Prod.mk.injEq] at unchanged
    have size : t.objects.length = s.objects.length := by
      rcases grown with same | called
      · exact same
      · rcases effect.objects.ids with same | ⟨o, created, -⟩
        · simpa using congrArg List.length same
        · obtain ⟨i, other, -⟩ := listening.created client created
          cases called.symm.trans other
    rw [unchanged.1, unchanged.2, size]
    exact ⟨counter, calls⟩
  | start maxStreams _ more next size =>
    rw [next, size, more, List.countP_append, List.length_append]
    simp only [List.countP_singleton, OpenPc.early, if_true, List.length_singleton]
    omega
  | move i pc next placed moved set =>
    obtain ⟨bound, here⟩ := List.getElem?_eq_some_iff.mp placed
    have counted := List.countP_set (p := OpenPc.early) (a := next) bound
    rw [here, ← set] at counted
    have some_early (early : pc.early = true) : 0 < s.opens.countP OpenPc.early :=
      List.countP_pos_iff.mpr ⟨pc, List.mem_of_getElem? placed, early⟩
    have length : t.opens.length = s.opens.length := by rw [set, List.length_set]
    cases moved with
    | insert maxStreams same size =>
      have one := some_early rfl
      simp only [OpenPc.early, if_true] at counted
      rw [same, size, length]
      omega
    | created maxStreams o _ _ left same objects =>
      have one := some_early rfl
      simp only [OpenPc.early, if_true, Bool.false_eq_true, if_false] at counted
      rw [same, succ left, objects, length, List.length_append, List.length_singleton]
      omega
    | exhausted maxStreams error none =>
      have one := some_early rfl
      have zero : (s.nextStreamId + 1).toNat = 0 := by rw [none]; rfl
      rw [UInt32.toNat_add, counter] at zero
      have few := numbering.bound
      simp only [UInt32.reduceToNat] at zero
      omega
    | later _ _ _ late same size =>
      rw [late] at counted
      simp only [Bool.false_eq_true, if_false] at counted
      rw [same, size, length]
      omega

end Session

end AnyTls

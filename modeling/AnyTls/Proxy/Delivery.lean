import AnyTls.Proxy.Duplex

/-! What a stream's reader gets at one end of a connection is what was written at the other end
of the same sid: all of it over a connection that is reliable, and a part that comes first over
one that fails. -/
namespace AnyTls
namespace Duplex
variable {d : Duplex} {side : Side} {ref : StreamRef} {o : StreamObject}

/-- A run of one end in which it receives nothing is a run of the pair. -/
theorem run_end {md5 actions t} (path : Transition.run (Session.step md5) (d.session side) actions = some t)
    (internal : ∀ action ∈ actions, ∀ chunk, action ≠ .receive chunk) :
    Transition.run (step md5) d (actions.map (.act side)) = some (d.set t side) := by
  induction actions generalizing d with
  | nil =>
    cases path
    rw [set_session]
    rfl
  | cons action rest ih =>
    obtain ⟨u, stepped, path⟩ := Transition.run_cons_some.mp path
    refine Transition.run_cons_some.mpr ⟨d.set u side, ?_, ?_⟩
    · rw [step_act md5 (internal action List.mem_cons_self), stepped]
      rfl
    · rw [← set_set d u t side]
      exact ih (by rwa [session_set_self]) fun a member => internal a (List.mem_cons_of_mem _ member)

theorem modest_fitting {a} (modest : Duplex.modest a = true) : Duplex.fitting a = true := by
  cases a with
  | deliver side count => rfl
  | act side action =>
    cases action with
    | disconnect | writerFails => cases modest
    | _ => exact modest

theorem linked_run {md5 iterate} (shuffles : ∀ map, (iterate map).Perm map.entries) {client server}
    (digest : (asBytes client.md5).length ≤ 32) (scheme : server.rawScheme.length ≤ 65535) {actions}
    (allowed : Transition.Along (step md5) (fun d a => d.opens a = true ∧ fitting a = true)
      (start iterate client server) actions)
    (path : Transition.run (step md5) (start iterate client server) actions = some d) : d.Linked :=
  Transition.invariant_along linked_step (linked_start shuffles digest scheme) allowed path

/-- Reading goes on to the end, in a run of the reader alone. -/
theorem Linked.readable (linked : d.Linked) (md5 : Bytes → String) {len} (room : 0 < len)
    (stored : (d.session side).objects[ref]? = some o) (closed : o.history.cause = some .peerFin)
    (processed : ∀ error, (d.session side).recv.finishing ≠ some (ref, error)) :
    ∃ actions e after, Transition.run (step md5) d actions = some e ∧
      (e.session side).objects[ref]? = some after ∧ after.history.eof = true ∧
      after.history.got = o.history.pushed ∧
      ∀ a ∈ actions, a = .act side (.read ref len) ∨ a = .act side (.readStep ref) := by
  have receives := linked.receives side
  obtain ⟨stage, drains, arrived⟩ := (receives.draining.ending ref o stored).draining (by rw [closed]; decide)
  have finished : stage = .queued none ∨ stage = .ended none := by
    cases stage with
    | flowing =>
      obtain ⟨error, finishing⟩ := arrived.pending rfl (.inl closed)
      exact absurd finishing (processed error)
    | queued error =>
      obtain ⟨cause, known, ends⟩ := arrived.error error (.inl rfl)
      cases closed.symm.trans known
      exact .inl (congrArg Stage.queued ends)
    | ended error =>
      obtain ⟨cause, known, ends⟩ := arrived.error error (.inr rfl)
      cases closed.symm.trans known
      exact .inr (congrArg Stage.ended ends)
  obtain ⟨actions, t, after, path, here, eof, got, only⟩ := Session.reads_to_end md5 room stored
    (receives.draining.ordered ref o stored) drains finished (receives.rooms ref o stored)
  refine ⟨actions.map (.act side), d.set t side, after, ?_, by rwa [session_set_self], eof, got, ?_⟩
  · refine run_end path fun a member chunk same => ?_
    rcases only a member with rfl | rfl
    · cases same
    · cases same
  · intro a member
    obtain ⟨b, listed, rfl⟩ := List.mem_map.mp member
    rcases only b listed with rfl | rfl
    · exact .inl rfl
    · exact .inr rfl

/-- End-to-end delivery. In every run in which the server's padding scheme and the error
messages of SynAcks fit a frame, what reads have returned at one end of a sid comes first
in what was written at the other end, at every point. A stream that the peer's FIN has
closed ends after exactly what was written before the peer's `close`: so it does when a
read has returned `Ok(0)`, and once the FIN has been processed a reader that goes on gets
there, whatever its buffers. -/
theorem stream_delivery (md5 : Bytes → String) {iterate : StringMap.Order}
    (shuffles : ∀ map, (iterate map).Perm map.entries) {client server : PaddingFactory}
    (digest : (asBytes client.md5).length ≤ 32) (scheme : server.rawScheme.length ≤ 65535)
    {actions : List DuplexAction} {d : Duplex}
    (allowed : Transition.Along (step md5) (fun d a => d.opens a = true ∧ modest a = true)
      (start iterate client server) actions)
    (path : Transition.run (step md5) (start iterate client server) actions = some d)
    {side : Side} {ref : StreamRef} {o : StreamObject} (stored : (d.session side).objects[ref]? = some o) :
    (∀ (other : StreamRef) p, (d.session side.other).objects[other]? = some p → p.stream.id = o.stream.id →
      o.history.got <+: p.history.written) ∧
    (o.stream.id ∉ (d.session side.other).objects.map (·.stream.id) → o.history.got = []) ∧
    (o.history.cause = some .peerFin → ∃ (other : StreamRef) (p : StreamObject) (all : Bytes),
      (d.session side.other).objects[other]? = some p ∧ p.stream.id = o.stream.id ∧
      p.history.writtenAtClose = some all ∧ (o.history.eof = true → o.history.got = all) ∧
      ((∀ error, (d.session side).recv.finishing ≠ some (ref, error)) → ∀ len, 0 < len →
        ∃ reads e after, Transition.run (step md5) d reads = some e ∧
          (e.session side).objects[ref]? = some after ∧ after.history.eof = true ∧ after.history.got = all ∧
          ∀ a ∈ reads, a = .act side (.read ref len) ∨ a = .act side (.readStep ref))) := by
  have linked : d.Linked := linked_run shuffles digest scheme
    (allowed.mono fun _ _ both => ⟨both.1, modest_fitting both.2⟩) path
  refine ⟨fun other p placed id => linked.got_written stored placed id, linked.got_unknown stored,
    fun closed => ?_⟩
  obtain ⟨other, p, placed, id, written⟩ := linked.closed_by_peer stored closed
  exact ⟨other, p, o.history.pushed, placed, id, written, linked.got_all stored closed,
    fun processed len room => linked.readable md5 room stored closed processed⟩

/-- A client that opens a stream, writes to it and closes it. -/
def clientCalls : List SessionAction :=
  [SessionAction.openStream 8, .openStep 0, .openStep 0, .openStep 0, .write 0 [1, 2, 3], .writeStep 0,
    .close 0, .writeStep 0, .writeStep 0, .writeStep 0, .writeStep 0] ++ List.replicate 4 (SessionAction.emit ⟨0, []⟩)

/-- The server handles the four frames of the client and reads two bytes at a time. -/
def serverCalls : List SessionAction :=
  List.replicate 2 SessionAction.recvStep ++ [SessionAction.emit ⟨0, []⟩] ++ List.replicate 19 SessionAction.recvStep ++
    [SessionAction.read 0 2, .readStep 0, .readStep 0, .readStep 0, .readStep 0, .read 0 2, .readStep 0,
      .read 0 2, .readStep 0, .readStep 0, .readStep 0, .readStep 0]

def oneStream : List DuplexAction :=
  clientCalls.map (DuplexAction.act .client) ++ [DuplexAction.deliver .server 1000] ++
    serverCalls.map (DuplexAction.act .server)

theorem oneStream_delivered : ∃ d o, Transition.run (step fun _ => "") (start AList.entries Session.plainPadding
      Session.plainPadding) oneStream = some d ∧ d.server.objects[0]? = some o ∧
    o.history.cause = some .peerFin ∧ o.history.eof = true ∧
    ∃ (other : StreamRef) (p : StreamObject) (all : Bytes), d.client.objects[other]? = some p ∧
      p.stream.id = o.stream.id ∧ p.history.writtenAtClose = some all ∧ o.history.got = all := by
  have reached : (Transition.run (step fun _ => "") (start AList.entries Session.plainPadding Session.plainPadding)
      oneStream).any (fun d : Duplex => d.server.objects[0]?.any fun o : StreamObject =>
        decide (o.history.cause = some .peerFin) && o.history.eof) = true := by
    decide +kernel
  obtain ⟨d, path, reached⟩ := (Option.any_eq_true _ _).mp reached
  obtain ⟨o, stored, ended⟩ := (Option.any_eq_true _ _).mp reached
  simp only [Bool.and_eq_true, decide_eq_true_eq] at ended
  have atServer : (d.session .server).objects[0]? = some o := stored
  obtain ⟨other, p, all, placed, id, written, got, -⟩ := (stream_delivery (fun _ => "") (fun _ => .refl _)
    (by decide) (by decide) (by decide +kernel) path atServer).2.2 ended.1
  exact ⟨d, o, path, stored, ended.1, ended.2, other, p, all, placed, id, written, got ended.2⟩

/-- Delivery over a connection that may fail, in the middle of a frame or between two, on
either side and at any time. What reads have returned at one end of a sid comes first in what
was written at the other end; on a sid the other end has no stream for, nothing is read; and
when the peer's FIN has closed a stream and a read has returned `Ok(0)`, the reads have
returned exactly what was written before the peer's `close`. -/
theorem failing_delivery (md5 : Bytes → String) {iterate : StringMap.Order}
    (shuffles : ∀ map, (iterate map).Perm map.entries) {client server : PaddingFactory}
    (digest : (asBytes client.md5).length ≤ 32) (scheme : server.rawScheme.length ≤ 65535)
    {actions : List DuplexAction} {d : Duplex}
    (allowed : Transition.Along (step md5) (fun d a => d.opens a = true ∧ fitting a = true)
      (start iterate client server) actions)
    (path : Transition.run (step md5) (start iterate client server) actions = some d)
    {side : Side} {ref : StreamRef} {o : StreamObject} (stored : (d.session side).objects[ref]? = some o) :
    (∀ (other : StreamRef) p, (d.session side.other).objects[other]? = some p → p.stream.id = o.stream.id →
      o.history.got <+: p.history.written) ∧
    (o.stream.id ∉ (d.session side.other).objects.map (·.stream.id) → o.history.got = []) ∧
    (o.history.cause = some .peerFin → o.history.eof = true → ∃ (other : StreamRef) (p : StreamObject),
      (d.session side.other).objects[other]? = some p ∧ p.stream.id = o.stream.id ∧
      p.history.writtenAtClose = some o.history.got) := by
  have linked := linked_run shuffles digest scheme allowed path
  refine ⟨fun other p placed id => linked.got_written stored placed id, linked.got_unknown stored,
    fun closed eof => ?_⟩
  obtain ⟨other, p, placed, id, written⟩ := linked.closed_by_peer stored closed
  exact ⟨other, p, placed, id, by rw [linked.got_all stored closed eof]; exact written⟩

/-- The client's writer stops in the middle of the payload it sends second, and the server
loses the connection after what has come. -/
def brokenStream : List DuplexAction :=
  ([SessionAction.openStream 8, .openStep 0, .openStep 0, .openStep 0, .write 0 [1, 2, 3], .writeStep 0,
      .write 0 [4, 5], .writeStep 0] ++ List.replicate 3 (SessionAction.emit ⟨0, []⟩) ++
      [SessionAction.writerFails ⟨0, []⟩ 8, .write 0 [6], .writeStep 0]).map (DuplexAction.act .client) ++
    [DuplexAction.deliver .server 1000] ++
    (List.replicate 2 SessionAction.recvStep ++ [SessionAction.emit ⟨0, []⟩] ++
      List.replicate 13 SessionAction.recvStep ++ [SessionAction.disconnect, .recvStep, .endStep, .endStep, .endStep,
        .read 0 2, .readStep 0, .readStep 0, .readStep 0, .readStep 0]).map (DuplexAction.act .server)

theorem brokenStream_delivered : ∃ (d : Duplex) (o p : StreamObject),
    Transition.run (step fun _ => "") (start AList.entries Session.plainPadding Session.plainPadding)
      brokenStream = some d ∧ d.client.frameTx.isClosed = true ∧ d.server.recv = .ended ∧
    d.server.objects[0]? = some o ∧ d.client.objects[0]? = some p ∧ o.history.got = [1, 2] ∧
    o.history.got <+: p.history.written := by
  have reached : (Transition.run (step fun _ => "") (start AList.entries Session.plainPadding Session.plainPadding)
      brokenStream).any (fun d : Duplex => d.client.frameTx.isClosed && decide (d.server.recv = .ended) &&
        d.server.objects[0]?.any fun o : StreamObject => d.client.objects[0]?.any fun p : StreamObject =>
          decide (o.history.got = [1, 2]) && decide (p.stream.id = o.stream.id)) = true := by
    decide +kernel
  obtain ⟨d, path, reached⟩ := (Option.any_eq_true _ _).mp reached
  simp only [Bool.and_eq_true, decide_eq_true_eq] at reached
  obtain ⟨⟨failed, ended⟩, reached⟩ := reached
  obtain ⟨o, stored, reached⟩ := (Option.any_eq_true _ _).mp reached
  obtain ⟨p, placed, reached⟩ := (Option.any_eq_true _ _).mp reached
  simp only [Bool.and_eq_true, decide_eq_true_eq] at reached
  have atServer : (d.session .server).objects[0]? = some o := stored
  have delivered := (failing_delivery (fun _ => "") (fun _ => .refl _) (by decide) (by decide) (by decide +kernel)
    path atServer).1 0 p placed reached.2
  exact ⟨d, o, p, path, failed, ended, stored, placed, reached.1, delivered⟩

end Duplex

end AnyTls

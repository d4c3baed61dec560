import AnyTls.Proxy.Draining
import AnyTls.Proxy.Hearing
import AnyTls.Proxy.Speaking

/-! A client session and a server session joined by a connection that delivers the bytes of
each in order, in pieces of any size, and that may fail: at any time and on either side the
writer task may stop in the middle of a record and the receive loop may lose the connection.
What a session with a failed writer has said is compared with the session it would be had its
last write gone through. -/
namespace AnyTls

inductive Side where
  | client | server
deriving DecidableEq, Repr

namespace Side

def other : Side → Side
  | .client => .server
  | .server => .client

def isClient : Side → Bool
  | .client => true
  | .server => false

theorem other_other (side : Side) : side.other.other = side := by
  cases side <;> rfl

theorem eq_or_other (side which : Side) : which = side ∨ which = side.other := by
  cases side <;> cases which <;> decide

end Side

structure Duplex where
  client : Session
  server : Session

inductive DuplexAction where
  | act (side : Side) (action : SessionAction)
  /-- the next bytes of the connection, at most so many, reach this side -/
  | deliver (side : Side) (count : Nat)

namespace Duplex

def session (d : Duplex) : Side → Session
  | .client => d.client
  | .server => d.server

def set (d : Duplex) (s : Session) : Side → Duplex
  | .client => { d with client := s }
  | .server => { d with server := s }

def start (iterate : StringMap.Order) (client server : PaddingFactory) :
    Duplex :=
  ⟨(Session.new true client).ensureStarted iterate, (Session.new false server).ensureStarted iterate⟩

/-- What is on its way to a side. -/
def inTransit (d : Duplex) (side : Side) : Bytes :=
  (d.session side.other).transcript.wire.drop (d.session side).received.length

def step (md5 : Bytes → String) (d : Duplex) : DuplexAction → Option Duplex
  | .act _ (.receive _) => none
  | .act side action => ((d.session side).step md5 action).map (d.set · side)
  | .deliver side count =>
    ((d.session side).step md5 (.receive ((d.inTransit side).take count))).map (d.set · side)

/-- Fewer than 2^32 streams are opened, by the client. -/
def opens (d : Duplex) : DuplexAction → Bool
  | .act side (.openStream _) => side.isClient && decide (d.client.opens.length + 1 < 2 ^ 32)
  | _ => true

def modest : DuplexAction → Bool
  | .act _ action => action.modest
  | .deliver _ _ => true

@[simp] theorem session_set_self (d : Duplex) (side : Side) (s : Session) : (d.set s side).session side = s := by
  cases side <;> rfl

theorem set_session (d : Duplex) (side : Side) : d.set (d.session side) side = d := by
  cases side <;> rfl

theorem set_set (d : Duplex) (s t : Session) (side : Side) : (d.set s side).set t side = d.set t side := by
  cases side <;> rfl

@[simp] theorem session_set_other (d : Duplex) (side : Side) (s : Session) :
    (d.set s side).session side.other = d.session side.other := by
  cases side <;> rfl

end Duplex

/-- Calls with buffers, messages and padding that fit a frame, by tasks that drop no read,
over a connection that may fail. -/
def SessionAction.fitting : SessionAction → Bool
  | .disconnect => true
  | .writerFails padding _ => (SessionAction.emit padding).modest
  | action => action.modest

/-- A fitting action is a modest one, or the connection fails. -/
theorem SessionAction.fitting_cases {a : SessionAction} (fitting : a.fitting = true) :
    a.modest = true ∨ a = .disconnect ∨
    ∃ padding count, a = .writerFails padding count ∧ (SessionAction.emit padding).modest = true := by
  cases a with
  | disconnect => exact .inr (.inl rfl)
  | writerFails padding count => exact .inr (.inr ⟨padding, count, rfl, fitting⟩)
  | _ => exact .inl fitting

/-- A stream and what it is later: it keeps its sid and what was written to it, and once
closed it stays as `close` left it. -/
structure StreamObject.Lasts (o later : StreamObject) : Prop where
  id : later.stream.id = o.stream.id
  written : o.history.written <+: later.history.written
  closed : o.stream.closed = true →
    later.stream.closed = true ∧ later.history.writtenAtClose = o.history.writtenAtClose

namespace StreamObject.Lasts
variable {o middle later : StreamObject}

theorem refl (o : StreamObject) : o.Lasts o := ⟨rfl, List.prefix_refl _, fun closed => ⟨closed, rfl⟩⟩

theorem trans (first : o.Lasts middle) (second : middle.Lasts later) : o.Lasts later := by
  refine ⟨second.id.trans first.id, first.written.trans second.written, fun closed => ?_⟩
  obtain ⟨still, same⟩ := first.closed closed
  obtain ⟨stays, unchanged⟩ := second.closed still
  exact ⟨stays, unchanged.trans same⟩

end StreamObject.Lasts

theorem Change.lasts {s t a ref before after} (changed : Change s a t ref before after) : before.Lasts after := by
  refine ⟨changed.id, ?_, fun closed => ⟨changed.closed_stays closed, ?_⟩⟩
  · cases changed with
    | startWrite buf => exact List.prefix_append ..
    | startClose =>
      unfold StreamObject.startClose
      split_ifs
      · exact List.prefix_refl _
      · exact List.prefix_refl _
    | read len pc pipe state | deadline len pc pipe state =>
      obtain ⟨reader, got, eof, firstEnd, same⟩ := before.afterRead_eq len pipe state
      exact same ▸ List.prefix_refl _
    | _ => exact List.prefix_refl _
  · cases changed with
    | startClose => simp [StreamObject.startClose, closed]
    | read len pc pipe state | deadline len pc pipe state =>
      obtain ⟨reader, got, eof, firstEnd, same⟩ := before.afterRead_eq len pipe state
      rw [same]
    | _ => rfl

namespace Session
variable {s t p q r : Session} {a : SessionAction}

/-- What an end has handled is what a part of its peer's frames says. -/
theorem handled_said (listening : s.Listening) (speaking : p.Speaking)
    (wire : s.received <+: p.transcript.wire) :
    ∃ spoken, spoken <+: p.accepted ∧ ∀ sid, said sid s.handled = said sid spoken := by
  obtain ⟨sent, all, early, padded, written, encodable⟩ := speaking.wired.carried speaking.encodable
  obtain ⟨more, whole⟩ := wire
  rw [listening.decoded, written] at whole
  have first : s.handled <+: all := Framing.encoded_prefix Frame.next_lawful
    (fun f member => Frame.encodes (listening.encodable f member))
    (fun f member => Frame.encodes (encodable f member)) whole
  obtain ⟨spoken, part, same⟩ := padded.part first
  exact ⟨spoken, part.trans early, same⟩

theorem handled_syns (listening : s.Listening) (speaking : p.Speaking)
    (wire : s.received <+: p.transcript.wire) (sid) :
    (said sid s.handled).syns ≤ p.isClient.toNat := by
  obtain ⟨spoken, part, same⟩ := handled_said listening speaking wire
  rw [same]
  exact (said_syns_le part).trans (speaking.syns sid)

/-- Every stream of a server is one that its client has made. -/
theorem known_sid (listening : s.Listening) (accounts : s.Accounts) (speaking : p.Speaking)
    (server : s.isClient = false) (wire : s.received <+: p.transcript.wire) {sid}
    (member : sid ∈ s.objects.map (·.stream.id)) :
    sid ∈ p.objects.map (·.stream.id) ∧ 1 ≤ (said sid s.handled).syns := by
  have counted := accounts server sid
  have one := List.count_pos_iff.mpr member
  obtain ⟨spoken, part, same⟩ := handled_said listening speaking wire
  refine ⟨?_, by omega⟩
  by_contra absent
  have more : (said sid spoken).syns ≤ (said sid p.accepted).syns := said_syns_le part
  rw [speaking.silent sid absent, Said.nothing] at more
  rw [same] at counted
  simp only at more
  omega

theorem distinct_sids (listening : s.Listening) (accounts : s.Accounts)
    (numbering : s.isClient = true → s.Numbering) (speaking : p.Speaking) (roles : p.isClient = !s.isClient)
    (wire : s.received <+: p.transcript.wire) : (s.objects.map (·.stream.id)).Nodup := by
  cases role : s.isClient with
  | true => exact (numbering role).distinct
  | false =>
    rw [List.nodup_iff_count_le_one]
    intro sid
    have counted := accounts role sid
    have few := handled_syns listening speaking wire sid
    rw [roles, role] at few
    simp only [Bool.not_false, Bool.toNat_true] at few
    omega

theorem received_step {md5} (stepped : s.step md5 a = some t) :
    (∃ chunk, a = .receive chunk ∧ t.received = s.received ++ chunk) ∨ t.received = s.received := by
  cases step_move stepped with
  | receives => exact .inl ⟨_, rfl, rfl⟩
  | _ => exact .inr rfl

theorem rooms_change {ref before after} (changed : Change s a t ref before after) (modest : a.modest = true)
    (room : ∀ len pc, before.reader = .reading len pc → 0 < len) :
    ∀ len pc, after.reader = .reading len pc → 0 < len := by
  cases changed with
  | startRead len called =>
    subst called
    rintro _ _ ⟨⟩
    exact of_decide_eq_true modest
  | startClose =>
    unfold StreamObject.startClose
    split_ifs
    · exact room
    · exact room
  | read len pc pipe state reading | deadline len pc pipe state _ reading =>
    unfold StreamObject.afterRead
    split
    · rintro _ _ ⟨⟩
      exact room len pc reading
    · nofun
    · nofun
  | dropRead => nofun
  | _ => exact room

/-- The calls of `open_stream` that a step starts. -/
def Opens (s : Session) (a : SessionAction) : Prop :=
  ∀ maxStreams, a = .openStream maxStreams → s.isClient = true ∧ s.opens.length + 1 < 2 ^ 32

/-- A writer that fails leaves a part of what it would have written. -/
theorem writerFails_cases {md5 padding count} (stepped : s.step md5 (.writerFails padding count) = some t) :
    ∃ e, s.step md5 (.emit padding) = some e ∧ e.accepted = s.accepted ∧ e.objects = s.objects ∧
      t.accepted = s.accepted ∧ t.objects = s.objects ∧ t.transcript.wire <+: e.transcript.wire ∧
      t.frameTx.isClosed = true := by
  simp only [Session.step] at stepped ⊢
  split at stepped
  · cases stepped
    refine ⟨_, rfl, rfl, rfl, rfl, rfl, ?_, rfl⟩
    exact (List.prefix_append_right_inj _).mpr (List.take_prefix _ _)
  · cases stepped

/-- The connection fails without a change of the streams. -/
theorem failing_objects {md5} (failing : a = .disconnect ∨ ∃ padding count, a = .writerFails padding count)
    (stepped : s.step md5 a = some t) : t.objects = s.objects := by
  rcases failing with rfl | ⟨padding, count, rfl⟩
  · simp only [Session.step] at stepped
    split_ifs at stepped
    cases stepped
    rfl
  · obtain ⟨e, -, -, -, -, same, -⟩ := writerFails_cases stepped
    exact same

/-- What is on the connection stays there. -/
theorem wire_kept {md5} (stepped : s.step md5 a = some t) :
    s.transcript.wire <+: t.transcript.wire := by
  cases (step_effect stepped).out with
  | same _ _ written => exact written ▸ List.prefix_refl _
  | send frame ack _ _ _ _ written => exact written ▸ List.prefix_refl _
  | emit next rest padding _ _ _ _ written => exact written ▸ List.prefix_append ..
  | fails padding count called =>
    subst called
    simp only [Session.step] at stepped
    split at stepped
    · cases stepped
      exact List.prefix_append ..
    · cases stepped
  | release _ _ written => exact written ▸ List.prefix_refl _

/-! ### What one end receives -/

/-- All that holds of one end of the connection in itself, but for what it sends. -/
structure Receives (s : Session) : Prop where
  safe : PushSafe s
  listening : s.Listening
  accounts : s.Accounts
  hearing : s.Hearing
  draining : s.Draining
  rooms : ∀ (ref : StreamRef) o, s.objects[ref]? = some o → ∀ len pc, o.reader = .reading len pc → 0 < len
  passive : s.isClient = false → s.opens = []
  numbering : s.isClient = true → s.Numbering

/-- What a session has said, in the words of one whose writer has not failed. -/
structure Echo (s q : Session) : Prop where
  speaking : q.Speaking
  role : q.isClient = s.isClient
  accepted : q.accepted = s.accepted
  wire : s.transcript.wire <+: q.transcript.wire
  objects : ∀ (ref : StreamRef) o, q.objects[ref]? = some o →
    ∃ later, s.objects[ref]? = some later ∧ o.Lasts later
  alive : s.frameTx.isClosed = false → q = s

theorem Speaking.echo (speaking : s.Speaking) : s.Echo s :=
  ⟨speaking, rfl, rfl, List.prefix_refl _, fun _ o stored => ⟨o, stored, .refl o⟩, fun _ => rfl⟩

theorem Echo.ids_subset (echo : s.Echo q) {sid} (member : sid ∈ q.objects.map (·.stream.id)) :
    sid ∈ s.objects.map (·.stream.id) := by
  obtain ⟨o, stored, rfl⟩ := List.mem_map.mp member
  obtain ⟨ref, placed⟩ := List.mem_iff_getElem?.mp stored
  obtain ⟨later, found, lasts⟩ := echo.objects ref o placed
  exact lasts.id ▸ List.mem_map_of_mem (List.mem_of_getElem? found)

theorem Receives.opens_step {md5} (receives : s.Receives) (opens : s.Opens a)
    (stepped : s.step md5 a = some t) :
    (s.isClient = false → t.opens = []) ∧ (s.isClient = true → t.opens.length < 2 ^ 32) := by
  cases (step_effect stepped).opens with
  | same unchanged =>
    rw [(Prod.mk.inj unchanged).1]
    exact ⟨receives.passive, fun client => (receives.numbering client).bound⟩
  | start maxStreams called more =>
    obtain ⟨client, few⟩ := opens maxStreams called
    refine ⟨fun server => ?_, fun _ => ?_⟩
    · cases server.symm.trans client
    · rw [more, List.length_append]
      exact few
  | move i pc next placed _ set =>
    rw [set]
    refine ⟨fun server => ?_, fun client => ?_⟩
    · rw [receives.passive server] at placed
      cases placed
    · rw [List.length_set]
      exact (receives.numbering client).bound

theorem Receives.client (receives : s.Receives) {i : Nat} {pc : OpenPc} (placed : s.opens[i]? = some pc) :
    s.isClient = true := by
  by_contra server
  rw [receives.passive (by simpa using server)] at placed
  cases placed

/-- The number a client gives to its next stream is that of none of its streams. -/
theorem Numbering.next_unused (numbering : s.Numbering) (left : s.nextStreamId + 1 ≠ 0) :
    s.nextStreamId + 1 ∉ s.objects.map (·.stream.id) := by
  intro member
  obtain ⟨old, stored, same⟩ := List.mem_map.mp member
  obtain ⟨ref, placed⟩ := List.mem_iff_getElem?.mp stored
  have bound : ref < s.objects.length := (List.getElem?_eq_some_iff.mp placed).1
  have first := numbering.ids ref old placed
  have counter := numbering.counter
  have nonzero : (s.nextStreamId + 1).toNat ≠ 0 := fun zero => left (UInt32.toNat_inj.mp zero)
  have small := s.nextStreamId.toNat_lt
  rw [same, UInt32.toNat_add] at first
  rw [UInt32.toNat_add] at nonzero
  simp only [UInt32.reduceToNat] at first nonzero
  omega

section
variable (receives : s.Receives) (peer : p.Receives) (mine : s.Echo q) (theirs : p.Echo r)
  (roles : p.isClient = !s.isClient) (wire : s.received <+: p.transcript.wire)
include receives peer mine theirs roles wire

omit peer mine in
theorem Receives.distinct : (s.objects.map (·.stream.id)).Nodup := by
  refine distinct_sids receives.listening receives.accounts receives.numbering theirs.speaking ?_
    (wire.trans theirs.wire)
  rw [theirs.role, roles]

/-- The peer has said nothing on the sid of a stream that a client is about to make. -/
theorem Receives.fresh_sid (back : p.received <+: s.transcript.wire) (other : a ≠ .recvStep) {o : StreamObject}
    (created : Created s a o) : (said o.stream.id s.handled).Fresh := by
  have client : s.isClient = true := by
    cases created with
    | incoming sid rest called => exact absurd called other
    | opened i maxStreams _ placed => exact receives.client placed
  have server : p.isClient = false := by simpa [client] using roles
  obtain ⟨i, -, number, left⟩ := receives.listening.created client created
  have unused : o.stream.id ∉ r.objects.map (·.stream.id) := by
    intro member
    have known := (known_sid peer.listening peer.accounts mine.speaking server (back.trans mine.wire)
      (theirs.ids_subset member)).1
    rw [number] at known
    exact (receives.numbering client).next_unused left (mine.ids_subset known)
  obtain ⟨spoken, part, same⟩ := handled_said receives.listening theirs.speaking (wire.trans theirs.wire)
  have silent := theirs.speaking.silent _ unused
  rw [same]
  refine Said.Extends.fresh (said_extends part ?_) ?_
  · rw [silent]
    exact Nat.zero_le _
  · rw [silent]
    exact ⟨rfl, rfl⟩

omit peer mine in
/-- No further SYN comes for the sid of a stream. -/
theorem Receives.syn_once (arrived : t.received <+: p.transcript.wire) (listening : t.Listening) {ref : StreamRef}
    {o : StreamObject} (stored : s.objects[ref]? = some o) :
    (said o.stream.id t.handled).syns ≤ (said o.stream.id s.handled).syns := by
  have few := handled_syns listening theirs.speaking (arrived.trans theirs.wire) o.stream.id
  rw [theirs.role, roles] at few
  cases client : s.isClient with
  | true =>
    rw [client] at few
    simp only [Bool.not_true, Bool.toNat_false] at few
    omega
  | false =>
    rw [client] at few
    have member : o.stream.id ∈ s.objects.map (·.stream.id) := List.mem_map_of_mem (List.mem_of_getElem? stored)
    have some_ := (known_sid receives.listening receives.accounts theirs.speaking client
      (wire.trans theirs.wire) member).2
    simp only [Bool.not_false, Bool.toNat_true] at few
    omega

theorem receives_step {md5 : Bytes → String} (back : p.received <+: s.transcript.wire)
    (arrived : t.received <+: p.transcript.wire) (fitting : a.fitting = true) (opens : s.Opens a)
    (stepped : s.step md5 a = some t) : t.Receives := by
  have effect := step_effect stepped
  have role := role_step stepped
  have opened := receives.opens_step opens stepped
  have notDropped : ∀ ref, a ≠ .dropRead ref := by
    rintro ref rfl
    cases fitting
  obtain ⟨listening, accounts⟩ := listening_step ⟨receives.listening, receives.accounts⟩ receives.passive stepped
  have fresh (other : a ≠ .recvStep) (o : StreamObject) (created : Created s a o) :=
    receives.fresh_sid peer mine theirs roles wire back other created
  have once (ref : StreamRef) (o : StreamObject) (stored : s.objects[ref]? = some o) :=
    receives.syn_once theirs roles wire arrived listening stored
  refine ⟨?_, listening, accounts, hearing_step receives.hearing receives.safe receives.listening fresh once stepped,
    ?_, ?_, fun server => opened.1 (role ▸ server), fun client => ?_⟩
  · refine pushSafe_step receives.safe ?_ stepped
    cases a with
    | dropRead ref => exact absurd rfl (notDropped ref)
    | _ => trivial
  · refine draining_step receives.draining (fun ref o _ called => absurd called (notDropped ref)) ?_ stepped
    intro ref data rest pushing
    exact receives.listening.payload ref data (by rw [pushing]; rfl)
  · rcases SessionAction.fitting_cases fitting with modest | gone | ⟨padding, count, gone, -⟩
    · intro ref after stored
      rcases effect.objects.2 ref after stored with ⟨before, was, change⟩ | ⟨-, created⟩
      · exact rooms_change change modest (receives.rooms ref before was)
      · cases created with
        | incoming sid => nofun
        | opened => nofun
    · rw [failing_objects (.inl gone) stepped]
      exact receives.rooms
    · rw [failing_objects (.inr ⟨padding, count, gone⟩) stepped]
      exact receives.rooms
  · rw [role] at client
    exact numbering_step (receives.numbering client) receives.listening client (opened.2 client) stepped

end

/-! ### What one end sends -/

theorem Echo.dead {md5} (echo : s.Echo q) (closed : s.frameTx.isClosed = true)
    (stepped : s.step md5 a = some t) : t.Echo q := by
  have effect := step_effect stepped
  have objects : ∀ (ref : StreamRef) o, q.objects[ref]? = some o →
      ∃ later, t.objects[ref]? = some later ∧ o.Lasts later := by
    intro ref o stored
    obtain ⟨now, found, lasts⟩ := echo.objects ref o stored
    obtain ⟨later, kept, change⟩ := effect.objects.kept found
    exact ⟨later, kept, lasts.trans change.lasts⟩
  have open_ {P : Prop} (alive : s.frameTx.isClosed = false) : P := nomatch closed.symm.trans alive
  have quiet (accepted : t.accepted = s.accepted) (queue : t.frameTx = s.frameTx)
      (wire : t.transcript.wire = s.transcript.wire) : t.Echo q := by
    refine ⟨echo.speaking, echo.role.trans (role_step stepped).symm, echo.accepted.trans accepted.symm, ?_, objects, ?_⟩
    · rw [wire]
      exact echo.wire
    · rw [queue]
      exact fun alive => open_ alive
  cases effect.out with
  | same accepted queue written => exact quiet accepted queue (congrArg (·.wire) written)
  | send frame ack _ alive => exact open_ alive
  | emit next rest padding _ queue => exact open_ (congrArg (·.isClosed) queue)
  | fails padding count called =>
    subst called
    simp only [Session.step] at stepped
    split at stepped
    · rename_i queue
      exact open_ (congrArg (·.isClosed) queue)
    · cases stepped
  | release accepted queue written =>
    refine quiet accepted queue ?_
    rw [written]
    rfl

theorem echo_step {md5 : Bytes → String} (receives : s.Receives) (echo : s.Echo q) (fitting : a.fitting = true)
    (distinct : (t.objects.map (·.stream.id)).Nodup) (stepped : s.step md5 a = some t) : ∃ r, t.Echo r := by
  cases closed : s.frameTx.isClosed with
  | true => exact ⟨q, echo.dead closed stepped⟩
  | false =>
    have speaking := echo.speaking
    rw [echo.alive closed] at speaking
    have opening (i : Nat) (ref : StreamRef) (o : StreamObject) (placed : s.opens[i]? = some (.syn ref)) :=
      (receives.numbering (receives.client placed)).opening i ref o placed
    rcases SessionAction.fitting_cases fitting with modest | rfl | ⟨padding, count, rfl, modest⟩
    · exact ⟨t, (speaking_step speaking receives.listening opening receives.passive distinct modest stepped).echo⟩
    · simp only [Session.step] at stepped
      split_ifs at stepped
      cases stepped
      refine ⟨_, Speaking.echo ⟨speaking.alive, speaking.writes, speaking.voiced, speaking.silent, speaking.syns,
        speaking.encodable, speaking.wired⟩⟩
    · obtain ⟨e, emitted, said, same, accepted, objects, wire, ended⟩ := writerFails_cases stepped
      have speaks : e.Speaking := speaking_step speaking receives.listening opening receives.passive
        (by rw [same, ← objects]; exact distinct) modest emitted
      refine ⟨e, speaks, (role_step emitted).trans (role_step stepped).symm, said.trans accepted.symm, wire, ?_, ?_⟩
      · intro ref o stored
        rw [same, ← objects] at stored
        exact ⟨o, stored, .refl o⟩
      · intro alive
        cases ended.symm.trans alive

end Session

/-! ### Both ends -/

/-- The first frame of a client fits its length field. -/
theorem settings_encodable {iterate : StringMap.Order}
    (shuffles : ∀ map, (iterate map).Perm map.entries) {padding : PaddingFactory}
    (digest : (asBytes padding.md5).length ≤ 32) :
    (Frame.withData .settings 0 (StringMap.toBytes
      (iterate (Engine.clientSettings (State.new padding) PROGRAM_VERSION_NAME)))).Encodable := by
  refine ⟨?_, trivial⟩
  have bound := StringMap.toBytes_length_le (iterate (Engine.clientSettings (State.new padding) PROGRAM_VERSION_NAME))
  rw [((shuffles _).map _).sum_nat] at bound
  have entries : (Engine.clientSettings (State.new padding) PROGRAM_VERSION_NAME).entries =
      [⟨"padding-md5", padding.md5⟩, ⟨"client", PROGRAM_VERSION_NAME⟩, ⟨"v", "2"⟩] := rfl
  simp only [entries, List.map_cons, List.map_nil, List.sum_cons, List.sum_nil,
    show (asBytes "padding-md5").length = 11 from rfl, show (asBytes "client").length = 6 from rfl,
    show (asBytes "v").length = 1 from rfl, show (asBytes "2").length = 1 from rfl,
    show (asBytes PROGRAM_VERSION_NAME).length = 12 from rfl] at bound
  simp only [Frame.withData]
  omega

/-- A session that has queued its first frames and has done nothing else. -/
theorem Session.Fresh.receives {s : Session} (fresh : s.Fresh) (next : s.nextStreamId = 0)
    (bytes : (s.received, s.pending) = ([], []))
    (scheme : s.isClient = true ∨ s.protocolState.padding.rawScheme.length ≤ 65535) : s.Receives := by
  simp only [Prod.mk.injEq] at bytes
  have waiting {P : Prop} {i : Nat} {pc : OpenPc} (placed : s.opens[i]? = some pc) : P := by
    simp [fresh.opens] at placed
  constructor
  · exact fresh.pushSafe
  · refine ⟨?_, ?_, ?_, ?_, ?_, scheme, fun _ => ?_⟩
    · simp [bytes, fresh.handled]
    · simp [fresh.handled]
    · simp [fresh.recv, RecvPc.pending]
    · simp [fresh.recv, RecvPc.payload]
    · simp [fresh.recv, RecvPc.arriving]
    · rw [fresh.recv]
      rfl
  · intro _ sid
    rw [fresh.objects, fresh.recv]
    exact Nat.zero_le _
  · refine ⟨fun _ _ => fresh.unlisted, fun ref closes => ?_, fun _ _ => fresh.empty⟩
    rw [fresh.recv] at closes
    cases closes
  · exact ⟨fun _ _ => fresh.unfinished, fun _ _ => fresh.empty, fun _ _ => fresh.empty⟩
  · exact fun _ _ => fresh.empty
  · exact fun _ => fresh.opens
  · refine fun _ => ⟨fun _ _ => fresh.empty, ?_, ?_, ?_, fun _ _ _ => waiting, fun _ _ => waiting,
      fun _ _ _ => waiting⟩
    · rw [next, fresh.objects]
      rfl
    · simp [fresh.objects, fresh.opens]
    · simp [fresh.opens]

theorem Session.Fresh.speaking {s : Session} {isClient} (fresh : s.Fresh)
    (written : s.transcript = Transcript.start isClient)
    (queue : s.frameTx = ⟨s.accepted.map (⟨·, false⟩), false⟩)
    (frames : ∀ frame ∈ s.accepted, frame.Encodable ∧ frame.cmd.control = true) : s.Speaking := by
  have silent (sid : UInt32) : said sid s.accepted = .nothing := by
    generalize s.accepted = accepted at frames
    induction accepted using List.reverseRecOn with
    | nil => rfl
    | append_singleton accepted frame ih =>
      rw [said_snoc, Said.hear_control (frames frame (by simp)).2]
      exact ih fun f member => frames f (List.mem_append_left _ member)
  refine ⟨by rw [queue], fun _ _ => fresh.empty, fun _ _ => fresh.empty, fun sid _ => silent sid, fun sid => ?_,
    fun frame member => (frames frame member).1, [], [], [], [], ?_, ?_, by simp⟩
  · rw [silent]
    exact Nat.zero_le _
  · rw [written]
    exact ⟨rfl, rfl, rfl, rfl, .nil, by simp⟩
  · rw [queue]
    simp [submitted, Function.comp_def]

namespace Duplex
variable {d e : Duplex} {a : DuplexAction} {side : Side}

theorem step_act (md5 : Bytes → String) {action} (internal : ∀ chunk, action ≠ .receive chunk) :
    d.step md5 (.act side action) = ((d.session side).step md5 action).map (d.set · side) := by
  cases action with
  | receive chunk => exact absurd rfl (internal chunk)
  | _ => rfl

def fitting : DuplexAction → Bool
  | .act _ action => action.fitting
  | .deliver _ _ => true

/-- Two sessions, each with all that it has received, and the connection between them. -/
structure Linked (d : Duplex) : Prop where
  receives : ∀ side, (d.session side).Receives
  echo : ∀ side, ∃ q, (d.session side).Echo q
  role : ∀ side, (d.session side).isClient = side.isClient
  wire : ∀ side, (d.session side).received <+: (d.session side.other).transcript.wire

theorem linked_start {iterate : StringMap.Order}
    (shuffles : ∀ map, (iterate map).Perm map.entries) {client server : PaddingFactory}
    (digest : (asBytes client.md5).length ≤ 32) (scheme : server.rawScheme.length ≤ 65535) :
    (start iterate client server).Linked := by
  refine ⟨fun side => ?_, fun side => ?_, fun side => by cases side <;> rfl,
    fun side => by cases side <;> exact List.nil_prefix⟩
  · cases side with
    | client => exact (Session.fresh_started iterate true client).receives rfl rfl (.inl rfl)
    | server => exact (Session.fresh_started iterate false server).receives rfl rfl (.inr scheme)
  · cases side with
    | client =>
      refine ⟨_, ((Session.fresh_started iterate true client).speaking rfl rfl fun frame member => ?_).echo⟩
      cases List.mem_singleton.mp member
      exact ⟨settings_encodable shuffles digest, rfl⟩
    | server =>
      refine ⟨_, ((Session.fresh_started iterate false server).speaking rfl rfl fun frame member => ?_).echo⟩
      cases member

theorem Linked.roles (linked : d.Linked) (side : Side) :
    (d.session side.other).isClient = !(d.session side).isClient := by
  rw [linked.role, linked.role]
  cases side <;> rfl

/-- A step of the pair is a step of one end, which receives only what the other has sent. -/
theorem Linked.step_cases {md5} (linked : d.Linked) (fitting : Duplex.fitting a = true)
    (opens : d.opens a = true) (stepped : d.step md5 a = some e) :
    ∃ side action t, e = d.set t side ∧ (d.session side).step md5 action = some t ∧ action.fitting = true ∧
      (d.session side).Opens action ∧ t.received <+: (d.session side.other).transcript.wire := by
  cases a with
  | deliver side count =>
    obtain ⟨t, received, rfl⟩ := Option.map_eq_some_iff.mp stepped
    refine ⟨side, _, t, rfl, received, rfl, nofun, ?_⟩
    have whole := List.prefix_iff_eq_append.mp (linked.wire side)
    rcases Session.received_step received with ⟨chunk, same, more⟩ | same
    · cases same
      rw [more, ← whole]
      exact (List.prefix_append_right_inj _).mpr (List.take_prefix _ _)
    · exact same ▸ linked.wire side
  | act side action =>
    have plain : ∀ chunk, action ≠ .receive chunk := by
      rintro chunk rfl
      cases stepped
    rw [step_act md5 plain] at stepped
    obtain ⟨t, called, rfl⟩ := Option.map_eq_some_iff.mp stepped
    refine ⟨side, action, t, rfl, called, fitting, ?_, ?_⟩
    · rintro maxStreams rfl
      simp only [Duplex.opens, Bool.and_eq_true, decide_eq_true_eq] at opens
      cases side with
      | client => exact ⟨linked.role .client, opens.2⟩
      | server => cases opens.1
    · rcases Session.received_step called with ⟨chunk, same, -⟩ | same
      · exact absurd same (plain chunk)
      · exact same ▸ linked.wire side

theorem linked_step {md5} (linked : d.Linked) (allowed : d.opens a = true ∧ Duplex.fitting a = true)
    (stepped : d.step md5 a = some e) : e.Linked := by
  obtain ⟨side, action, t, rfl, called, fitting, opens, arrived⟩ := linked.step_cases allowed.2 allowed.1 stepped
  obtain ⟨q, mine⟩ := linked.echo side
  obtain ⟨r, theirs⟩ := linked.echo side.other
  have back := linked.wire side.other
  rw [Side.other_other] at back
  have role : t.isClient = side.isClient := (Session.role_step called).trans (linked.role side)
  have roles : (d.session side.other).isClient = !t.isClient := by
    rw [Session.role_step called]
    exact linked.roles side
  have receives := Session.receives_step (linked.receives side) (linked.receives side.other) mine theirs
    (linked.roles side) (linked.wire side) back arrived fitting opens called
  have distinct := receives.distinct theirs roles arrived
  have echo := Session.echo_step (linked.receives side) mine fitting distinct called
  have sent := back.trans (Session.wire_kept called)
  refine ⟨fun which => ?_, fun which => ?_, fun which => ?_, fun which => ?_⟩
  · rcases side.eq_or_other which with rfl | rfl
    · rw [session_set_self]
      exact receives
    · rw [session_set_other]
      exact linked.receives side.other
  · rcases side.eq_or_other which with rfl | rfl
    · rw [session_set_self]
      exact echo
    · rw [session_set_other]
      exact linked.echo side.other
  · rcases side.eq_or_other which with rfl | rfl
    · rw [session_set_self]
      exact role
    · rw [session_set_other]
      exact linked.role side.other
  · rcases side.eq_or_other which with rfl | rfl
    · rw [session_set_self, session_set_other]
      exact arrived
    · rw [session_set_other, Side.other_other, session_set_self]
      exact sent

/-! ### Delivery -/

section
variable {ref : StreamRef} {o : StreamObject} {r : Session}

/-- What an end has handled for one of its streams, its peer has said. -/
theorem Linked.grows (linked : d.Linked) (theirs : (d.session side.other).Echo r)
    (stored : (d.session side).objects[ref]? = some o) :
    (said o.stream.id (d.session side).handled).Extends (said o.stream.id r.accepted) := by
  have receives := linked.receives side
  have wire := (linked.wire side).trans theirs.wire
  obtain ⟨spoken, part, same⟩ := Session.handled_said receives.listening theirs.speaking wire
  have syns := theirs.speaking.syns o.stream.id
  rw [same]
  refine said_extends part ?_
  rw [theirs.role, linked.role side.other] at syns
  cases side with
  | client => exact syns.trans (Nat.zero_le _)
  | server =>
    have member : o.stream.id ∈ d.server.objects.map (·.stream.id) :=
      List.mem_map_of_mem (List.mem_of_getElem? stored)
    have opened := (Session.known_sid receives.listening receives.accounts theirs.speaking (linked.role .server)
      wire member).2
    rw [← same]
    exact syns.trans opened

/-- What reads have returned comes first in what the peer has said on the sid. -/
theorem Linked.got_said (linked : d.Linked) (theirs : (d.session side.other).Echo r)
    (stored : (d.session side).objects[ref]? = some o) :
    o.history.got <+: (said o.stream.id r.accepted).bytes := by
  have receives := linked.receives side
  have heard := (receives.hearing.heard ref o stored).pushed
  exact (receives.draining.ordered ref o stored).got_pushed.trans
    (((List.prefix_append ..).trans heard).trans (linked.grows theirs stored).bytes)

theorem Linked.distinct (linked : d.Linked) (side : Side) :
    ((d.session side).objects.map (·.stream.id)).Nodup := by
  obtain ⟨q, theirs⟩ := linked.echo side.other
  exact (linked.receives side).distinct theirs (linked.roles side) (linked.wire side)

/-- What reads have returned at one end of a sid comes first in what was written at the other. -/
theorem Linked.got_written (linked : d.Linked) (stored : (d.session side).objects[ref]? = some o)
    {other : StreamRef} {p : StreamObject} (placed : (d.session side.other).objects[other]? = some p)
    (id : p.stream.id = o.stream.id) : o.history.got <+: p.history.written := by
  obtain ⟨r, theirs⟩ := linked.echo side.other
  have said := linked.got_said theirs stored
  by_cases known : o.stream.id ∈ r.objects.map (·.stream.id)
  · obtain ⟨early, member, same⟩ := List.mem_map.mp known
    obtain ⟨place, found⟩ := List.mem_iff_getElem?.mp member
    obtain ⟨later, kept, lasts⟩ := theirs.objects place early found
    have payload := (theirs.speaking.voiced place early found).payload
    simp only [same, Prod.mk.injEq] at payload
    rw [payload.1] at said
    have written := (List.prefix_append ..).trans (theirs.speaking.writes place early found).order
    -- the two streams of the peer with this sid are one
    have one : place = other := by
      by_contra apart
      exact Session.sid_ne (linked.distinct side.other) kept placed apart (lasts.id.trans (same.trans id.symm))
    subst one
    cases kept.symm.trans placed
    exact said.trans (written.trans lasts.written)
  · rw [theirs.speaking.silent _ known] at said
    exact List.prefix_nil.mp said ▸ List.nil_prefix

/-- On a sid the peer has no stream for, nothing is read. -/
theorem Linked.got_unknown (linked : d.Linked) (stored : (d.session side).objects[ref]? = some o)
    (absent : o.stream.id ∉ (d.session side.other).objects.map (·.stream.id)) : o.history.got = [] := by
  obtain ⟨r, theirs⟩ := linked.echo side.other
  have said := linked.got_said theirs stored
  rw [theirs.speaking.silent _ fun member => absent (theirs.ids_subset member)] at said
  exact List.prefix_nil.mp said

/-- Once the peer's FIN has closed a stream, all that was written before is in its pipe. -/
theorem Linked.closed_by_peer (linked : d.Linked) (stored : (d.session side).objects[ref]? = some o)
    (closed : o.history.cause = some .peerFin) :
    ∃ (other : StreamRef) (p : StreamObject), (d.session side.other).objects[other]? = some p ∧
      p.stream.id = o.stream.id ∧ p.history.writtenAtClose = some o.history.pushed := by
  obtain ⟨r, theirs⟩ := linked.echo side.other
  have speaking := theirs.speaking
  obtain ⟨all, fin⟩ := ((linked.receives side).hearing.heard ref o stored).ended closed
  obtain ⟨same, fin⟩ := (linked.grows theirs stored).fin fin
  have known : o.stream.id ∈ r.objects.map (·.stream.id) := by
    by_contra absent
    rw [speaking.silent _ absent] at fin
    cases fin
  obtain ⟨early, member, id⟩ := List.mem_map.mp known
  obtain ⟨place, found⟩ := List.mem_iff_getElem?.mp member
  obtain ⟨later, kept, lasts⟩ := theirs.objects place early found
  have payload := (speaking.voiced place early found).payload
  simp only [id, Prod.mk.injEq] at payload
  obtain ⟨written, marked⟩ := (speaking.writes place early found).closing (.inr (payload.2 ▸ fin))
  refine ⟨place, later, kept, lasts.id.trans id, ?_⟩
  rw [(lasts.closed marked).2, written, ← payload.1, same, all]

/-- A reader that has seen the end of a stream closed by the peer's FIN has read it all. -/
theorem Linked.got_all (linked : d.Linked) (stored : (d.session side).objects[ref]? = some o)
    (closed : o.history.cause = some .peerFin) (eof : o.history.eof = true) : o.history.got = o.history.pushed := by
  have draining := (linked.receives side).draining
  obtain ⟨stage, drains, arrived⟩ := (draining.ending ref o stored).draining (by rw [closed]; decide)
  obtain ⟨error, rfl⟩ := arrived.eof eof
  exact (draining.ordered ref o stored).complete drains

end

end Duplex

end AnyTls

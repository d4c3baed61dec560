import AnyTls.Client.Sessions
import AnyTls.Proxy.Delivery
import AnyTls.Proxy.Introduction
import AnyTls.Proxy.Refusal

/-! The settings gate from both sides: a server makes no stream before the settings, and no
connection of a client carries anything before them. -/
namespace AnyTls

variable {md5 : Bytes → String} {iterate : StringMap.Order}
  {padding : PaddingFactory}

theorem settingsFrame_filled (shuffles : ∀ map, (iterate map).Perm map.entries) (name) :
    (settingsFrame iterate padding name).data ≠ [] := by
  refine StringMap.toBytes_ne_nil fun empty => ?_
  have same := shuffles (Engine.clientSettings (State.new padding) name)
  rw [empty, clientSettings_entries] at same
  exact List.cons_ne_nil _ _ (List.nil_perm.mp same)

namespace Session
variable {s t : Session}

theorem introduced_started : ((new true padding).ensureStarted iterate).Introduced
    (settingsFrame iterate padding PROGRAM_VERSION_NAME) where
  queued := ⟨[], rfl, by simp⟩
  pending actions left := by
    cases left
    simp

theorem heads_started : ((new true padding).ensureStarted iterate).Heads
    (settingsFrame iterate padding PROGRAM_VERSION_NAME) :=
  .next false [] rfl rfl rfl rfl

theorem decoded_started : ((new false padding).ensureStarted iterate).Decoded where
  bytes := rfl
  encodable frame member := by cases member

/-- A server that reads what a client session has written is never without the settings. -/
theorem fed_unrefused (shuffles : ∀ map, (iterate map).Perm map.entries)
    (digest : (asBytes padding.md5).length ≤ 32) {client : Session}
    (heads : client.Heads (settingsFrame iterate padding PROGRAM_VERSION_NAME)) (decoded : s.Decoded)
    (gated : s.Gated) (fed : s.received <+: client.transcript.wire) :
    missingAlert ∉ s.accepted := by
  intro alerted
  obtain ⟨earlier, syn, split, command, ungreeted⟩ := gated.alerted alerted
  rcases decoded.first heads (settings_encodable shuffles digest) fed with none | ⟨rest, first⟩
  · simp [none] at split
  · rw [first] at split
    cases earlier with
    | nil =>
      obtain ⟨rfl, -⟩ := List.cons.inj split
      cases command
    | cons head earlier =>
      obtain ⟨rfl, -⟩ := List.cons.inj split
      exact ungreeted ⟨_, List.mem_cons_self, rfl, settingsFrame_filled shuffles _⟩

end Session

namespace Client
variable {setup : ClientSetup} {c : Client} {conn : Connection}

/-- The first frame queued on a connection is its only Settings frame. -/
theorem lived_introduced (lived : conn.Lived md5 iterate padding) :
    (conn.started = false ∧ conn.session.accepted = []) ∨
    ∃ rest, conn.session.accepted = settingsFrame iterate padding PROGRAM_VERSION_NAME :: rest ∧
      ∀ frame ∈ rest, frame.cmd ≠ .settings := by
  cases lived with
  | made unstarted _ new => exact .inl ⟨unstarted, by rw [new]; rfl⟩
  | running actions _ path =>
    have introduced := Transition.invariant Session.introduced_step Session.introduced_started path
    exact .inr introduced.queued

/-- What a connection carries begins with the Settings frame, or is a part of it. -/
theorem lived_wire (lived : conn.Lived md5 iterate padding) :
    conn.session.transcript.wire = [] ∨
    conn.session.Heads (settingsFrame iterate padding PROGRAM_VERSION_NAME) := by
  cases lived with
  | made _ _ new => exact .inl (by rw [new]; rfl)
  | running actions _ path => exact .inr (Transition.invariant Session.heads_step Session.heads_started path)

/-- The settings gate. A server session makes a stream, and announces it, only after a Settings
frame with data; a SYN before that is the last frame it handles, and it hands the alert to a
live writer, fails and ends with an empty table. A client queues its only Settings frame first
on each connection, so a server session fed by it never sends that alert. -/
theorem settings_gate (shuffles : ∀ map, (iterate map).Perm map.entries) :
    (∀ (padding : PaddingFactory) (actions : List SessionAction) (s : Session),
      Transition.run (Session.step md5) ((Session.new false padding).ensureStarted iterate) actions = some s →
      (∀ ref ∈ s.newStreams, ∃ o, s.objects[ref]? = some o ∧ Greeted (s.handled.take (o.history.born - 1))) ∧
      (s.opens = [] → s.newStreams = List.range s.objects.length) ∧
      ∀ earlier syn later, s.handled = earlier ++ syn :: later → syn.cmd = .syn → ¬ Greeted earlier →
        later = [] ∧ s.Refusing ∧ (s.recv = .ended → s.ending = .none → s.streams = ∅) ∧
        s.Reaches md5 fun t => t.recv = .ended ∧ t.ending = .none ∧ t.streams = ∅) ∧
    ∀ (padding : PaddingFactory) (setup : ClientSetup) (actions : List LifecycleAction) (c : Client),
      (asBytes padding.md5).length ≤ 32 →
      Transition.run (step md5 iterate setup) (new padding) actions = some c → ∀ conn ∈ c.sessions,
      ((conn.started = false ∧ conn.session.accepted = []) ∨
        ∃ rest, conn.session.accepted = settingsFrame iterate padding PROGRAM_VERSION_NAME :: rest ∧
          ∀ frame ∈ rest, frame.cmd ≠ .settings) ∧
      ∀ (serverPadding : PaddingFactory) (serverActions : List SessionAction) (s : Session),
        Transition.run (Session.step md5) ((Session.new false serverPadding).ensureStarted iterate)
          serverActions = some s →
        s.received <+: conn.session.transcript.wire → missingAlert ∉ s.accepted := by
  have served {padding : PaddingFactory} {actions : List SessionAction} {s : Session}
      (path : Transition.run (Session.step md5) ((Session.new false padding).ensureStarted iterate) actions =
        some s) : s.Guarded :=
    Transition.invariant Session.guarded_step (Session.guarded_started iterate padding) path
  refine ⟨fun padding actions s path => ?_, fun padding setup actions c digest path conn member => ?_⟩
  · have guarded := served path
    refine ⟨guarded.admitted.greeted, guarded.admitted.all, fun earlier syn later split command ungreeted => ?_⟩
    obtain ⟨rfl, refusing⟩ := guarded.gated.refused split command ungreeted
    have refused : Refused s.handled := ⟨earlier, syn, split, command, ungreeted⟩
    exact ⟨rfl, refusing, guarded.cleared refused, guarded.finishes refused⟩
  · obtain ⟨id, stored⟩ := List.mem_iff_getElem?.mp member
    have lived := (run_sound path).lived stored
    refine ⟨lived_introduced lived, fun serverPadding serverActions s path fed => ?_⟩
    have gated := (served path).gated
    have decoded := Transition.invariant Session.decoded_step Session.decoded_started path
    rcases lived_wire lived with silent | heads
    · -- nothing was received, so no frame was handled
      intro alerted
      obtain ⟨earlier, syn, split, -⟩ := gated.alerted alerted
      rw [silent, List.prefix_nil, decoded.bytes, split] at fed
      simp [Frame.toBytes] at fed
    · exact Session.fed_unrefused shuffles digest heads decoded gated fed

def plainSetup : ClientSetup := ⟨⟨30, 0, 5⟩, [1, 2], []⟩

/-- A client opens a stream, and its writer writes both frames. -/
def openOne : List LifecycleAction :=
  LifecycleAction.createStream :: List.replicate 17 (LifecycleAction.advance 0 (.connected fun _ low _ => low)) ++
    [LifecycleAction.session 0 (.emit ⟨0, []⟩), .session 0 (.emit ⟨0, []⟩)]

/-- A server reads them. -/
def readAll (wire : Bytes) : List SessionAction :=
  [SessionAction.receive wire, .recvStep, .recvStep, .emit ⟨0, []⟩] ++ List.replicate 5 SessionAction.recvStep

theorem openOne_greeted : ∃ c conn s,
    Transition.run (step (fun _ => "") AList.entries plainSetup) (new Session.plainPadding) openOne = some c ∧
    conn ∈ c.sessions ∧
    Transition.run (Session.step fun _ => "") ((Session.new false Session.plainPadding).ensureStarted AList.entries)
      (readAll conn.session.transcript.wire) = some s ∧
    s.received = conn.session.transcript.wire ∧ s.newStreams = [0] ∧ missingAlert ∉ s.accepted := by
  have reached : (Transition.run (step (fun _ => "") AList.entries plainSetup) (new Session.plainPadding)
      openOne).any (fun c => c.sessions.any fun conn => (Transition.run (Session.step fun _ => "")
        ((Session.new false Session.plainPadding).ensureStarted AList.entries)
        (readAll conn.session.transcript.wire)).any fun s =>
          decide (s.received = conn.session.transcript.wire ∧ s.newStreams = [0])) = true := by
    decide +kernel
  obtain ⟨c, path, reached⟩ := (Option.any_eq_true _ _).mp reached
  obtain ⟨conn, member, reached⟩ := List.any_eq_true.mp reached
  obtain ⟨s, served, reached⟩ := (Option.any_eq_true _ _).mp reached
  obtain ⟨received, announced⟩ := of_decide_eq_true reached
  refine ⟨c, conn, s, path, member, served, received, announced, ?_⟩
  exact ((settings_gate fun map => .refl _).2 Session.plainPadding plainSetup openOne c (by decide) path conn
    member).2 _ _ s served (received ▸ List.prefix_rfl)

end Client

end AnyTls

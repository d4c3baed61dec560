import AnyTls.Proxy.Listening
import AnyTls.Proxy.PushSafety

/-! A stream and what its peer has said. As long as the table leads to an open stream,
all the payload handled is in its pipe or on the way there; the pipe never holds more
than the peer has said; and a stream that the peer's FIN has closed holds all of it. -/
namespace AnyTls

namespace RecvPc

/-- The payload of a push that is going to reach the pipe. -/
def inPush (pc : RecvPc) (ref : StreamRef) (closed : Bool) : Bytes :=
  match pc with
  | .pushCheck other data _ | .pushData other data _ => if other = ref ∧ closed = false then data else []
  | .pushPipe other data _ => if other = ref then data else []
  | _ => []

/-- The stream that the peer's FIN is about to close. -/
def closing : RecvPc → Option StreamRef
  | .closeAnnounce (some ref) _ none _ | .closeMark ref none _ => some ref
  | _ => none

theorem inPush_closed (pc : RecvPc) (ref closed) :
    pc.inPush ref true <+: pc.inPush ref closed := by
  cases pc with
  | pushCheck other data rest | pushData other data rest => simp [inPush]
  | _ => exact List.prefix_refl _

theorem inPush_other {pc : RecvPc} {target ref data} (pushing : pc.payload = some (target, data))
    (other : target ≠ ref) (closed) :
    pc.inPush ref closed = [] := by
  cases pc with
  | pushCheck found bytes rest | pushData found bytes rest | pushPipe found bytes rest =>
    cases pushing
    simp [inPush, other]
  | _ => rfl

end RecvPc

structure Heard (listed : Prop) (pc : RecvPc) (words : Said) (ref : StreamRef) (o : StreamObject) :
    Prop where
  pushed : o.history.pushed ++ pc.inPush ref o.stream.closed <+: words.bytes
  live : listed → o.stream.closed = false → ∀ actions, pc.pending = some actions →
    actions.foldl (heed o.stream.id) (o.history.pushed ++ pc.inPush ref false, false) =
      (words.bytes, words.fin)
  ending : pc.closing = some ref → o.stream.closed = false →
    o.history.pushed = words.bytes ∧ words.fin = true
  ended : o.history.cause = some .peerFin → o.history.pushed = words.bytes ∧ words.fin = true

namespace Heard
variable {listed listed' : Prop} {pc next : RecvPc} {words : Said} {ref : StreamRef} {o after : StreamObject}

/-- Another task closes the stream. -/
theorem close (heard : Heard listed pc words ref o) (pushed : after.history.pushed = o.history.pushed) (closed : after.stream.closed = true)
    (cause : after.history.cause = some .peerFin → o.history.pushed = words.bytes ∧ words.fin = true) :
    Heard listed pc words ref after := by
  have open_ {P : Prop} (still : after.stream.closed = false) : P := nomatch closed.symm.trans still
  refine ⟨?_, fun _ still => open_ still, fun _ still => open_ still, pushed ▸ cause⟩
  rw [pushed, closed]
  exact ((List.prefix_append_right_inj _).mpr (pc.inPush_closed ref o.stream.closed)).trans heard.pushed

theorem afterRead (heard : Heard listed pc words ref o) (len pipe) (state : ReadState) :
    Heard listed pc words ref (o.afterRead len pipe state) := by
  obtain ⟨reader, got, eof, firstEnd, same⟩ := o.afterRead_eq len pipe state
  rw [same]
  exact ⟨heard.pushed, heard.live, heard.ending, heard.ended⟩

theorem change {s t a} (heard : Heard listed s.recv words ref o) (changed : Change s a t ref o after)
    (other : a ≠ .recvStep) :
    Heard listed s.recv words ref after := by
  cases changed with
  | startClose idle =>
    unfold StreamObject.startClose
    split_ifs
    · exact heard
    · exact heard.close rfl rfl nofun
  | mark cause still marks =>
    refine heard.close rfl rfl fun same => ?_
    cases same
    rcases marks with ⟨called, -⟩ | ⟨-, ⟨⟩, -⟩ | ⟨⟨⟩, -⟩
    exact absurd called other
  | push data rest pipe n called => exact absurd called other
  | read len pc pipe state | deadline len pc pipe state => exact heard.afterRead len pipe state
  | _ => exact ⟨heard.pushed, heard.live, heard.ending, heard.ended⟩

/-- The receive loop moves on without touching the stream. -/
theorem move (heard : Heard listed pc words ref o) (shown : listed' → listed)
    (inPush : next.inPush ref o.stream.closed <+: pc.inPush ref o.stream.closed)
    (live : listed' → o.stream.closed = false → ∀ rest, next.pending = some rest →
      ∃ actions, pc.pending = some actions ∧
        rest.foldl (heed o.stream.id) (o.history.pushed ++ next.inPush ref false, false) =
          actions.foldl (heed o.stream.id) (o.history.pushed ++ pc.inPush ref false, false))
    (closing : next.closing = some ref → o.stream.closed = false → pc.closing = some ref) :
    Heard listed' next words ref o := by
  refine ⟨((List.prefix_append_right_inj _).mpr inPush).trans heard.pushed,
    fun listed' still rest left => ?_, fun closes still => heard.ending (closing closes still) still,
    heard.ended⟩
  obtain ⟨actions, before, same⟩ := live listed' still rest left
  exact same.trans (heard.live (shown listed') still actions before)

/-- The loop goes on with the same push and the same actions, or stops. -/
theorem same (heard : Heard listed pc words ref o) (shown : listed' → listed)
    (inPush : ∀ closed, next.inPush ref closed = pc.inPush ref closed)
    (actions : next.pending = pc.pending ∨ next.pending = none)
    (closing : next.closing = some ref → pc.closing = some ref) : Heard listed' next words ref o := by
  refine heard.move shown ((inPush _).symm ▸ List.prefix_refl _) (fun _ _ rest left => ?_) fun closes _ => closing closes
  rcases actions with same | stopped
  · exact ⟨rest, same ▸ left, by rw [inPush]⟩
  · cases stopped.symm.trans left

/-- The loop drops the push for a closed stream, or goes on with another stream. -/
theorem drop (heard : Heard listed pc words ref o)
    (apart : (∀ closed, pc.inPush ref closed = []) ∨ o.stream.closed = true)
    (inPush : ∀ closed, next.inPush ref closed = [])
    (actions : next.pending = pc.pending ∨ next.pending = none) (closing : next.closing ≠ some ref) :
    Heard listed next words ref o := by
  rcases apart with nothing | closed
  · exact heard.same id (fun closed => by rw [inPush, nothing]) actions fun closes => absurd closes closing
  · refine heard.move id (by rw [inPush]; exact List.nil_prefix)
      (fun _ still => nomatch closed.symm.trans still) fun closes _ => absurd closes closing

/-- The loop begins an action that says nothing on this stream. -/
theorem inert {action rest} (heard : Heard listed (.applying (action :: rest)) words ref o)
    (shown : listed' → listed)
    (silent : listed' → heed o.stream.id (o.history.pushed, false) action = (o.history.pushed, false))
    (inPush : ∀ closed, next.inPush ref closed = []) (left : next.pending = some rest)
    (closing : next.closing ≠ some ref) : Heard listed' next words ref o := by
  refine heard.move shown (by rw [inPush]; exact List.nil_prefix) (fun listed' _ other same => ?_)
    fun closes _ => absurd closes closing
  cases left.symm.trans same
  refine ⟨action :: rest, rfl, ?_⟩
  rw [inPush, List.foldl_cons]
  simp only [RecvPc.inPush, List.append_nil]
  rw [silent listed']

/-- A stream on which nothing has been said. -/
theorem fresh {sid writer born actions} (pending : pc.pending = actions) (unsaid : words.Fresh)
    (inPush : ∀ closed, pc.inPush ref closed = [])
    (silent : ∀ rest, actions = some rest → rest.foldl (heed sid) ([], false) = ([], false))
    (closing : pc.closing ≠ some ref) :
    Heard listed pc words ref (StreamObject.new sid writer born) := by
  refine ⟨?_, fun _ _ rest left => ?_, fun closes => absurd closes closing, nofun⟩
  · rw [inPush]
    exact List.nil_prefix
  · rw [inPush, unsaid.1, unsaid.2]
    exact silent rest (pending ▸ left)

end Heard

/-- A push begins for a stream the table leads to. -/
theorem Heard.routed {listed words ref o data rest}
    (heard : Heard listed (.applying (.pushStreamData o.stream.id data :: rest)) words ref o)
    (here : listed) : Heard listed (.pushCheck ref data rest) words ref o := by
  have all (still : o.stream.closed = false) :
      rest.foldl (heed o.stream.id) (o.history.pushed ++ data, false) = (words.bytes, words.fin) := by
    have live := heard.live here still _ rfl
    simpa [RecvPc.inPush, heed] using live
  refine ⟨?_, fun _ still actions left => ?_, (by rintro ⟨⟩), heard.ended⟩
  · cases closed : o.stream.closed with
    | true =>
      have pushed := heard.pushed
      simpa [RecvPc.inPush, closed] using pushed
    | false =>
      have grows := foldl_heed_prefix o.stream.id (o.history.pushed ++ data, false) rest
      rw [all closed] at grows
      simpa [RecvPc.inPush] using grows
  · cases left
    simpa [RecvPc.inPush] using all still

/-- The payload is in the pipe. -/
theorem Heard.pushes {listed words ref o data rest}
    (heard : Heard listed (.pushPipe ref data rest) words ref o) (pipe) :
    Heard listed (.applying rest) words ref
      { o.modifyPipe fun _ => pipe with history := { o.history with pushed := o.history.pushed ++ data } } := by
  have fits : o.history.pushed ++ data <+: words.bytes := by
    simpa [RecvPc.inPush] using heard.pushed
  refine ⟨by simpa [RecvPc.inPush] using fits, fun here still actions left => ?_, nofun, fun cause => ?_⟩
  · cases left
    simpa [RecvPc.inPush, StreamObject.modifyPipe] using heard.live here still rest rfl
  · obtain ⟨pushed, fin⟩ := heard.ended cause
    rw [← pushed] at fits
    have nothing : data = [] := by
      simpa using fits.length_le
    exact ⟨by simp [nothing, pushed], fin⟩

/-- The peer's FIN takes the stream out of the table. -/
theorem Heard.finished {listed listed' words ref o next rest}
    (heard : Heard listed (.applying (.closeLocalStream o.stream.id :: rest)) words ref o)
    (gone : ¬ listed') (inPush : ∀ closed, next.inPush ref closed = [])
    (closing : next.closing = some ref → listed) : Heard listed' next words ref o := by
  refine ⟨?_, fun here => absurd here gone, fun closes still => ?_, heard.ended⟩
  · rw [inPush, List.append_nil]
    exact (List.prefix_append ..).trans heard.pushed
  · have live := heard.live (closing closes) still _ rfl
    rw [List.foldl_cons] at live
    simp only [RecvPc.inPush, List.append_nil, heed, if_true, foldl_heed_finished, Prod.mk.injEq] at live
    exact ⟨live.1, live.2.symm⟩

theorem Heard.decoded {listed words ref o md5 state isClient frame}
    (heard : Heard listed .decoding words ref o) (once : (words.hear o.stream.id frame).syns ≤ words.syns) :
    Heard listed (.applying (Engine.onFrame md5 state isClient frame).2)
      (words.hear o.stream.id frame) ref o := by
  have grown := Said.hear_extends (Nat.le_antisymm once (Said.hear_syns_le words))
  refine ⟨heard.pushed.trans grown.bytes, fun here still actions left => ?_, nofun, fun cause => ?_⟩
  · cases left
    have live := heard.live here still [] rfl
    simp only [RecvPc.inPush, List.append_nil, List.foldl_nil] at live ⊢
    rw [live]
    refine onFrame_heed fun syn same => ?_
    simp [Said.hear, same, syn, Said.add] at once
  · obtain ⟨pushed, fin⟩ := heard.ended cause
    obtain ⟨same, stays⟩ := grown.fin fin
    exact ⟨pushed.trans same.symm, stays⟩

theorem foldl_heed_fresh {handled sid} {actions : List ProtocolAction}
    (due : ∀ action ∈ actions, Due handled action) (fresh : (said sid handled).Fresh) :
    actions.foldl (heed sid) ([], false) = ([], false) := by
  induction actions with
  | nil => rfl
  | cons action rest ih =>
    have later := ih fun action member => due action (List.mem_cons_of_mem _ member)
    have here := due action List.mem_cons_self
    rw [List.foldl_cons]
    cases action with
    | pushStreamData other data =>
      have apart : other ≠ sid := by
        rintro rfl
        exact here.2 fresh
      simpa [heed, apart] using later
    | closeLocalStream other =>
      have apart : other ≠ sid := by
        rintro rfl
        exact here fresh
      simpa [heed, apart] using later
    | _ => exact later

namespace Session
variable {s t : Session} {a : SessionAction}

structure Hearing (s : Session) : Prop where
  mapped : ∀ sid ref, s.streams.lookup sid = some ref →
    ∃ o, s.objects[ref]? = some o ∧ o.stream.id = sid
  closing : ∀ ref, s.recv.closing = some ref → ref < s.objects.length
  heard : ∀ (ref : StreamRef) o, s.objects[ref]? = some o →
    Heard (s.streams.lookup o.stream.id = some ref) s.recv (said o.stream.id s.handled) ref o

/-- A step of another task. -/
theorem Hearing.other {md5} (hearing : s.Hearing) (safe : PushSafe s) (listening : s.Listening)
    (fresh : ∀ o, Created s a o → (said o.stream.id s.handled).Fresh) (other : a ≠ .recvStep)
    (stepped : s.step md5 a = some t) : t.Hearing := by
  have effect := step_effect stepped
  have shown {sid : UInt32} {ref : StreamRef} (bound : ref < s.objects.length)
      (listed : t.streams.lookup sid = some ref) : s.streams.lookup sid = some ref := by
    rcases effect.table.lookup listed with before | ⟨o, -, -, rfl⟩
    · exact before
    · exact absurd bound (Nat.lt_irrefl _)
  cases effect.inbound with
  | same unchanged =>
    simp only [Prod.mk.injEq] at unchanged
    obtain ⟨recv, -, -, handled, -, -⟩ := unchanged
    refine ⟨effect.mapped hearing.mapped, fun ref closes => ?_, fun ref after stored => ?_⟩
    · rw [recv] at closes
      exact Nat.lt_of_lt_of_le (hearing.closing ref closes) effect.objects.1
    · rw [recv, handled]
      rcases effect.objects.2 ref after stored with ⟨before, was, change⟩ | ⟨new, created⟩
      · have bound := (List.getElem?_eq_some_iff.mp was).1
        rw [change.id]
        exact ((hearing.heard ref before was).change change other).same (shown bound) (fun _ => rfl)
          (.inl rfl) id
      · have beyond (closes : s.recv.closing = some ref) : False :=
          absurd (hearing.closing ref closes) (by rw [new]; exact Nat.lt_irrefl _)
        have idle : ∀ closed, s.recv.inPush ref closed = [] := by
          have guard := safe.pushing
          intro closed
          unfold RecvPc.inPush
          split <;> rename_i receiving
          · rw [receiving] at guard
            exact if_neg fun same => Nat.ne_of_lt guard (same.1.trans new)
          · rw [receiving] at guard
            exact if_neg fun same => Nat.ne_of_lt guard (same.1.trans new)
          · rw [receiving] at guard
            exact if_neg fun same => Nat.ne_of_lt guard (same.trans new)
          · rfl
        cases created with
        | incoming sid rest called => exact absurd called other
        | opened i maxStreams called placed alive exhausted =>
          have unsaid := fresh _ (.opened i maxStreams called placed alive exhausted)
          exact .fresh rfl unsaid idle
            (fun rest left => foldl_heed_fresh (listening.due rest left) unsaid) beyond
  | receive chunk _ reading same =>
    subst same
    refine ⟨hearing.mapped, nofun, fun ref o stored => ?_⟩
    have heard := hearing.heard ref o stored
    rw [reading] at heard
    exact heard.same id (fun _ => rfl) (.inl rfl) nofun
  | disconnect error _ reading same =>
    subst same
    refine ⟨hearing.mapped, nofun, fun ref o stored => ?_⟩
    have heard := hearing.heard ref o stored
    rw [reading] at heard
    exact heard.same id (fun _ => rfl) (.inr rfl) nofun
  | recv called => exact absurd called other

/-- The loop goes on with the same push and the same actions, or stops. -/
theorem Hearing.keeps (hearing : s.Hearing) (objects : t.objects = s.objects) (streams : t.streams = s.streams)
    (handled : t.handled = s.handled) (inPush : ∀ ref closed, t.recv.inPush ref closed = s.recv.inPush ref closed)
    (actions : t.recv.pending = s.recv.pending ∨ t.recv.pending = none) (closing : t.recv.closing = none) :
    t.Hearing := by
  refine ⟨?_, ?_, fun ref o stored => ?_⟩
  · rw [streams, objects]
    exact hearing.mapped
  · rw [closing]
    nofun
  · rw [objects] at stored
    rw [streams, handled]
    exact (hearing.heard ref o stored).same id (inPush ref) actions (by rw [closing]; nofun)

/-- The loop drops a push that meets the flag: it is for that closed stream and for no other. -/
theorem Hearing.drops {next : RecvPc} {target} {object : StreamObject} {data} (hearing : s.Hearing)
    (pushing : s.recv.payload = some (target, data)) (found : s.objects[target]? = some object)
    (closed : object.stream.closed = true) (inPush : ∀ ref closed, next.inPush ref closed = [])
    (actions : next.pending = s.recv.pending) (closing : next.closing = none) : Hearing { s with recv := next } := by
  refine ⟨hearing.mapped, ?_, fun ref o stored => ?_⟩
  · rw [closing]
    nofun
  · refine (hearing.heard ref o stored).drop ?_ (inPush ref) (.inl actions) (by rw [closing]; nofun)
    by_cases hit : target = ref
    · subst hit
      cases found.symm.trans stored
      exact .inr closed
    · exact .inl (RecvPc.inPush_other pushing hit)

/-- The loop begins an action that says nothing on the streams of the table. -/
theorem Hearing.begins {action rest} (hearing : s.Hearing) (receiving : s.recv = .applying (action :: rest))
    (objects : t.objects = s.objects) (streams : t.streams = s.streams) (handled : t.handled = s.handled)
    (silent : ∀ (ref : StreamRef) (o : StreamObject), s.streams.lookup o.stream.id = some ref →
      heed o.stream.id (o.history.pushed, false) action = (o.history.pushed, false))
    (inPush : ∀ ref closed, t.recv.inPush ref closed = []) (left : t.recv.pending = some rest)
    (closing : t.recv.closing = none) : t.Hearing := by
  have before := hearing.heard
  rw [receiving] at before
  refine ⟨?_, ?_, fun ref o stored => ?_⟩
  · rw [streams, objects]
    exact hearing.mapped
  · rw [closing]
    nofun
  · rw [objects] at stored
    rw [streams, handled]
    exact (before ref o stored).inert id (silent ref o) (inPush ref) left (by rw [closing]; nofun)

/-- A step of the receive loop on a stream it has looked up. -/
theorem Hearing.modify {target f next} (hearing : s.Hearing)
    (mapped : ∀ sid ref, t.streams.lookup sid = some ref → ∃ o, t.objects[ref]? = some o ∧ o.stream.id = sid)
    (objects : t.objects = s.objects.modify target f) (streams : t.streams = s.streams)
    (handled : t.handled = s.handled) (recv : t.recv = next) (id_ : ∀ o, (f o).stream.id = o.stream.id)
    (closing : next.closing = none) (hit : ∀ o, s.objects[target]? = some o →
      Heard (s.streams.lookup o.stream.id = some target) s.recv (said o.stream.id s.handled) target o →
      Heard (s.streams.lookup o.stream.id = some target) next (said o.stream.id s.handled) target (f o))
    (miss : ∀ ref o, ref ≠ target →
      Heard (s.streams.lookup o.stream.id = some ref) s.recv (said o.stream.id s.handled) ref o →
      Heard (s.streams.lookup o.stream.id = some ref) next (said o.stream.id s.handled) ref o) :
    t.Hearing := by
  refine ⟨mapped, fun ref closes => ?_, fun ref after stored => ?_⟩
  · rw [recv, closing] at closes
    cases closes
  · rw [objects, List.getElem?_modify] at stored
    obtain ⟨o, was, changed⟩ := Option.map_eq_some_iff.mp stored
    rw [streams, handled, recv]
    split_ifs at changed with same
    · subst same changed
      rw [id_]
      exact hit o was (hearing.heard target o was)
    · subst changed
      exact miss ref o (Ne.symm same) (hearing.heard ref o was)

theorem Turns.hearing {next} (turns : Turns s next) (hearing : s.Hearing) (safe : PushSafe s) :
    Hearing { s with recv := next } := by
  have before := hearing.heard
  cases turns with
  | @pushes sid data rest target receiving listed =>
    rw [receiving] at before
    refine ⟨hearing.mapped, (by rintro _ ⟨⟩), fun ref o stored => ?_⟩
    by_cases hit : target = ref
    · subst hit
      obtain ⟨_, stored', rfl⟩ := hearing.mapped sid target listed
      cases stored.symm.trans stored'
      exact (before target o stored).routed listed
    · refine (before ref o stored).inert id (fun here => ?_) (fun _ => ?_) rfl (by rintro ⟨⟩)
      · have apart : sid ≠ o.stream.id := by
          rintro rfl
          exact hit (Option.some.inj (listed.symm.trans here))
        simp [heed, apart]
      · simp [RecvPc.inPush, hit]
  | @pushUnknown sid data rest receiving unknown =>
    refine hearing.begins receiving rfl rfl rfl (fun ref o here => ?_) (fun _ _ => rfl) rfl rfl
    have apart : sid ≠ o.stream.id := by
      rintro rfl
      cases unknown.symm.trans here
    simp [heed, apart]
  | synLate receiving | synPasses receiving =>
    exact hearing.begins receiving rfl rfl rfl (fun _ _ _ => rfl) (fun _ _ => rfl) rfl rfl
  | pushIgnored receiving stored closed | pushClosed receiving stored closed =>
    exact hearing.drops (by rw [receiving]; rfl) stored closed (fun _ _ => rfl) (by rw [receiving]; rfl) rfl
  | @pushRefused target data _ object _ _ receiving stored refused =>
    have closed : object.stream.closed = true := by
      by_contra still
      rw [((safe.sound target object stored).flowing (by simpa using still)).write data] at refused
      cases refused
    exact hearing.drops (by rw [receiving]; rfl) stored closed (fun _ _ => rfl) (by rw [receiving]; rfl) rfl
  | @pushOpen target data rest object receiving found unset =>
    rw [receiving] at before
    refine ⟨hearing.mapped, (by rintro _ ⟨⟩), fun ref o stored => ?_⟩
    refine (before ref o stored).move id ?_ (fun _ _ left same => ⟨left, same, ?_⟩) (by rintro ⟨⟩)
    · by_cases hit : target = ref
      · subst hit
        cases found.symm.trans stored
        simp [RecvPc.inPush, unset]
      · simp [RecvPc.inPush, hit]
    · simp [RecvPc.inPush]
  | woken receiving | refused receiving | synZero receiving | ackLost receiving | alerted receiving
  | pushFails receiving =>
    exact hearing.keeps rfl rfl rfl (by rw [receiving]; exact fun _ _ => rfl) (.inr rfl) rfl
  | drained receiving | applied receiving | acked receiving | synKnown receiving | pushChecked receiving
  | pushForgiven receiving | markedBefore receiving =>
    exact hearing.keeps rfl rfl rfl (by rw [receiving]; exact fun _ _ => rfl) (.inl (by rw [receiving]; rfl)) rfl

/-- An action takes a sid out of the table. -/
theorem Hearing.ends {action rest sid error} (hearing : s.Hearing)
    (receiving : s.recv = .applying (action :: rest)) (ending : action.Ends sid error)
    (mapped : ∀ other ref, (s.streams.erase sid).lookup other = some ref →
      ∃ o, s.objects[ref]? = some o ∧ o.stream.id = other) :
    Hearing { s with
      streams := s.streams.erase sid
      recv := .closeAnnounce (s.streams.lookup sid) (s.streams.erase sid).keys.isEmpty error rest } := by
  have before := hearing.heard
  rw [receiving] at before
  have shown {ref : StreamRef} {other : UInt32} (here : (s.streams.erase sid).lookup other = some ref) :
      s.streams.lookup other = some ref := by
    by_cases same : other = sid
    · rw [same, AList.lookup_erase] at here
      cases here
    · rwa [AList.lookup_erase_ne same] at here
  cases ending with
  | closeLocal =>
    have closing {ref : StreamRef} (closes : (RecvPc.closeAnnounce (s.streams.lookup sid)
        (s.streams.erase sid).keys.isEmpty none rest).closing = some ref) : s.streams.lookup sid = some ref := by
      cases listed : s.streams.lookup sid with
      | none => rw [listed] at closes; cases closes
      | some target => rw [listed] at closes; cases closes; rfl
    refine ⟨mapped, fun ref closes => ?_, fun ref o stored => ?_⟩
    · obtain ⟨o, stored, -⟩ := hearing.mapped sid ref (closing closes)
      exact (List.getElem?_eq_some_iff.mp stored).1
    · by_cases same : o.stream.id = sid
      · subst same
        exact (before ref o stored).finished (by simp) (fun _ => rfl) closing
      · refine (before ref o stored).inert shown (fun _ => ?_) (fun _ => rfl) rfl fun closes => ?_
        · simp [heed, Ne.symm same]
        · obtain ⟨_, stored', rfl⟩ := hearing.mapped sid ref (closing closes)
          cases stored.symm.trans stored'
          exact same rfl
  | closeRemote _ message =>
    have quiet : (RecvPc.closeAnnounce (s.streams.lookup sid) (s.streams.erase sid).keys.isEmpty
        (some (IoError.otherError ("remote: " ++ message))) rest).closing = none := by
      cases s.streams.lookup sid with
      | _ => rfl
    refine ⟨mapped, fun ref closes => ?_, fun ref o stored => ?_⟩
    · cases quiet.symm.trans closes
    · refine (before ref o stored).inert shown (fun _ => rfl) (fun _ => rfl) rfl fun closes => ?_
      cases quiet.symm.trans closes

theorem Hearing.creates {sid rest} (hearing : s.Hearing) (listening : s.Listening)
    (receiving : s.recv = .incoming sid rest) (recv : t.recv = .applying rest)
    (handled : t.handled = s.handled)
    (objects : t.objects = s.objects ++ [StreamObject.new sid .idle s.handled.length])
    (streams : t.streams = s.streams.insert sid s.objects.length)
    (mapped : ∀ sid ref, t.streams.lookup sid = some ref → ∃ o, t.objects[ref]? = some o ∧ o.stream.id = sid) :
    t.Hearing := by
  refine ⟨mapped, ?_, fun ref o stored => ?_⟩
  · rw [recv]
    nofun
  · rw [recv, handled, streams]
    rw [objects] at stored
    rcases Nat.lt_or_ge ref s.objects.length with old | new
    · rw [List.getElem?_append_left old] at stored
      have shown (here : (s.streams.insert sid s.objects.length).lookup o.stream.id = some ref) :
          s.streams.lookup o.stream.id = some ref := by
        by_cases same : o.stream.id = sid
        · rw [same, AList.lookup_insert] at here
          cases here
          exact absurd old (Nat.lt_irrefl _)
        · rwa [AList.lookup_insert_ne same] at here
      have before := hearing.heard ref o stored
      rw [receiving] at before
      exact before.same shown (fun _ => rfl) (.inl rfl) nofun
    · rw [List.getElem?_append_right new, List.getElem?_singleton] at stored
      split_ifs at stored with first
      cases stored
      have unsaid := listening.arriving sid (by rw [receiving]; rfl)
      have due := listening.due rest (by rw [receiving]; rfl)
      refine .fresh rfl unsaid (fun _ => rfl) ?_ nofun
      rintro _ ⟨⟩
      exact foldl_heed_fresh due unsaid

theorem recvStep_hearing {md5} (hearing : s.Hearing) (safe : PushSafe s) (listening : s.Listening)
    (once : ∀ (ref : StreamRef) o, s.objects[ref]? = some o →
      (said o.stream.id t.handled).syns ≤ (said o.stream.id s.handled).syns)
    (stepped : s.recvStep md5 = some t) : t.Hearing := by
  have moves : Move md5 s .recvStep t := recvStep_move stepped
  have mapped := (step_effect (show s.step md5 .recvStep = some t from stepped)).mapped hearing.mapped
  have before := hearing.heard
  cases moves with
  | turns turning => exact turning.hearing hearing safe
  | @alerts frame _ receiving found alert =>
    rw [receiving] at before
    refine ⟨mapped, nofun, fun ref o stored => ?_⟩
    simp only [said_snoc, Said.hear_control (show frame.cmd.control = true by rw [alert]; rfl)]
    exact (before ref o stored).same id (fun _ => rfl) (.inr rfl) nofun
  | handles receiving found other =>
    rw [receiving] at before
    refine ⟨mapped, nofun, fun ref o stored => ?_⟩
    have single := once ref o stored
    simp only [said_snoc] at single ⊢
    exact (before ref o stored).decoded single
  | answers receiving sending =>
    cases sending with
    | sendFrame | sendFrameSync =>
      exact hearing.begins receiving rfl rfl rfl (fun _ _ _ => rfl) (fun _ _ => rfl) rfl rfl
    | alertAndFail => exact hearing.keeps rfl rfl rfl (by rw [receiving]; exact fun _ _ => rfl) (.inr rfl) rfl
  | ends receiving ending => exact hearing.ends receiving ending mapped
  | releases receiving => exact hearing.begins receiving rfl rfl rfl (fun _ _ _ => rfl) (fun _ _ => rfl) rfl rfl
  | creates receiving absent => exact hearing.creates listening receiving rfl rfl rfl rfl mapped
  | pushed receiving found written =>
    refine hearing.modify mapped rfl rfl rfl rfl (fun _ => rfl) rfl (fun o _ heard => ?_) fun ref o other heard => ?_
    · rw [receiving] at heard
      exact heard.pushes _
    · rw [receiving] at heard
      exact heard.drop (.inl (RecvPc.inPush_other rfl (Ne.symm other))) (fun _ => rfl) (.inl rfl) nofun
  | @closeAnnounces found isIdle error rest receiving =>
    cases found with
    | none => exact hearing.keeps rfl rfl rfl (by rw [receiving]; exact fun _ _ => rfl) (.inl (by rw [receiving]; rfl)) rfl
    | some target =>
      have bound := hearing.closing
      rw [receiving] at bound before
      have same : (RecvPc.closeMark target error rest).closing =
          (RecvPc.closeAnnounce (some target) isIdle error rest).closing := by
        cases error <;> rfl
      refine ⟨mapped, fun ref closes => bound ref (same ▸ closes), fun ref o stored => ?_⟩
      exact (before ref o stored).same id (fun _ => rfl) (.inl rfl) fun closes => same ▸ closes
  | @closeMarks target error rest object receiving found unset =>
    refine hearing.modify mapped rfl rfl rfl rfl (fun _ => rfl) rfl (fun o stored heard => ?_) fun ref o _ heard => ?_
    · cases found.symm.trans stored
      rw [receiving] at heard
      have marked : Heard _ _ _ _ (object.markClosed (.ofPeer error)) :=
        heard.close rfl rfl fun same => by
          cases error with
          | none => exact heard.ending rfl unset
          | some error => cases same
      exact marked.same id (fun _ => rfl) (.inl rfl) nofun
    · rw [receiving] at heard
      exact heard.same id (fun _ => rfl) (.inl rfl) nofun
  | closeFinishes receiving =>
    refine hearing.modify mapped rfl rfl rfl rfl (fun _ => rfl) rfl (fun o _ heard => ?_) fun ref o _ heard => ?_
    · rw [receiving] at heard
      have kept := heard.same id (fun _ => rfl) (.inl rfl) (by simp)
      exact ⟨kept.pushed, kept.live, kept.ending, kept.ended⟩
    · rw [receiving] at heard
      exact heard.same id (fun _ => rfl) (.inl rfl) nofun
  | fails receiving => exact hearing.keeps rfl rfl rfl (by rw [receiving]; exact fun _ _ => rfl) (.inr rfl) rfl
  | acknowledges call | acknowledged call => cases call

theorem hearing_step {md5} (hearing : s.Hearing) (safe : PushSafe s) (listening : s.Listening)
    (fresh : a ≠ .recvStep → ∀ o, Created s a o → (said o.stream.id s.handled).Fresh)
    (once : ∀ (ref : StreamRef) o, s.objects[ref]? = some o →
      (said o.stream.id t.handled).syns ≤ (said o.stream.id s.handled).syns)
    (stepped : s.step md5 a = some t) : t.Hearing := by
  by_cases loop : a = .recvStep
  · subst loop
    exact recvStep_hearing hearing safe listening once stepped
  · exact hearing.other safe listening (fresh loop) loop stepped

end Session

end AnyTls

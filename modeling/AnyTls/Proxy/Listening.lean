import AnyTls.Proxy.Said
import AnyTls.Proxy.SessionSteps

/-! The receive loop. What it has taken from the connection are the frames it has
handled and the bytes it keeps; what it has still to do comes from the last of these
frames; and a server makes a stream for a SYN, so not more streams than SYNs. -/
namespace AnyTls

/-- The stream an action may make. -/
def ProtocolAction.incoming? : ProtocolAction → Option UInt32
  | .ensureIncomingStream sid => some sid
  | _ => none

namespace RecvPc

/-- The actions still to be applied; none once the loop has failed. -/
def pending : RecvPc → Option (List ProtocolAction)
  | .reading | .decoding => some []
  | .applying actions | .awaitingAck actions | .incoming _ actions | .pushCheck _ _ actions
  | .pushData _ _ actions | .pushPipe _ _ actions | .pushError _ _ actions
  | .closeAnnounce _ _ _ actions | .closeMark _ _ actions | .closeFinish _ _ actions => some actions
  | .alerting _ | .failed _ | .ended => none

/-- The push in progress. -/
def payload : RecvPc → Option (StreamRef × Bytes)
  | .pushCheck ref data _ | .pushData ref data _ | .pushPipe ref data _ => some (ref, data)
  | _ => none

def arriving : RecvPc → Option UInt32
  | .incoming sid _ => some sid
  | _ => none

/-- The streams the loop may still make for the last frame. -/
def awaited (pc : RecvPc) : List UInt32 :=
  pc.arriving.toList ++ (pc.pending.getD []).filterMap ProtocolAction.incoming?

end RecvPc

/-- The action is one of those that the frame is answered with. -/
inductive Engine.Raises (state : State) (isClient : Bool) : Frame → ProtocolAction → Prop
  | payload {sid data} (filled : data ≠ []) : Raises state isClient ⟨.psh, sid, data⟩ (.pushStreamData sid data)
  | makes {sid data} (known : state.receivedSettingsFromClient = true) :
    Raises state isClient ⟨.syn, sid, data⟩ (.ensureIncomingStream sid)
  | refuses {sid data} (unknown : state.receivedSettingsFromClient = false) :
    Raises state isClient ⟨.syn, sid, data⟩ (.alertAndFail "client did not send its settings")
  | ends {sid data} : Raises state isClient ⟨.fin, sid, data⟩ (.closeLocalStream sid)
  | fails {sid data} (filled : data ≠ []) :
    Raises state isClient ⟨.synAck, sid, data⟩ (.closeRemoteStream sid (String.ofList (fromUtf8Lossy data)))
  | updates {frame} (server : isClient = false) :
    Raises state isClient frame (.sendFrameSync (Frame.withData .updatePaddingScheme 0 state.padding.rawScheme))
  | settings {frame} (version) : Raises state isClient frame (.sendFrameSync (serverSettings version))
  | beats {frame} : Raises state isClient frame (.sendFrame (Frame.new .heartResponse frame.sid))

/-- What an action is due to, given the frames handled. -/
def Due (handled : List Frame) : ProtocolAction → Prop
  | .pushStreamData sid data => data ≠ [] ∧ ¬ (said sid handled).Fresh
  | .closeLocalStream sid => ¬ (said sid handled).Fresh
  | .ensureIncomingStream sid => (said sid handled).Fresh
  | .sendFrame frame | .sendFrameSync frame => frame.Encodable ∧ frame.cmd.control = true
  | .alertAndFail message => (asBytes message).length < 2 ^ 16
  | .closeRemoteStream _ _ | .releaseWriteBuffering => True

section
variable {md5 : Bytes → String} {state : State} {isClient : Bool} {frame : Frame} {handled : List Frame}

theorem serverSettings_due (version) : (Engine.serverSettings version).Encodable ∧
    (Engine.serverSettings version).cmd.control = true := by
  have digits : (toString version.toNat).length ≤ 3 := by
    rw [Nat.toString_eq_repr, ← String.length_toList, Nat.toList_repr]
    exact (Nat.length_toDigits_le_iff (by decide) (by decide)).mpr (version.toNat_lt.trans (by decide))
  have small : (StringMap.toBytes [⟨"v", toString version.toNat⟩]).length < 2 ^ 16 := by
    have value := StringMap.asBytes_length_le (toString version.toNat)
    have entry := StringMap.toBytes_length_le [⟨"v", toString version.toNat⟩]
    simp only [List.map_singleton, List.sum_singleton, show (asBytes "v").length = 1 from rfl] at entry
    omega
  exact ⟨⟨small, trivial⟩, rfl⟩

theorem onSettings_raises {settings} (server : isClient = false) :
    ∀ action ∈ (Engine.onSettings state settings).2, Engine.Raises state isClient frame action := by
  intro action member
  simp only [Engine.onSettings] at member
  split at member
  · split_ifs at member <;> simp only [List.nil_append, List.cons_append, List.mem_cons,
      List.not_mem_nil, or_false] at member
    · exact member ▸ .settings _
    · rcases member with rfl | rfl
      · exact .updates server
      · exact .settings _
    · exact member ▸ .updates server
  · split_ifs at member
    · cases member
    · exact List.mem_singleton.mp member ▸ .updates server

theorem onFrame_raises :
    ∀ action ∈ (Engine.onFrame md5 state isClient frame).2, Engine.Raises state isClient frame action := by
  intro action member
  obtain ⟨cmd, sid, data⟩ := frame
  cases cmd with
  | syn =>
    simp only [Engine.onFrame] at member
    split_ifs at member with client known
    · cases member
    · exact List.mem_singleton.mp member ▸ .makes known
    · exact List.mem_singleton.mp member ▸ .refuses (by simpa using known)
  | psh | synAck =>
    simp only [Engine.onFrame] at member
    split_ifs at member with empty
    · cases member
    · cases List.mem_singleton.mp member
      constructor
      simpa using empty
  | fin => exact List.mem_singleton.mp member ▸ .ends
  | settings =>
    simp only [Engine.onFrame] at member
    split_ifs at member with server
    · simp only [Bool.and_eq_true, Bool.not_eq_true'] at server
      exact onSettings_raises server.1 action member
    · cases member
  | updatePaddingScheme | serverSettings =>
    simp only [Engine.onFrame] at member
    split_ifs at member
    · split at member <;> cases member
    · cases member
  | heartRequest => exact List.mem_singleton.mp member ▸ .beats
  | waste | alert | heartResponse | unknown value => cases member

theorem onFrame_due (scheme : isClient = true ∨ state.padding.rawScheme.length ≤ 65535) :
    ∀ action ∈ (Engine.onFrame md5 state isClient frame).2, Due (handled ++ [frame]) action := by
  intro action member
  cases onFrame_raises action member with
  | makes | ends => simp [Due, said_snoc, Said.hear_self, Said.add, Said.Fresh]
  | refuses => exact (StringMap.asBytes_length_le _).trans_lt (by decide)
  | payload filled =>
    refine ⟨filled, ?_⟩
    rw [said_snoc, Said.hear_self]
    simp only [Said.add, Said.Fresh]
    split_ifs with done
    · simp [done]
    · simp [filled]
  | updates server =>
    rcases scheme with client | small
    · cases server.symm.trans client
    · exact ⟨⟨Nat.lt_succ_of_le small, trivial⟩, rfl⟩
  | settings version => exact serverSettings_due version
  | beats => exact ⟨⟨Nat.two_pow_pos 16, trivial⟩, rfl⟩
  | fails => trivial

/-- A server keeps its padding scheme. -/
theorem onFrame_scheme (scheme : isClient = true ∨ state.padding.rawScheme.length ≤ 65535) :
    isClient = true ∨ (Engine.onFrame md5 state isClient frame).1.padding.rawScheme.length ≤ 65535 := by
  rcases scheme with client | small
  · exact .inl client
  · cases isClient with
    | true => exact .inl rfl
    | false =>
      refine .inr ?_
      obtain ⟨cmd, sid, data⟩ := frame
      cases cmd with
      | psh | syn | synAck =>
        simp only [Engine.onFrame]
        split_ifs <;> exact small
      | settings =>
        simp only [Engine.onFrame, Engine.onSettings]
        split
        · split
          · split <;> exact small
          · exact small
        · exact small
      | _ => exact small

/-- A frame lets a server make one stream if it is a SYN, and a client none. -/
theorem onFrame_incoming (md5 : Bytes → String) (state : State) (isClient frame handled sid) :
    ((Engine.onFrame md5 state isClient frame).2.filterMap ProtocolAction.incoming?).count sid +
        (said sid handled).syns ≤ (said sid (handled ++ [frame])).syns ∧
    (isClient = true → (Engine.onFrame md5 state isClient frame).2.filterMap
      ProtocolAction.incoming? = []) := by
  have makesNone {actions : List ProtocolAction}
      (without : actions.filterMap ProtocolAction.incoming? = []) :
      (actions.filterMap ProtocolAction.incoming?).count sid + (said sid handled).syns ≤
          (said sid (handled ++ [frame])).syns ∧
        (isClient = true → actions.filterMap ProtocolAction.incoming? = []) := by
    refine ⟨?_, fun _ => without⟩
    rw [without, List.count_nil, Nat.zero_add, said_snoc]
    exact Said.hear_syns_le _
  cases command : frame.cmd with
  | syn =>
    simp only [Engine.onFrame, command]
    split_ifs with client known
    · exact makesNone rfl
    · refine ⟨?_, fun isClient => absurd isClient client⟩
      rw [said_snoc]
      by_cases mine : frame.sid = sid
      · simp [Said.hear, mine, command, Said.add, ProtocolAction.incoming?]
        omega
      · simp [Said.hear, mine, ProtocolAction.incoming?]
    · exact makesNone rfl
  | psh | synAck =>
    simp only [Engine.onFrame, command]
    split_ifs <;> exact makesNone rfl
  | settings =>
    simp only [Engine.onFrame, command, Engine.onSettings]
    split
    · split
      · split
        · split_ifs <;> exact makesNone rfl
        · split_ifs <;> exact makesNone rfl
      · split_ifs <;> exact makesNone rfl
    · exact makesNone rfl
  | updatePaddingScheme | serverSettings =>
    simp only [Engine.onFrame, command]
    split
    · split <;> exact makesNone rfl
    · exact makesNone rfl
  | waste | alert | fin | heartRequest | heartResponse | unknown value =>
    simp only [Engine.onFrame, command]
    exact makesNone rfl

end

/-! ### One step -/

namespace Session

/-- A step of the loop that takes no frame. -/
structure Onward (s t : Session) : Prop where
  inbound : (t.pending, t.received, t.handled, t.protocolState, t.isClient) =
    (s.pending, s.received, s.handled, s.protocolState, s.isClient)
  actions : ∀ rest, t.recv.pending = some rest → ∃ done, s.recv.pending = some (done ++ rest)
  payload : ∀ ref data, t.recv.payload = some (ref, data) → s.recv.payload = some (ref, data) ∨
    ∃ sid rest, s.recv = .applying (.pushStreamData sid data :: rest)
  arriving : ∀ sid, t.recv.arriving = some sid → ∃ rest, s.recv = .applying (.ensureIncomingStream sid :: rest)
  made : ∃ made, t.objects.map (·.stream.id) = s.objects.map (·.stream.id) ++ made ∧
    (made ++ t.recv.awaited).Sublist s.recv.awaited

/-- A step of the loop that takes a frame. -/
def Decodes (md5 : Bytes → String) (s t : Session) : Prop :=
  ∃ frame rest, s.recv = .decoding ∧ Frame.next s.pending = some (frame, rest) ∧
    t = handleFrame md5 { s with pending := rest, handled := s.handled ++ [frame] } frame

variable {s t : Session} {a : SessionAction}

/-- The loop goes on with the same actions, or has failed. -/
theorem Onward.same
    (inbound : (t.pending, t.received, t.handled, t.protocolState, t.isClient) =
      (s.pending, s.received, s.handled, s.protocolState, s.isClient))
    (ids : t.objects.map (·.stream.id) = s.objects.map (·.stream.id))
    (actions : t.recv.pending = s.recv.pending ∨ t.recv.pending = none)
    (payload : t.recv.payload = s.recv.payload ∨ t.recv.payload = none)
    (arriving : t.recv.arriving = none) : Onward s t := by
  refine ⟨inbound, fun rest left => ?_, fun ref data pushing => ?_, fun sid waits => ?_, [], ?_, ?_⟩
  · rcases actions with same | failed
    · exact ⟨[], same ▸ left⟩
    · cases failed.symm.trans left
  · rcases payload with same | absent
    · exact .inl (same ▸ pushing)
    · cases absent.symm.trans pushing
  · cases arriving.symm.trans waits
  · rw [ids, List.append_nil]
  · simp only [List.nil_append, RecvPc.awaited, arriving, Option.toList_none]
    rcases actions with same | failed
    · rw [same]
      exact List.sublist_append_right ..
    · rw [failed]
      exact List.nil_sublist _

/-- The loop has begun the next action. -/
theorem Onward.next {action rest} (receiving : s.recv = .applying (action :: rest))
    (inbound : (t.pending, t.received, t.handled, t.protocolState, t.isClient) =
      (s.pending, s.received, s.handled, s.protocolState, s.isClient)) (objects : t.objects = s.objects)
    (actions : t.recv.pending = some rest)
    (payload : ∀ ref data, t.recv.payload = some (ref, data) → ∃ sid, action = .pushStreamData sid data)
    (arriving : t.recv.arriving.toList = action.incoming?.toList ∨ t.recv.arriving = none) :
    Onward s t := by
  refine ⟨inbound, fun left same => ?_, fun ref data pushing => ?_, fun sid waits => ?_, [], ?_, ?_⟩
  · cases actions.symm.trans same
    exact ⟨[action], by rw [receiving]; rfl⟩
  · obtain ⟨sid, rfl⟩ := payload ref data pushing
    exact .inr ⟨sid, rest, receiving⟩
  · rcases arriving with same | absent
    · cases action with
      | ensureIncomingStream other =>
        rw [waits] at same
        cases same
        exact ⟨rest, receiving⟩
      | _ => rw [waits] at same; cases same
    · cases absent.symm.trans waits
  · rw [objects, List.append_nil]
  · have before : s.recv.awaited =
        action.incoming?.toList ++ rest.filterMap ProtocolAction.incoming? := by
      rw [receiving]
      cases made : action.incoming? <;> simp [RecvPc.awaited, RecvPc.arriving, RecvPc.pending, made]
    rw [before, List.nil_append, RecvPc.awaited, actions]
    rcases arriving with same | absent
    · rw [same]
      exact .refl _
    · rw [absent]
      exact List.sublist_append_right ..

theorem Turns.onward {next} (turns : Turns s next) : Onward s { s with recv := next } := by
  cases turns with
  | pushes receiving =>
    refine .next receiving rfl rfl rfl ?_ (.inr rfl)
    rintro _ _ ⟨⟩
    exact ⟨_, rfl⟩
  | pushUnknown receiving | synLate receiving =>
    exact .next receiving rfl rfl rfl (fun _ _ => by rintro ⟨⟩) (.inr rfl)
  | synPasses receiving => exact .next receiving rfl rfl rfl (fun _ _ => by rintro ⟨⟩) (.inl rfl)
  | pushChecked receiving | pushOpen receiving =>
    exact .same rfl rfl (.inl (by rw [receiving]; rfl)) (.inl (by rw [receiving]; rfl)) rfl
  | woken | refused | synZero | ackLost | alerted | pushFails => exact .same rfl rfl (.inr rfl) (.inr rfl) rfl
  | drained receiving | applied receiving | acked receiving | synKnown receiving | pushIgnored receiving
  | pushClosed receiving | pushRefused receiving | pushForgiven receiving | markedBefore receiving =>
    exact .same rfl rfl (.inl (by rw [receiving]; rfl)) (.inr rfl) rfl

theorem recvStep_cases {md5} (stepped : s.recvStep md5 = some t) :
    Decodes md5 s t ∨ Onward s t := by
  cases recvStep_move stepped with
  | turns turning => exact .inr turning.onward
  | alerts decoding found alert => exact .inl ⟨_, _, decoding, found, (if_pos alert).symm⟩
  | handles decoding found other => exact .inl ⟨_, _, decoding, found, (if_neg other).symm⟩
  | answers receiving sending =>
    refine .inr ?_
    cases sending with
    | sendFrame | sendFrameSync => exact .next receiving rfl rfl rfl (fun _ _ => by rintro ⟨⟩) (.inr rfl)
    | alertAndFail => exact .same rfl rfl (.inr rfl) (.inr rfl) rfl
  | ends receiving closing =>
    refine .inr (.next receiving rfl rfl rfl (fun _ _ => by rintro ⟨⟩) (.inr rfl))
  | releases receiving => exact .inr (.next receiving rfl rfl rfl (fun _ _ => by rintro ⟨⟩) (.inr rfl))
  | @creates sid _ receiving =>
    refine .inr ⟨rfl, ?_, nofun, nofun, [sid], by simp [StreamObject.new, Stream.new], ?_⟩
    · rintro _ ⟨⟩
      exact ⟨[], by rw [receiving]; rfl⟩
    · rw [receiving]
      exact .refl _
  | pushed receiving | closeMarks receiving | closeFinishes receiving =>
    exact .inr (.same rfl (ListUpdate.map_modify fun _ => rfl) (.inl (by rw [receiving]; rfl)) (.inr rfl) rfl)
  | @closeAnnounces ref _ _ _ receiving =>
    cases ref with
    | none => exact .inr (.same rfl rfl (.inl (by rw [receiving]; rfl)) (.inr rfl) rfl)
    | some ref => exact .inr (.same rfl rfl (.inl (by rw [receiving]; rfl)) (.inr rfl) rfl)
  | fails => exact .inr (.same rfl rfl (.inr rfl) (.inr rfl) rfl)
  | acknowledges call | acknowledged call => cases call

/-- A session keeps its role. -/
theorem role_step {md5} (stepped : s.step md5 a = some t) : t.isClient = s.isClient := by
  cases step_move stepped with
  | _ => rfl

/-! ### Every run -/

structure Listening (s : Session) : Prop where
  decoded : s.received = s.handled.flatMap Frame.toBytes ++ s.pending
  encodable : ∀ frame ∈ s.handled, frame.Encodable
  due : ∀ actions, s.recv.pending = some actions → ∀ action ∈ actions, Due s.handled action
  payload : ∀ ref data, s.recv.payload = some (ref, data) → data ≠ []
  arriving : ∀ sid, s.recv.arriving = some sid → (said sid s.handled).Fresh
  scheme : s.isClient = true ∨ s.protocolState.padding.rawScheme.length ≤ 65535
  client : s.isClient = true → s.recv.awaited = []

/-- A server has made no more streams for a sid than it has handled SYNs. -/
def Accounts (s : Session) : Prop :=
  s.isClient = false → ∀ sid,
    (s.objects.map (·.stream.id)).count sid + s.recv.awaited.count sid ≤ (said sid s.handled).syns

theorem Listening.onward (listening : s.Listening) (onward : s.Onward t) : t.Listening := by
  obtain ⟨inbound, actions, payload, arriving, made, -, sublist⟩ := onward
  simp only [Prod.mk.injEq] at inbound
  obtain ⟨pending, received, handled, state, role⟩ := inbound
  refine ⟨?_, ?_, fun rest left action member => ?_, fun ref data pushing => ?_, fun sid waits => ?_, ?_,
    fun client => ?_⟩
  · rw [received, handled, pending]
    exact listening.decoded
  · rw [handled]
    exact listening.encodable
  · obtain ⟨done, before⟩ := actions rest left
    rw [handled]
    exact listening.due _ before action (List.mem_append_right _ member)
  · rcases payload ref data pushing with before | ⟨sid, rest, before⟩
    · exact listening.payload ref data before
    · have due : Due s.handled (.pushStreamData sid data) :=
        listening.due _ (by rw [before]; rfl) _ List.mem_cons_self
      exact due.1
  · obtain ⟨rest, before⟩ := arriving sid waits
    rw [handled]
    exact listening.due _ (by rw [before]; rfl) (.ensureIncomingStream sid) List.mem_cons_self
  · rw [role, state]
    exact listening.scheme
  · rw [listening.client (role ▸ client)] at sublist
    exact (List.append_eq_nil_iff.mp (List.sublist_nil.mp sublist)).2

theorem Accounts.onward (accounts : s.Accounts) (onward : s.Onward t) : t.Accounts := by
  obtain ⟨inbound, -, -, -, made, ids, sublist⟩ := onward
  simp only [Prod.mk.injEq] at inbound
  intro server sid
  have before := accounts (inbound.2.2.2.2 ▸ server) sid
  have fewer := sublist.count_le sid
  rw [List.count_append] at fewer
  rw [ids, List.count_append, inbound.2.2.1]
  omega

theorem Listening.decodes {md5} (listening : s.Listening) (decodes : s.Decodes md5 t) :
    t.Listening := by
  obtain ⟨frame, rest, -, found, rfl⟩ := decodes
  obtain ⟨encodable, split⟩ := (Frame.next_iff _ _ _).mp found
  have decoded : s.received = (s.handled ++ [frame]).flatMap Frame.toBytes ++ rest := by
    rw [listening.decoded, split, List.flatMap_append, List.flatMap_singleton, List.append_assoc]
  have known : ∀ f ∈ s.handled ++ [frame], f.Encodable := by
    intro f member
    rcases List.mem_append.mp member with old | new
    · exact listening.encodable f old
    · exact List.mem_singleton.mp new ▸ encodable
  unfold handleFrame
  split_ifs
  · exact ⟨decoded, known, nofun, nofun, nofun, listening.scheme, fun _ => rfl⟩
  · refine ⟨decoded, known, ?_, nofun, nofun, onFrame_scheme listening.scheme, fun client => ?_⟩
    · rintro _ ⟨⟩
      exact onFrame_due listening.scheme
    · exact (onFrame_incoming md5 _ _ frame s.handled 0).2 client

theorem Accounts.decodes {md5} (accounts : s.Accounts) (decodes : s.Decodes md5 t) :
    t.Accounts := by
  obtain ⟨frame, rest, decoding, found, rfl⟩ := decodes
  intro server sid
  unfold handleFrame at server ⊢
  split_ifs at server ⊢
  · have before := accounts server sid
    have more : (said sid s.handled).syns ≤ (said sid (s.handled ++ [frame])).syns :=
      said_syns_le (List.prefix_append ..)
    simp only [RecvPc.awaited, RecvPc.arriving, RecvPc.pending, Option.toList_none, Option.getD_none,
      List.filterMap_nil, List.append_nil, List.count_nil] at before ⊢
    omega
  · have before := accounts server sid
    have made := (onFrame_incoming md5 s.protocolState s.isClient frame s.handled sid).1
    simp only [RecvPc.awaited, RecvPc.arriving, RecvPc.pending, Option.toList_none, Option.getD_some,
      List.nil_append] at before ⊢
    omega

theorem Listening.same (listening : s.Listening)
    (unchanged : (t.recv, t.pending, t.received, t.handled, t.protocolState, t.isClient) =
      (s.recv, s.pending, s.received, s.handled, s.protocolState, s.isClient)) : t.Listening := by
  simp only [Prod.mk.injEq] at unchanged
  obtain ⟨recv, pending, received, handled, state, role⟩ := unchanged
  refine ⟨?_, handled ▸ listening.encodable, ?_, recv ▸ listening.payload, ?_, ?_, ?_⟩
  · rw [received, handled, pending]
    exact listening.decoded
  · rw [recv, handled]
    exact listening.due
  · rw [recv, handled]
    exact listening.arriving
  · rw [role, state]
    exact listening.scheme
  · rw [role, recv]
    exact listening.client

/-- The receive loop's invariant, for a server that opens no stream itself. -/
theorem listening_step {md5} (inv : s.Listening ∧ s.Accounts) (passive : s.isClient = false → s.opens = [])
    (stepped : s.step md5 a = some t) :
    t.Listening ∧ t.Accounts := by
  obtain ⟨listening, accounts⟩ := inv
  by_cases loop : a = .recvStep
  · subst loop
    rcases recvStep_cases stepped with decodes | onward
    · exact ⟨listening.decodes decodes, accounts.decodes decodes⟩
    · exact ⟨listening.onward onward, accounts.onward onward⟩
  · have effect := step_effect stepped
    have ids : s.isClient = false → t.objects.map (·.stream.id) = s.objects.map (·.stream.id) := by
      intro server
      rcases effect.objects.ids with same | ⟨o, created, -⟩
      · exact same
      · cases created with
        | incoming sid rest called => exact absurd called loop
        | opened i maxStreams _ placed =>
          rw [passive server] at placed
          cases placed
    cases effect.inbound with
    | same unchanged =>
      refine ⟨listening.same unchanged, fun server sid => ?_⟩
      simp only [Prod.mk.injEq] at unchanged
      obtain ⟨recv, -, -, handled, -, role⟩ := unchanged
      have isServer := role ▸ server
      rw [ids isServer, recv, handled]
      exact accounts isServer sid
    | receive chunk _ reading same =>
      subst same
      refine ⟨⟨?_, listening.encodable, ?_, nofun, nofun, listening.scheme, fun _ => rfl⟩,
        fun server sid => ?_⟩
      · simp only [listening.decoded, List.append_assoc]
      · rintro _ ⟨⟩ _ ⟨⟩
      · have before := accounts server sid
        rw [reading] at before
        exact before
    | disconnect error _ reading same =>
      subst same
      refine ⟨⟨listening.decoded, listening.encodable, nofun, nofun, nofun, listening.scheme,
        fun _ => rfl⟩, fun server sid => ?_⟩
      have before := accounts server sid
      rw [reading] at before
      exact before
    | recv called => exact absurd called loop

end Session

end AnyTls
